import ColouredPetri.Proofs.Nets.Built
import ColouredPetri.Proofs.Nets.Refusals

namespace ColouredPetri

namespace Net

variable {net : Net} {f : String → String} {t : Transition} {b : Binding}

/-- What a transition does under other names. Searches and flows are the same up to the names, and
so are firings, but if two places refuse what is produced, either of them can be reported. -/
structure BehavesUnder (net : Net) (f : String → String) (trans : String) : Prop where
  modes : (net.relabel f).modes (f trans) = net.modes trans
  flow : ∀ b, (net.relabel f).flow (f trans) b =
    ((net.flow trans b).map (relabelFlow f)).mapError (Error.relabel f)
  fires : ∀ b net₁, Net.fire trans b net = .ok () net₁ →
    Net.fire (f trans) b (net.relabel f) = .ok () (net₁.relabel f)
  fails : ∀ b e net₁, Net.fire trans b net = .error e net₁ → net₁ = net ∧
    ∃ d, Net.fire (f trans) b (net.relabel f) = .error (d.relabel f) (net.relabel f) ∧
      (d = e ∨ ∃ consumed produced, net.flow trans b = .ok (consumed, produced) ∧
        net.RefusedTwice produced e d)

section Firing

lemma fire_relabel_ok (h : net.WellFormed) (h' : (net.relabel f).WellFormed)
    (ht : t ∈ net.transitions) {net₁ : Net} (hs : fire t.name b net = .ok () net₁) :
    fire (f t.name) b (net.relabel f) = .ok () (net₁.relabel f) := by
  obtain ⟨consumed, produced, left, hf, hl, ha, rfl⟩ := (fire_eq_ok_iff h).1 hs
  obtain ⟨hc, hp⟩ := covers_flow h hf
  have hleft : net.Covers left := Covers.of_add (hl ▸ covers_marking)
  refine (fire_eq_ok_iff h').2 ⟨consumed.relabel f, produced.relabel f, left.relabel f, ?_, ?_,
    (accepts_relabel h' hp).2 ha, ?_⟩
  · rw [flow_relabel h h' ht, hf]
    rfl
  · rw [← relabel_add h' hleft hc, hl, marking_relabel h h']
  · rw [← relabel_add h' hleft hp, restore_relabel h' (hleft.add hp)]

lemma fire_of_flow_error {trans : String} {e : Error} (hf : net.flow trans b = .error e) :
    fire trans b net = .error e net :=
  bind_of_error _ (look_eq_error_iff.2 ⟨hf, rfl⟩)

lemma fire_relabel_error (h : net.WellFormed) (h' : (net.relabel f).WellFormed)
    (ht : t ∈ net.transitions) {e : Error} {net₁ : Net}
    (hs : fire t.name b net = .error e net₁) :
    ∃ d, fire (f t.name) b (net.relabel f) = .error (d.relabel f) (net.relabel f) ∧
      (d = e ∨ ∃ consumed produced, net.flow t.name b = .ok (consumed, produced) ∧
        net.RefusedTwice produced e d) := by
  have hflow := flow_relabel (b := b) h h' ht
  cases hf : net.flow t.name b with
  | error e₁ =>
    rw [hf] at hflow
    rw [fire_of_flow_error hf] at hs
    cases hs
    exact ⟨e, fire_of_flow_error hflow, .inl rfl⟩
  | ok flow =>
    rw [hf] at hflow
    have hfails : failure (fire t.name b) net = some e := by rw [failure, hs]
    rw [failure_fire h hf] at hfails
    obtain ⟨d, hd, hsame⟩ := findSome?_relabel h h' (covers_flow h hf).2 hfails
    have hfails' : failure (fire (f t.name) b) (net.relabel f) = some (d.relabel f) :=
      (failure_fire h' hflow).trans hd
    have hs' := error_of_failure hfails'
    rw [fire_error h' hs'] at hs'
    exact ⟨d, hs', hsame.imp_right fun hr => ⟨_, _, rfl, hr⟩⟩

lemma behavesUnder (h : net.WellFormed) (h' : (net.relabel f).WellFormed)
    (ht : t ∈ net.transitions) : net.BehavesUnder f t.name where
  modes := modes_relabel h h' ht
  flow _ := flow_relabel h h' ht
  fires _ _ := fire_relabel_ok h h' ht
  fails _ _ _ hs := ⟨fire_error h hs, fire_relabel_error h h' ht hs⟩

end Firing

section Renamed

variable {old new n : String}

lemma relabel_place_eq_self (h : net.WellFormed) (hf : ∀ n ∈ net.names, f n = n) {p : Place}
    (hp : p ∈ net.places) : p.relabel f = p := by
  have hlinks : ∀ side, (p.links side).map f = p.links side := fun side =>
    (List.map_congr_left fun n hn => hf n (h.link_mem_names hp hn)).trans (List.map_id _)
  have hpre : p.pre.map f = p.pre := hlinks .output
  have hpost : p.post.map f = p.post := hlinks .input
  rw [Place.relabel, hf _ (place_name_mem hp), hpre, hpost]

lemma relabel_transition_eq_self (h : net.WellFormed) (hf : ∀ n ∈ net.names, f n = n)
    (ht : t ∈ net.transitions) : t.relabel f = t := by
  have harcs : ∀ side, (t.arcs side).map (Prod.map f id) = t.arcs side := by
    intro side
    refine (List.map_congr_left fun e he => ?_).trans (List.map_id _)
    exact Prod.ext (hf e.1 (h.key_mem_names ht (List.mem_map_of_mem he))) rfl
  have hinputs : t.inputs.map (Prod.map f id) = t.inputs := harcs .input
  have houtputs : t.outputs.map (Prod.map f id) = t.outputs := harcs .output
  rw [Transition.relabel, hf _ (transition_name_mem ht), hinputs, houtputs]

lemma relabel_eq_self (h : net.WellFormed) (hf : ∀ n ∈ net.names, f n = n) :
    net.relabel f = net := by
  have hplaces : net.placeMap.map (fun e => (f e.1, e.2.relabel f)) = net.placeMap := by
    refine (List.map_congr_left fun e he => ?_).trans (List.map_id _)
    have hp : e.2 ∈ net.places := List.mem_map_of_mem he
    exact Prod.ext (hf e.1 (h.keyed.places e he ▸ place_name_mem hp))
      (relabel_place_eq_self h hf hp)
  have htransitions :
      net.transitionMap.map (fun e => (f e.1, e.2.relabel f)) = net.transitionMap := by
    refine (List.map_congr_left fun e he => ?_).trans (List.map_id _)
    have ht : e.2 ∈ net.transitions := List.mem_map_of_mem he
    exact Prod.ext (hf e.1 (h.keyed.transitions e he ▸ transition_name_mem ht))
      (relabel_transition_eq_self h hf ht)
  rw [relabel, hplaces, htransitions]

lemma renamed_renamed (hn : n ≠ new) : renamed new old (renamed old new n) = n := by
  by_cases ho : n = old
  · subst ho
    simp [renamed]
  · rw [renamed_of_ne ho, renamed_of_ne hn]

lemma old_notMem_relabel (hne : old ≠ new) : old ∉ (net.relabel (renamed old new)).names := by
  rw [names_relabel]
  intro hmem
  obtain ⟨n, -, hn⟩ := List.mem_map.1 hmem
  by_cases ho : n = old
  · rw [renamed, if_pos (beq_iff_eq.2 ho)] at hn
    exact hne hn.symm
  · rw [renamed_of_ne ho] at hn
    exact ho hn

lemma renameNode_back (h : net.WellFormed) (h' : (net.relabel (renamed old new)).WellFormed)
    (hold : net.hasNode old = true) (hnew : net.hasNode new = false) :
    renameNode new old (net.relabel (renamed old new)) = .ok () net := by
  -- the old name is free after the renaming
  have hold := h.keyed.hasNode_iff.1 hold
  have hnew := h.keyed.hasNode_eq_false_iff.1 hnew
  have hback : net.relabel (renamed new old ∘ renamed old new) = net :=
    relabel_eq_self h fun n hn => renamed_renamed (ne_of_mem_of_not_mem hn hnew)
  have htaken : new ∈ (net.relabel (renamed old new)).names := by
    rw [names_relabel, List.mem_map]
    exact ⟨old, hold, by rw [renamed, beq_self_eq_true, if_pos rfl]⟩
  have hfree : old ∉ (net.relabel (renamed old new)).names :=
    old_notMem_relabel (ne_of_mem_of_not_mem hold hnew)
  rw [renameNode_eq h' (h'.keyed.hasNode_iff.2 htaken) (h'.keyed.hasNode_eq_false_iff.2 hfree),
    relabel_relabel, hback]

end Renamed

/-- Renaming a node replaces its name in the net, and only that, so that the net does what it did;
renaming it back restores the net. A name that no node has cannot be replaced, and one that a node
has cannot be given. -/
theorem node_renamed (h : net.Built) (old new : String) :
    (net.hasNode old = true → net.hasNode new = false →
      renameNode old new net = .ok () (net.relabel (renamed old new)) ∧
      renameNode new old (net.relabel (renamed old new)) = .ok () net ∧
      ∀ t ∈ net.transitions, net.BehavesUnder (renamed old new) t.name) ∧
    (net.hasNode old = false ∨ net.hasNode new = true ∨ new = old →
      ∃ e, renameNode old new net = .error e net) := by
  have hw := h.wellFormed
  constructor
  · intro hold hnew
    have hrename := renameNode_eq hw hold hnew
    have hw' := (keeps_renameNode old new).of_ok hw hrename
    exact ⟨hrename, renameNode_back hw hw' hold hnew, fun t ht => behavesUnder hw hw' ht⟩
  · intro hbad
    cases hnew : net.hasNode new with
    | true => exact ⟨_, renameNode_taken hnew⟩
    | false =>
      have hold : net.hasNode old = false := by
        rcases hbad with hold | hnew' | rfl
        · exact hold
        · rw [hnew] at hnew'
          cases hnew'
        · exact hnew
      exact ⟨_, renameNode_absent hold hnew⟩

def loop : Net :=
  .ofNodes "loop"
    [⟨"p", .ofList [.int 1], .any, ["t"], ["t"]⟩]
    [⟨"t", .truth, [("p", .var "x")], [("p", .var "x")]⟩] Table.empty

theorem node_renamed_loop : loop.Built ∧
    renameNode "p" "q" loop = .ok () (loop.relabel (renamed "p" "q")) ∧
    renameNode "q" "p" (loop.relabel (renamed "p" "q")) = .ok () loop ∧
    loop.BehavesUnder (renamed "p" "q") "t" ∧ ∃ e, renameNode "p" "t" loop = .error e loop := by
  have hbuilt : loop.Built := .described (d := .ofNet loop) rfl
  obtain ⟨hrename, hback, hbehaves⟩ := (node_renamed hbuilt "p" "q").1 rfl rfl
  exact ⟨hbuilt, hrename, hback, hbehaves _ List.mem_cons_self,
    (node_renamed hbuilt "p" "t").2 (.inr (.inl rfl))⟩

def twofold : Net :=
  .ofNodes "twofold"
    [⟨"a", Bag.empty, .oneOf (KeySet.ofList [.tuple [.tuple [.int 1]]]), ["t"], []⟩,
      ⟨"b", Bag.empty, .oneOf (KeySet.ofList [.tuple [.tuple [.int 1]]]), ["t"], []⟩]
    [⟨"t", .truth, [],
    [("a", .tuple [.multi [.value (.int 1)]]), ("b", .tuple [.multi [.value (.int 1)]])]⟩]
    Table.empty

/-- Under its new name the first place comes last, and the other one is reported. -/
theorem other_refusal_reported : twofold.Built ∧
    fire "t" Table.empty twofold = .error (.token (.forbidden "a" (.tuple [.int 1]))) twofold ∧
    renameNode "a" "z" twofold = .ok () (twofold.relabel (renamed "a" "z")) ∧
    fire "t" Table.empty (twofold.relabel (renamed "a" "z")) =
      .error (.token (.forbidden "b" (.tuple [.int 1]))) (twofold.relabel (renamed "a" "z")) ∧
    (Error.token (.forbidden "a" (.tuple [.int 1]))).relabel (renamed "a" "z") =
      .token (.forbidden "z" (.tuple [.int 1])) :=
  ⟨.described (d := .ofNet twofold) rfl, rfl, rfl, rfl, rfl⟩

end Net

end ColouredPetri
