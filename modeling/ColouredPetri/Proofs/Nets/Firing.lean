import ColouredPetri.Net.Firing
import ColouredPetri.Proofs.Nets.TokenEdits

/-! Firing as arithmetic of markings. The loops over places take what is consumed and put what is
produced, so that a firing succeeds exactly if the marking can pay and the places accept. -/

namespace ColouredPetri

namespace Net

variable {net net' : Net} {b : Binding} {t : Transition} {trans : String} {m : Marking} {u : Unit}

lemma arcFlows_eq_ok_iff {l : List (String × Arc)} {fs : List (String × Bag)} :
    net.arcFlows b l = .ok fs ↔
      List.Forall₂ (fun e d => d.1 = e.1 ∧ e.2.flow (net.scope b) = .ok d.2) l fs := by
  induction l generalizing fs with
  | nil =>
    rw [List.forall₂_nil_left_iff]
    exact ⟨fun h => by cases h; rfl, fun h => h ▸ rfl⟩
  | cons e l ih =>
    rw [arcFlows, except_bind_eq_ok]
    simp only [except_bind_eq_ok, except_pure, Except.ok.injEq, ih, List.forall₂_cons_left_iff]
    constructor
    · rintro ⟨flow, hf, rest, hrest, rfl⟩
      exact ⟨_, _, ⟨rfl, hf⟩, hrest, rfl⟩
    · rintro ⟨⟨n, flow⟩, rest, ⟨rfl, hf⟩, hrest, rfl⟩
      exact ⟨flow, hf, rest, hrest, rfl⟩

lemma arcFlows_keys {l : List (String × Arc)} {fs : List (String × Bag)}
    (h : net.arcFlows b l = .ok fs) : fs.map Prod.fst = l.map Prod.fst := by
  rw [arcFlows_eq_ok_iff] at h
  induction h with
  | nil => rfl
  | cons hd _ ih => rw [List.map_cons, List.map_cons, hd.1, ih]

lemma tokens_arcFlows {l : List (String × Arc)} {fs : List (String × Bag)}
    (hl : (l.map Prod.fst).Nodup) (h : net.arcFlows b l = .ok fs) {e : String × Arc} (he : e ∈ l) :
    ∃ f, e.2.flow (net.scope b) = .ok f ∧ (Marking.ofList fs).tokens e.1 = f := by
  have hkeys := arcFlows_keys h
  obtain ⟨d, hd, hn, hf⟩ : ∃ d ∈ fs, d.1 = e.1 ∧ e.2.flow (net.scope b) = .ok d.2 := by
    rw [arcFlows_eq_ok_iff] at h
    clear hl hkeys
    induction h with
    | nil => cases he
    | cons hd _ ih =>
      rcases List.mem_cons.1 he with rfl | he
      · exact ⟨_, List.mem_cons_self, hd⟩
      · obtain ⟨d, hd, h⟩ := ih he
        exact ⟨d, List.mem_cons_of_mem _ hd, h⟩
  refine ⟨d.2, hf, ?_⟩
  rw [Marking.tokens_ofList, ← hn]
  exact Table.total_of_mem (hkeys ▸ hl) hd

lemma tokens_arcFlows_of_notMem {l : List (String × Arc)} {fs : List (String × Bag)}
    (h : net.arcFlows b l = .ok fs) {name : String} (hn : name ∉ l.map Prod.fst) :
    (Marking.ofList fs).tokens name = Bag.empty := by
  rw [Marking.tokens_ofList, Table.total_eq_zero]
  · rfl
  · rintro e he rfl
    exact hn (arcFlows_keys h ▸ List.mem_map_of_mem he)

lemma covers_arcFlows (h : net.WellFormed) (ht : t ∈ net.transitions) (side : Side)
    {fs : List (String × Bag)} (hfs : net.arcFlows b (t.arcs side) = .ok fs) :
    net.Covers (Marking.ofList fs) := by
  intro name hn
  rw [Marking.mem_places_iff] at hn
  by_contra hc
  refine hn (tokens_arcFlows_of_notMem hfs fun hk => hc ?_)
  exact h.keys_places t ht side name hk

lemma flowOf_eq_ok_iff {flows : Marking × Marking} : net.flowOf t b = .ok flows ↔
    net.enabledBy t b = .ok true ∧ ∃ consumed produced, net.arcFlows b t.inputs = .ok consumed ∧
      net.arcFlows b t.outputs = .ok produced ∧
      flows = (Marking.ofList consumed, Marking.ofList produced) := by
  rw [flowOf, except_bind_eq_ok]
  constructor
  · rintro ⟨enabled, he, h⟩
    cases enabled with
    | false => cases h
    | true =>
      obtain ⟨consumed, hc, h⟩ := except_bind_eq_ok.1 h
      obtain ⟨produced, hp, h⟩ := except_bind_eq_ok.1 h
      cases h
      exact ⟨he, consumed, produced, hc, hp, rfl⟩
  · rintro ⟨he, consumed, produced, hc, hp, rfl⟩
    refine ⟨true, he, ?_⟩
    simp [hc, hp]

lemma flow_eq_ok_iff {flows : Marking × Marking} : net.flow trans b = .ok flows ↔
    ∃ t, net.transition? trans = some t ∧ net.flowOf t b = .ok flows := by
  rw [flow, except_bind_eq_ok]
  simp only [transition_eq_ok_iff]

lemma covers_flow (h : net.WellFormed) {consumed produced : Marking}
    (hf : net.flow trans b = .ok (consumed, produced)) :
    net.Covers consumed ∧ net.Covers produced := by
  obtain ⟨t, ht, hf⟩ := flow_eq_ok_iff.1 hf
  obtain ⟨-, cs, ps, hc, hp, hpair⟩ := flowOf_eq_ok_iff.1 hf
  cases hpair
  have ht := (h.keyed.mem_of_transition? ht).1
  exact ⟨covers_arcFlows h ht .input hc, covers_arcFlows h ht .output hp⟩

def moveTokens (consumed produced : Marking) : Edit Unit := do
  consumed.entries.forM fun e => removeTokens e.1 e.2
  produced.entries.forM fun e => addTokens e.1 e.2

lemma keeps_moveTokens (h : net.WellFormed) (consumed produced : Marking) :
    Keeps net.Remarked (moveTokens consumed produced) :=
  keeps_bind (keeps_forM fun _ _ => keeps_removeTokens h) fun _ =>
    keeps_forM fun _ _ => keeps_addTokens h

lemma Covers.entries (hm : net.Covers m) : ∀ e ∈ m.entries, ∃ p ∈ net.places, p.name = e.1 :=
  fun _ he => hm _ (List.mem_map_of_mem he)

lemma moveTokens_eq_ok_iff (h : net.WellFormed) {consumed produced : Marking}
    (hc : net.Covers consumed) (hp : net.Covers produced) :
    moveTokens consumed produced (net.restore m) = .ok u net' ↔
      ∃ left, left + consumed = m ∧ net.Accepts produced ∧ net' = net.restore (left + produced) := by
  rw [moveTokens, bind_eq_ok]
  simp only [forM_removeTokens_restore h hc.entries, Marking.ofList_entries]
  constructor
  · rintro ⟨-, t, ⟨left, rfl, rfl⟩, hs⟩
    rw [forM_addTokens_restore h hp.entries, ← accepts_iff_entries, Marking.ofList_entries] at hs
    exact ⟨left, rfl, hs⟩
  · rintro ⟨left, rfl, hs⟩
    refine ⟨(), _, ⟨left, rfl, rfl⟩, ?_⟩
    rw [forM_addTokens_restore h hp.entries, ← accepts_iff_entries, Marking.ofList_entries]
    exact hs

lemma fire_eq_ok_iff (h : net.WellFormed) : fire trans b net = .ok u net' ↔
    ∃ consumed produced left, net.flow trans b = .ok (consumed, produced) ∧
      left + consumed = net.marking ∧ net.Accepts produced ∧
      net' = net.restore (left + produced) := by
  have hrun : ∀ consumed produced, net.flow trans b = .ok (consumed, produced) →
      (withRollback (moveTokens consumed produced) net = .ok u net' ↔
        ∃ left, left + consumed = net.marking ∧ net.Accepts produced ∧
          net' = net.restore (left + produced)) := by
    intro consumed produced hf
    obtain ⟨hc, hp⟩ := covers_flow h hf
    rw [withRollback_eq_ok_iff, ← moveTokens_eq_ok_iff (u := u) h hc hp, restore_marking h]
  rw [fire, bind_eq_ok]
  constructor
  · rintro ⟨⟨consumed, produced⟩, net₁, hl, hs⟩
    obtain ⟨hf, rfl⟩ := look_eq_ok_iff.1 hl
    obtain ⟨left, hs⟩ := (hrun consumed produced hf).1 hs
    exact ⟨consumed, produced, left, hf, hs⟩
  · rintro ⟨consumed, produced, left, hf, hs⟩
    exact ⟨(consumed, produced), net, look_eq_ok_iff.2 ⟨hf, rfl⟩,
      (hrun consumed produced hf).2 ⟨left, hs⟩⟩

lemma fire_error (h : net.WellFormed) {e : Error} (hs : fire trans b net = .error e net') :
    net' = net := by
  cases hf : net.flow trans b with
  | error d =>
    have hl : look (fun net => net.flow trans b) net = .error d net :=
      look_eq_error_iff.2 ⟨hf, rfl⟩
    rw [fire, bind_of_error _ hl] at hs
    cases hs
    rfl
  | ok flows =>
    have hl : look (fun net => net.flow trans b) net = .ok flows net :=
      look_eq_ok_iff.2 ⟨hf, rfl⟩
    rw [fire, bind_of_ok _ hl] at hs
    exact withRollback_error h (keeps_moveTokens h flows.1 flows.2) hs

lemma forM_removeTokens_paid (h : net.WellFormed) {consumed left : Marking}
    (hc : net.Covers consumed) (hl : left + consumed = net.marking) :
    (consumed.entries.forM fun e => removeTokens e.1 e.2) net = .ok () (net.restore left) := by
  have hrun := (forM_removeTokens_restore (u := ()) (m := net.marking) h hc.entries).2
    ⟨left, (Marking.ofList_entries consumed).symm ▸ hl, rfl⟩
  rwa [restore_marking h] at hrun

lemma fire_forbidden (h : net.WellFormed) {consumed produced left : Marking}
    (hf : net.flow trans b = .ok (consumed, produced)) (hl : left + consumed = net.marking)
    {e : Error} (hs : fire trans b net = .error e net') :
    ∃ p ∈ net.places, ∃ v ∈ (produced.tokens p.name).toList,
      p.type.accepts v = false ∧ e = .token (.forbidden p.name v) := by
  obtain ⟨hc, hp⟩ := covers_flow h hf
  have hlook : look (fun net => net.flow trans b) net = .ok (consumed, produced) net :=
    look_eq_ok_iff.2 ⟨hf, rfl⟩
  rw [fire, bind_of_ok _ hlook] at hs
  change withRollback (moveTokens consumed produced) net = _ at hs
  obtain ⟨net₁, hmove⟩ := withRollback_fails hs
  rw [moveTokens, bind_of_ok _ (forM_removeTokens_paid h hc hl)] at hmove
  obtain ⟨d, hd, p, hpm, hn, v, hv, hrefused⟩ := forM_addTokens_error h hp.entries hmove
  rw [← Marking.tokens_of_get? (Marking.get?_of_mem hd), ← hn] at hv
  exact ⟨p, hpm, v, hv, hrefused⟩

lemma keeps_fire (trans : String) (b : Binding) : Keeps WellFormed (fire trans b) := by
  refine keeps_look_bind fun net flows h _ => ?_
  exact keeps_withRollback fun _ h => keeps_moveTokens h flows.1 flows.2

end Net

end ColouredPetri
