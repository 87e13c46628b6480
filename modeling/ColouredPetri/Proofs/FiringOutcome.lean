import ColouredPetri.Proofs.Nets.Built
import ColouredPetri.Proofs.Nets.Enabling

namespace ColouredPetri

namespace Net

theorem fire_outcome {net : Net} (h : net.Built) (trans : String) (b : Binding) :
    match fire trans b net with
    | .ok _ net' => ∃ consumed produced left, net.flow trans b = .ok (consumed, produced) ∧
        net.marking.sub consumed = .ok left ∧ net'.marking = left + produced ∧
        net' = net.restore (left + produced)
    | .error _ net' => net' = net := by
  have hw := h.wellFormed
  cases hs : fire trans b net with
  | ok u net' =>
    obtain ⟨consumed, produced, left, hf, hl, -, rfl⟩ := (fire_eq_ok_iff hw).1 hs
    have hcovers : net.Covers (left + produced) :=
      (Covers.of_add (n := consumed) (hl ▸ covers_marking)).add (covers_flow hw hf).2
    exact ⟨consumed, produced, left, hf, Marking.sub_eq_ok_iff.2 hl, marking_restore hw hcovers,
      rfl⟩
  | error e net' => exact fire_error hw hs

def refill : Net :=
  .ofNodes "refill"
    [⟨"p", Bag.ofList [.int 1, .int 2], .any, ["t"], ["t"]⟩,
      ⟨"q", Bag.empty, .kind .int, ["t"], []⟩]
    [⟨"t", .truth, [("p", .var "x")], [("p", .value (.int 2)), ("q", .var "x")]⟩] Table.empty

lemma refill_built : refill.Built :=
  .described (d := .ofNet refill) rfl

theorem fire_outcome_refill : refill.Built ∧ ∃ consumed produced left net',
    refill.flow "t" (Binding.single "x" (.int 1)) = .ok (consumed, produced) ∧
    refill.marking.sub consumed = .ok left ∧
    fire "t" (Binding.single "x" (.int 1)) refill = .ok () net' ∧
    net'.marking = left + produced ∧
    net'.marking = Marking.ofList [("p", Bag.ofList [.int 2, .int 2]), ("q", Bag.ofList [.int 1])] := by
  obtain ⟨consumed, produced, left, hf, hl, hm, -⟩ :=
    fire_outcome refill_built "t" (Binding.single "x" (.int 1))
  exact ⟨refill_built, consumed, produced, left, _, hf, hl, rfl, hm, rfl⟩

/-- An enabled binding fires exactly if the places accept the produced tokens, which they do if all
tuples on output arcs have scalar parts. Otherwise a token is refused and the net stays. -/
theorem enabled_fire {net : Net} (h : net.Built) {trans : String} {b : Binding}
    (he : net.enabled trans b = .ok true) :
    ∃ t consumed produced, net.transition? trans = some t ∧
      net.flow trans b = .ok (consumed, produced) ∧
      ((∃ net', fire trans b net = .ok () net') ↔ net.Accepts produced) ∧
      ((∀ e ∈ t.outputs, e.2.scalarTuples = true) → ∃ net', fire trans b net = .ok () net') ∧
      ∀ err net', fire trans b net = .error err net' → net' = net ∧
        ∃ p ∈ net.places, ∃ v ∈ (produced.tokens p.name).toList,
          p.type.accepts v = false ∧ err = .token (.forbidden p.name v) := by
  have hw := h.wellFormed
  obtain ⟨t, ht, he⟩ := enabled_eq_true_iff.1 he
  have htm := (hw.keyed.mem_of_transition? ht).1
  obtain ⟨consumed, produced, left, hp, hf, hl⟩ := flowOf_of_enabledBy hw htm he
  have hf := flow_eq_ok_iff.2 ⟨t, ht, hf⟩
  have hfire : (∃ net', fire trans b net = .ok () net') ↔ net.Accepts (Marking.ofList produced) := by
    simp only [fire_eq_ok_iff hw, hf]
    constructor
    · rintro ⟨_, _, _, _, hpair, -, ha, -⟩
      cases hpair
      exact ha
    · exact fun ha => ⟨_, _, _, _, rfl, hl, ha, rfl⟩
  refine ⟨t, consumed, _, ht, hf, hfire, fun hs => hfire.2 fun p hpm v hv => ?_,
    fun err net' hs => ⟨fire_error hw hs, fire_forbidden hw hf hl hs⟩⟩
  by_cases hk : p.name ∈ t.keys .output
  · obtain ⟨e, hem, hpe⟩ := List.mem_map.1 hk
    obtain ⟨f, hff, htok⟩ := tokens_arcFlows (hw.keys_nodup t htm .output) hp hem
    obtain ⟨q, vs, hq, hvs, haccept⟩ :=
      typesRespected_eq_true_iff.1 ((check_eq_true_iff.1 he).2.2.2 e hem)
    obtain ⟨hqm, hqe⟩ := hw.keyed.mem_of_place? hq
    obtain rfl := hw.place_eq hqm hpm (hqe.trans hpe)
    rw [← hpe, htok] at hv
    exact haccept v (Arc.mem_tokens_of_flow (hs e hem) hvs hff v hv)
  · rw [tokens_arcFlows_of_notMem hp hk] at hv
    cases hv

theorem enabled_fire_refill : refill.enabled "t" (Binding.single "x" (.int 1)) = .ok true ∧
    ∃ net', fire "t" (Binding.single "x" (.int 1)) refill = .ok () net' := by
  obtain ⟨t, -, -, ht, -, -, hs, -⟩ :=
    enabled_fire refill_built
      (show refill.enabled "t" (Binding.single "x" (.int 1)) = .ok true from rfl)
  cases ht
  exact ⟨rfl, hs (by decide)⟩

def packing : Net :=
  .ofNodes "packing"
    [⟨"q", Bag.empty, .oneOf (KeySet.ofList [.tuple [.tuple [.int 1]]]), ["t"], []⟩]
    [⟨"t", .truth, [], [("q", .tuple [.multi [.value (.int 1)]])]⟩] Table.empty

/-- The check asks for the tuple of a tuple and finds it allowed; the flow has the plain tuple,
which is refused. -/
theorem enabled_not_fired : packing.Built ∧ packing.enabled "t" Table.empty = .ok true ∧
    fire "t" Table.empty packing =
      .error (.token (.forbidden "q" (.tuple [.int 1]))) packing :=
  ⟨.described (d := .ofNet packing) rfl, rfl, rfl⟩

end Net

end ColouredPetri
