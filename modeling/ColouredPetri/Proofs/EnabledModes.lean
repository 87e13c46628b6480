import ColouredPetri.Proofs.Arcs.Search
import ColouredPetri.Proofs.Nets.Built
import ColouredPetri.Proofs.Nets.Enabling

namespace ColouredPetri

namespace Net

variable {net : Net} {b : Binding} {t : Transition} {trans : String}

def Found (net : Net) (b : Binding) (e : String × Arc) : Prop :=
  ∃ p found, net.place? e.1 = some p ∧ e.2.modes net.globals p.tokens = .ok found ∧
    ∃ g ∈ found, b.Extends g

lemma found_of_inputModes {l : List (String × Arc)} {parts : List (List Binding)}
    (h : net.inputModes l = .ok (some parts)) (hb : ∀ part ∈ parts, ∃ g ∈ part, b.Extends g) :
    ∀ e ∈ l, net.Found b e := by
  induction l generalizing parts with
  | nil => exact nofun
  | cons e l ih =>
    rw [inputModes, except_bind_eq_ok] at h
    obtain ⟨p, hp, h⟩ := h
    split at h
    · split at h <;> cases h
    · next found hfound =>
      obtain ⟨rest, hrest, h⟩ := except_bind_eq_ok.1 h
      cases rest with
      | none => cases h
      | some rest =>
        cases h
        obtain ⟨hg, hb⟩ := List.forall_mem_cons.1 hb
        exact List.forall_mem_cons.2
          ⟨⟨p, found, place_eq_ok_iff.1 hp, hfound, hg⟩, ih hrest hb⟩

lemma mem_modesOf {modes : List Binding} (h : net.modesOf t = .ok modes) (hb : b ∈ modes) :
    net.check t b false false = .ok true ∧ ∀ e ∈ t.inputs, net.Found b e := by
  rw [modesOf, except_bind_eq_ok] at h
  obtain ⟨parts, hparts, h⟩ := h
  cases parts with
  | none =>
    cases h
    cases hb
  | some parts =>
    obtain ⟨hmem, hcheck⟩ := mem_keepModes h b hb
    exact ⟨hcheck, found_of_inputModes hparts (Binding.combine_extends hmem)⟩

lemma Found.available {e : String × Arc} (h : net.Found b e) :
    net.available b e.1 e.2 = .ok true := by
  obtain ⟨p, found, hp, hfound, g, hg, hext⟩ := h
  obtain ⟨f, hsub, hf⟩ := Arc.flow_of_modes hfound g hg
  exact available_eq_true_iff.2 ⟨p, f, hp, hf b hext, hsub⟩

lemma Found.typesRespected (hw : net.WellFormed) {e : String × Arc} (h : net.Found b e)
    (hp : e.2.patternTuples = true) : net.typesRespected b e.1 e.2 = .ok true := by
  obtain ⟨p, found, hplace, hfound, g, hg, hext⟩ := h
  obtain ⟨vs, hvs, hmem⟩ := Arc.tokens_of_modes hp hfound g hg b hext
  exact typesRespected_eq_true_iff.2 ⟨p, vs, hplace, hvs, fun v hv =>
    hw.typed p (hw.keyed.mem_of_place? hplace).1 v (hmem v hv)⟩

/-- A mode is enabled exactly if the places accept what their input arcs read, which they do if all
tuples on input arcs have patterns as parts; an enabled mode has a flow. -/
theorem mode_enabled (h : net.Built) {modes : List Binding} (hm : net.modes trans = .ok modes)
    (hb : b ∈ modes) : ∃ t, net.transition? trans = some t ∧
      (net.enabled trans b = .ok true ↔ ∀ e ∈ t.inputs, ∃ p values, net.place? e.1 = some p ∧
        e.2.tokens (net.scope b) = .ok values ∧ ∀ v ∈ values, p.type.accepts v = true) ∧
      ((∀ e ∈ t.inputs, e.2.patternTuples = true) → net.enabled trans b = .ok true) ∧
      (net.enabled trans b = .ok true → ∃ flows, net.flow trans b = .ok flows) := by
  have hw := h.wellFormed
  rw [Net.modes, except_bind_eq_ok] at hm
  obtain ⟨t, ht, hm⟩ := hm
  have ht := transition_eq_ok_iff.1 ht
  obtain ⟨hcheck, hfound⟩ := mem_modesOf hm hb
  obtain ⟨hguard, -, -, hout⟩ := check_eq_true_iff.1 hcheck
  have henabled : net.enabled trans b = .ok true ↔
      ∀ e ∈ t.inputs, net.typesRespected b e.1 e.2 = .ok true := by
    rw [enabled_eq_true_iff]
    constructor
    · rintro ⟨u, hu, he⟩
      cases ht.symm.trans hu
      exact (check_eq_true_iff.1 he).2.2.1 rfl
    · intro hin
      exact ⟨t, ht, check_eq_true_iff.2
        ⟨hguard, fun _ e he => (hfound e he).available, fun _ => hin, hout⟩⟩
  refine ⟨t, ht, ?_, fun hp => henabled.2 fun e he => (hfound e he).typesRespected hw (hp e he),
    fun he => ?_⟩
  · simp only [henabled, typesRespected_eq_true_iff]
  · obtain ⟨u, hu, he⟩ := enabled_eq_true_iff.1 he
    obtain ⟨_, _, _, -, hf, -⟩ := flowOf_of_enabledBy hw (hw.keyed.mem_of_transition? hu).1 he
    exact ⟨_, flow_eq_ok_iff.2 ⟨u, hu, hf⟩⟩

def pairing : Net :=
  .ofNodes "pairing"
    [⟨"p", Bag.ofList [.tuple [.int 1, .int 2]], .kind .tuple, [], ["t"]⟩]
    [⟨"t", .truth, [("p", .multi [.tuple [.var "x", .test (.var "y")], .test (.var "z")])], []⟩]
    Table.empty

theorem mode_enabled_pairing : ∃ b, pairing.modes "t" = .ok [b] ∧
    pairing.enabled "t" b = .ok true := by
  refine ⟨_, rfl, ?_⟩
  obtain ⟨t, ht, -, hs, -⟩ := mode_enabled (.described (d := .ofNet pairing) rfl)
    (show pairing.modes "t" = .ok _ from rfl) List.mem_cons_self
  cases ht
  exact hs (by decide)

def unpacking : Net :=
  .ofNodes "unpacking"
    [⟨"p", Bag.ofList [.tuple [.int 1]], .oneOf (KeySet.ofList [.tuple [.int 1]]), [], ["t"]⟩]
    [⟨"t", .truth, [("p", .tuple [.flush (.var "x")])], []⟩] Table.empty

/-- The variable stands for a bag, and the place does not accept the tuple of it. -/
theorem mode_not_enabled : unpacking.Built ∧
    unpacking.modes "t" = .ok [Binding.single "x" (.bag [(.int 1, 1)])] ∧
    unpacking.enabled "t" (Binding.single "x" (.bag [(.int 1, 1)])) = .ok false ∧
    unpacking.flow "t" (Binding.single "x" (.bag [(.int 1, 1)])) =
      .error (.firing (.notEnabled "t" (Binding.single "x" (.bag [(.int 1, 1)])))) :=
  ⟨.described (d := .ofNet unpacking) rfl, rfl, rfl, rfl⟩

end Net

end ColouredPetri
