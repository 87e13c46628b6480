import ColouredPetri.Proofs.Arcs.Tokens
import ColouredPetri.Proofs.Nets.Firing

namespace ColouredPetri

namespace Net

variable {net : Net} {b : Binding} {t : Transition} {trans : String}

lemma allArcs_eq_true_iff {test : String → Arc → Except Error Bool} {l : List (String × Arc)} :
    allArcs test l = .ok true ↔ ∀ e ∈ l, test e.1 e.2 = .ok true := by
  induction l with
  | nil => exact iff_of_true rfl nofun
  | cons e l ih =>
    rw [allArcs, except_bind_eq_ok, List.forall_mem_cons, ← ih]
    constructor
    · rintro ⟨r, hr, h⟩
      cases r with
      | true => exact ⟨hr, h⟩
      | false => cases h
    · rintro ⟨hr, h⟩
      exact ⟨true, hr, h⟩

lemma available_eq_true_iff {place : String} {arc : Arc} :
    net.available b place arc = .ok true ↔ ∃ p f, net.place? place = some p ∧
      arc.flow (net.scope b) = .ok f ∧ f.isSubset p.tokens = true := by
  rw [available, except_bind_eq_ok]
  simp only [except_bind_eq_ok, place_eq_ok_iff, except_pure, Except.ok.injEq]
  exact ⟨fun ⟨p, hp, f, h⟩ => ⟨p, f, hp, h⟩, fun ⟨p, f, hp, h⟩ => ⟨p, hp, f, h⟩⟩

lemma isOk_check_iff {p : Place} {values : List Value} :
    (p.check values).isOk = true ↔ ∀ v ∈ values, p.type.accepts v = true := by
  rw [← check_eq_ok_iff (u := ())]
  cases p.check values with
  | error e => exact ⟨fun h => (by cases h), fun h => by cases h⟩
  | ok u => exact iff_of_true rfl rfl

lemma typesRespected_eq_true_iff {place : String} {arc : Arc} :
    net.typesRespected b place arc = .ok true ↔ ∃ p vs, net.place? place = some p ∧
      arc.tokens (net.scope b) = .ok vs ∧ ∀ v ∈ vs, p.type.accepts v = true := by
  rw [typesRespected, except_bind_eq_ok]
  simp only [except_bind_eq_ok, place_eq_ok_iff, except_pure, Except.ok.injEq, isOk_check_iff]
  exact ⟨fun ⟨p, hp, vs, h⟩ => ⟨p, vs, hp, h⟩, fun ⟨p, vs, hp, h⟩ => ⟨p, hp, vs, h⟩⟩

lemma branch_eq_true_iff {x y : Except Error Bool} :
    (x >>= fun r => if r = false then .ok false else y) = .ok true ↔
      x = .ok true ∧ y = .ok true := by
  rw [except_bind_eq_ok]
  constructor
  · rintro ⟨r, hr, h⟩
    cases r with
    | true => exact ⟨hr, h⟩
    | false => cases h
  · rintro ⟨hx, hy⟩
    exact ⟨true, hx, hy⟩

lemma check_eq_true_iff {tokens input : Bool} : net.check t b tokens input = .ok true ↔
    t.guard.holds (net.scope b) = .ok true ∧
      (tokens = true → ∀ e ∈ t.inputs, net.available b e.1 e.2 = .ok true) ∧
      (input = true → ∀ e ∈ t.inputs, net.typesRespected b e.1 e.2 = .ok true) ∧
      ∀ e ∈ t.outputs, net.typesRespected b e.1 e.2 = .ok true := by
  simp only [← allArcs_eq_true_iff]
  have hguard : (liftM (t.guard.holds (net.scope b)) : Except Error Bool) = .ok true ↔
      t.guard.holds (net.scope b) = .ok true := by
    rw [lift_eval, mapError_eq_ok_iff]
  cases tokens <;> cases input <;>
    simp [check, branch_eq_true_iff, hguard]

lemma enabled_eq_true_iff : net.enabled trans b = .ok true ↔
    ∃ t, net.transition? trans = some t ∧ net.enabledBy t b = .ok true := by
  rw [enabled, except_bind_eq_ok]
  simp only [transition_eq_ok_iff]

lemma arcFlows_exists {l : List (String × Arc)}
    (h : ∀ e ∈ l, ∃ f, e.2.flow (net.scope b) = .ok f) : ∃ fs, net.arcFlows b l = .ok fs := by
  induction l with
  | nil => exact ⟨[], rfl⟩
  | cons e l ih =>
    obtain ⟨⟨f, hf⟩, h⟩ := List.forall_mem_cons.1 h
    obtain ⟨fs, hfs⟩ := ih h
    exact ⟨(e.1, f) :: fs, by rw [arcFlows, hf, hfs]; rfl⟩

lemma consumed_le (h : net.WellFormed) (ht : t ∈ net.transitions) {fs : List (String × Bag)}
    (hfs : net.arcFlows b t.inputs = .ok fs)
    (ha : ∀ e ∈ t.inputs, net.available b e.1 e.2 = .ok true) (name : String) :
    ((Marking.ofList fs).tokens name).isSubset (net.marking.tokens name) = true := by
  by_cases hn : name ∈ t.keys .input
  · obtain ⟨e, he, rfl⟩ := List.mem_map.1 hn
    obtain ⟨f, hf, htok⟩ := tokens_arcFlows (h.keys_nodup t ht .input) hfs he
    obtain ⟨p, f', hp, hf', hsub⟩ := available_eq_true_iff.1 (ha e he)
    obtain ⟨hp, hpe⟩ := h.keyed.mem_of_place? hp
    rw [htok, ← hpe, tokens_marking h hp, Except.ok.inj (hf.symm.trans hf')]
    exact hsub
  · rw [tokens_arcFlows_of_notMem hfs hn]
    rfl

lemma flowOf_of_enabledBy (h : net.WellFormed) (ht : t ∈ net.transitions)
    (he : net.enabledBy t b = .ok true) : ∃ consumed produced left,
      net.arcFlows b t.outputs = .ok produced ∧
      net.flowOf t b = .ok (consumed, Marking.ofList produced) ∧ left + consumed = net.marking := by
  obtain ⟨-, hin, -, hout⟩ := check_eq_true_iff.1 he
  have hin := hin rfl
  obtain ⟨consumed, hc⟩ : ∃ fs, net.arcFlows b t.inputs = .ok fs :=
    arcFlows_exists fun e he => by
      obtain ⟨-, f, -, hf, -⟩ := available_eq_true_iff.1 (hin e he)
      exact ⟨f, hf⟩
  obtain ⟨produced, hp⟩ : ∃ fs, net.arcFlows b t.outputs = .ok fs :=
    arcFlows_exists fun e he => by
      obtain ⟨-, vs, -, hvs, -⟩ := typesRespected_eq_true_iff.1 (hout e he)
      exact Arc.flow_of_tokens hvs
  obtain ⟨left, hl⟩ := Marking.exists_add_iff.2 (consumed_le h ht hc hin)
  exact ⟨_, produced, left, hp, flowOf_eq_ok_iff.2 ⟨he, consumed, produced, hc, hp, rfl⟩, hl⟩

end Net

end ColouredPetri
