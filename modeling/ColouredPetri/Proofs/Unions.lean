import ColouredPetri.Proofs.Variables.Bindings

/-! Unions of bindings. The union of two bindings is determined by their entries, so that partial
union is associative, and some of the lists of a combination can be combined beforehand. -/

namespace ColouredPetri

namespace Binding

variable {a b c d f g h : Binding}

def IsUnion (a b c : Binding) : Prop :=
  ∀ n v, a.get? n = some v ↔ b.get? n = some v ∨ c.get? n = some v

def union? (b c : Binding) : Option Binding := (b.merge c).toOption

lemma IsUnion.compatible (h : a.IsUnion b c) : Compatible b c := fun n v w hv hw =>
  Option.some.inj (((h n v).2 (.inl hv)).symm.trans ((h n w).2 (.inr hw)))

lemma IsUnion.eq (h : a.IsUnion b c) (h' : d.IsUnion b c) : a = d :=
  Table.ext_get? fun n => Option.ext fun v => (h n v).trans (h' n v).symm

lemma union?_eq_some_iff : b.union? c = some a ↔ a.IsUnion b c := by
  rw [union?]
  constructor
  · intro h
    cases hm : b.merge c with
    | error e =>
      rw [hm] at h
      cases h
    | ok d =>
      rw [hm] at h
      cases h
      obtain ⟨a', ha', hunion⟩ := merge_of_compatible (compatible_of_merge hm)
      rw [hm] at ha'
      cases ha'
      exact hunion
  · intro h
    obtain ⟨d, hd, hunion⟩ := merge_of_compatible h.compatible
    rw [hd, h.eq hunion]
    rfl

lemma union?_of_compatible (h : Compatible b c) : ∃ a, b.union? c = some a := by
  obtain ⟨a, ha, -⟩ := merge_of_compatible h
  exact ⟨a, by rw [union?, ha]; rfl⟩

lemma empty_union? : union? Table.empty b = some b :=
  union?_eq_some_iff.2 fun _ _ => ⟨.inr, fun h => h.elim nofun id⟩

lemma bind_union?_eq_some_iff : (f.union? g).bind (·.union? h) = some a ↔
    ∀ n v, a.get? n = some v ↔ f.get? n = some v ∨ g.get? n = some v ∨ h.get? n = some v := by
  rw [Option.bind_eq_some_iff]
  constructor
  · rintro ⟨b, hb, ha⟩ n v
    rw [union?_eq_some_iff.1 ha n v, union?_eq_some_iff.1 hb n v, or_assoc]
  · intro ha
    have hcompatible : Compatible f g := fun n v w hv hw => Option.some.inj
      (((ha n v).2 (.inl hv)).symm.trans ((ha n w).2 (.inr (.inl hw))))
    obtain ⟨b, hb⟩ := union?_of_compatible hcompatible
    refine ⟨b, hb, union?_eq_some_iff.2 fun n v => ?_⟩
    rw [ha, union?_eq_some_iff.1 hb n v, or_assoc]

lemma union?_comm : b.union? c = c.union? b :=
  Option.ext fun a => by
    rw [union?_eq_some_iff, union?_eq_some_iff]
    exact forall_congr' fun n => forall_congr' fun v => iff_congr Iff.rfl or_comm

lemma union?_assoc : (f.union? g).bind (·.union? h) = (g.union? h).bind (f.union? ·) := by
  have hcomm : (fun b => f.union? b) = fun b => b.union? f := funext fun b => union?_comm
  rw [hcomm]
  refine Option.ext fun a => bind_union?_eq_some_iff.trans (Iff.trans ?_ bind_union?_eq_some_iff.symm)
  exact forall_congr' fun n => forall_congr' fun v =>
    iff_congr Iff.rfl (or_comm.trans or_assoc)

section Combine

variable {part : List Binding} {parts rest : List (List Binding)}

lemma combineOnto_cons : combineOnto f (part :: parts) =
    part.flatMap fun g => (f.union? g).toList.flatMap (combineOnto · parts) := by
  rw [combineOnto]
  congr 1
  funext g
  rw [union?]
  cases f.merge g <;> simp [Except.toOption]

lemma combineOnto_append : combineOnto f (parts ++ rest) =
    (combineOnto f parts).flatMap (combineOnto · rest) := by
  induction parts generalizing f with
  | nil => simp [combineOnto]
  | cons part parts ih =>
    rw [List.cons_append, combineOnto_cons, combineOnto_cons, List.flatMap_assoc]
    congr 1
    funext g
    cases f.union? g <;> simp [ih]

lemma combine_append : combine (parts ++ rest) = (combine parts).flatMap (combineOnto · rest) :=
  combineOnto_append

lemma flatMap_union?_combineOnto : (combineOnto g parts).flatMap (fun h => (f.union? h).toList) =
    (f.union? g).toList.flatMap (combineOnto · parts) := by
  induction parts generalizing g with
  | nil => cases h : f.union? g <;> simp [combineOnto, h]
  | cons part parts ih =>
    have hone : ∀ e, (g.union? e).toList.flatMap (fun k =>
        (combineOnto k parts).flatMap fun h => (f.union? h).toList) =
          ((f.union? g).bind (·.union? e)).toList.flatMap (combineOnto · parts) := fun e => by
      rw [union?_assoc]
      cases g.union? e with
      | none => rfl
      | some k => simp [ih]
    simp only [combineOnto_cons, List.flatMap_assoc, hone]
    cases f.union? g <;> simp

lemma combineOnto_combine : combineOnto f (combine parts :: rest) = combineOnto f (parts ++ rest) := by
  rw [combineOnto_append, combineOnto_cons, combine]
  have hparts : combineOnto f parts =
      (combineOnto Table.empty parts).flatMap fun h => (f.union? h).toList := by
    rw [flatMap_union?_combineOnto, union?_comm, empty_union?]
    simp
  rw [hparts, List.flatMap_assoc]

lemma extends_of_union? (h : f.union? g = some a) : a.Extends g :=
  fun n v hv => (union?_eq_some_iff.1 h n v).2 (.inr hv)

/-- Combinations that are left out beforehand make no difference to a filter that none of their
extensions passes. -/
lemma filter_combine {p q : Binding → Bool}
    (hpq : ∀ g ∈ combine parts, p g = false → ∀ h, h.Extends g → q h = false)
    (pre : List (List Binding)) :
    (combine (pre ++ (combine parts).filter p :: rest)).filter q =
      (combine (pre ++ (parts ++ rest))).filter q := by
  rw [combine_append, combine_append, List.filter_flatMap, List.filter_flatMap]
  congr 1
  funext f
  rw [← combineOnto_combine, combineOnto_cons, combineOnto_cons, List.filter_flatMap,
    List.filter_flatMap]
  generalize combine parts = l at hpq
  induction l with
  | nil => rfl
  | cons g l ih =>
    obtain ⟨hg, hl⟩ := List.forall_mem_cons.1 hpq
    rw [List.filter_cons, List.flatMap_cons, ← ih hl]
    cases hp : p g with
    | true => rfl
    | false =>
      have hnone : ((f.union? g).toList.flatMap (combineOnto · rest)).filter q = [] := by
        refine List.filter_eq_nil_iff.2 fun h hh => ?_
        obtain ⟨k, hk, hh⟩ := List.mem_flatMap.1 hh
        have hext := (combineOnto_extends hh).1.trans (extends_of_union? (Option.mem_toList.1 hk))
        simp [hg hp h hext]
      rw [hnone, List.nil_append]
      rfl

end Combine

end Binding

end ColouredPetri
