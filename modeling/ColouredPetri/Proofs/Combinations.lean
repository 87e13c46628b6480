import Mathlib.Data.List.Perm.Basic
import ColouredPetri.Proofs.Unions

/-! Combinations of bindings. They are the unions of the choices whose members agree, in the order of
the choices, so that the order of the lists decides about their order alone, and lists that stand side
by side can be combined beforehand. -/

namespace ColouredPetri

namespace Binding

variable {a f g h : Binding} {l m : List Binding} {parts parts' : List (List Binding)}

def IsUnionOf (a : Binding) (l : List Binding) : Prop :=
  ∀ n v, a.get? n = some v ↔ ∃ b ∈ l, b.get? n = some v

def Agree (l : List Binding) : Prop := ∀ b ∈ l, ∀ c ∈ l, Compatible b c

lemma IsUnionOf.agree (ha : a.IsUnionOf l) : Agree l := fun b hb c hc n v w hv hw =>
  Option.some.inj (((ha n v).2 ⟨b, hb, hv⟩).symm.trans ((ha n w).2 ⟨c, hc, hw⟩))

lemma isUnionOf_congr
    (h : ∀ n v, (∃ b ∈ l, b.get? n = some v) ↔ ∃ b ∈ m, b.get? n = some v) :
    a.IsUnionOf l ↔ a.IsUnionOf m :=
  forall₂_congr fun n v => iff_congr Iff.rfl (h n v)

lemma isUnionOf_cons (hh : h.IsUnion f g) :
    a.IsUnionOf (h :: l) ↔ a.IsUnionOf (f :: g :: l) := by
  refine isUnionOf_congr fun n v => ?_
  simp only [List.exists_mem_cons_iff, hh n v, or_assoc]

lemma isUnionOf_empty_cons : a.IsUnionOf (Table.empty :: l) ↔ a.IsUnionOf l := by
  refine isUnionOf_congr fun n v => ?_
  rw [List.exists_mem_cons_iff]
  exact or_iff_right nofun

lemma exists_isUnionOf (hl : Agree l) : ∃ a : Binding, a.IsUnionOf l := by
  induction l with
  | nil => exact ⟨Table.empty, fun n v => by simp⟩
  | cons b l ih =>
    obtain ⟨a, ha⟩ := ih fun c hc d hd => hl c (.tail _ hc) d (.tail _ hd)
    have hcompatible : Compatible b a := fun n v w hv hw => by
      obtain ⟨c, hc, hw⟩ := (ha n w).1 hw
      exact hl b (.head _) c (.tail _ hc) n v w hv hw
    obtain ⟨u, hu⟩ := union?_of_compatible hcompatible
    refine ⟨u, fun n v => ?_⟩
    rw [union?_eq_some_iff.1 hu n v, ha n v, List.exists_mem_cons_iff]

lemma mergeAll_eq_some_iff : (mergeAll f l).toOption = some a ↔ a.IsUnionOf (f :: l) := by
  induction l generalizing f with
  | nil =>
    have hself : f.IsUnionOf [f] := fun n v => by simp
    refine ⟨fun h => Option.some.inj h ▸ hself, fun h => congrArg some ?_⟩
    exact Table.ext_get? fun n => Option.ext fun v => (hself n v).trans (h n v).symm
  | cons g l ih =>
    have hstep : (mergeAll f (g :: l)).toOption =
        (f.union? g).bind fun h => (mergeAll h l).toOption := by
      rw [mergeAll, List.foldlM_cons, union?]
      cases f.merge g <;> rfl
    rw [hstep, Option.bind_eq_some_iff]
    constructor
    · rintro ⟨h, hh, ha⟩
      exact (isUnionOf_cons (union?_eq_some_iff.1 hh)).1 (ih.1 ha)
    · intro ha
      obtain ⟨h, hh⟩ := union?_of_compatible (ha.agree f (.head _) g (.tail _ (.head _)))
      exact ⟨h, hh, ih.2 ((isUnionOf_cons (union?_eq_some_iff.1 hh)).2 ha)⟩

section Choices

variable {α β : Type}

def IsChoice (parts : List (List α)) (c : List (α × Nat)) : Prop :=
  List.Forall₂ (fun e part => part[e.2]? = some e.1) c parts

def placedChoices (parts : List (List α)) : List (List (α × Nat)) :=
  choices (parts.map fun part => part.zipIdx)

lemma choices_map (p : α → β) (parts : List (List α)) :
    choices (parts.map (List.map p)) = (choices parts).map (List.map p) := by
  induction parts with
  | nil => rfl
  | cons part parts ih =>
    simp only [List.map_cons, choices, ih, List.flatMap_map, List.map_flatMap, List.map_map]
    rfl

lemma members_placedChoices (parts : List (List α)) :
    (placedChoices parts).map (List.map Prod.fst) = choices parts := by
  rw [placedChoices, ← choices_map, List.map_map]
  congr 1
  exact List.map_id'' (fun part => List.zipIdx_map_fst 0 part) parts

lemma mem_placedChoices {parts : List (List α)} {c : List (α × Nat)} :
    c ∈ placedChoices parts ↔ IsChoice parts c := by
  rw [placedChoices, mem_choices, List.forall₂_map_right_iff, IsChoice]
  simp only [List.mem_zipIdx_iff_getElem?]

lemma placedChoices_ascending (parts : List (List α)) :
    (placedChoices parts).Pairwise fun c d => c.map Prod.snd < d.map Prod.snd := by
  have hparts : ∀ part : List α, part.zipIdx.Pairwise fun d e => d.2 < e.2 := fun part => by
    have hpositions := List.pairwise_lt_range' (s := 0) (n := part.length)
    rwa [← List.zipIdx_map_snd, List.pairwise_map] at hpositions
  induction parts with
  | nil => exact List.pairwise_singleton _ _
  | cons part parts ih =>
    refine List.pairwise_flatMap.2 ⟨fun e _ => ?_, (hparts part).imp fun hde => ?_⟩
    · exact List.pairwise_map.2 (ih.imp fun hcd => List.cons_lt_cons_iff.2 (.inr ⟨rfl, hcd⟩))
    · simp only [List.mem_map]
      rintro _ ⟨c, -, rfl⟩ _ ⟨d, -, rfl⟩
      exact List.cons_lt_cons_iff.2 (.inl hde)

end Choices

lemma forall₂_filterMap {α β : Type} (p : α → Option β) (l : List α) :
    List.Forall₂ (fun c u => p c = some u) (l.filter fun c => (p c).isSome) (l.filterMap p) := by
  induction l with
  | nil => exact .nil
  | cons c l ih =>
    rw [List.filter_cons, List.filterMap_cons]
    cases hp : p c with
    | none => exact ih
    | some u => exact .cons hp ih

structure Combined (parts : List (List Binding)) (picks : List (List (Binding × Nat)))
    (unions : List Binding) : Prop where
  ascending : picks.Pairwise fun c d => c.map Prod.snd < d.map Prod.snd
  mem : ∀ c, c ∈ picks ↔ IsChoice parts c ∧ Agree (c.map Prod.fst)
  unions : List.Forall₂ (fun c u => u.IsUnionOf (c.map Prod.fst)) picks unions

lemma exists_combined (parts : List (List Binding)) : ∃ picks, Combined parts picks (combine parts) := by
  let united := fun c : List (Binding × Nat) => (mergeAll Table.empty (c.map Prod.fst)).toOption
  have hunited : ∀ {c u}, united c = some u ↔ u.IsUnionOf (c.map Prod.fst) := fun {c u} =>
    mergeAll_eq_some_iff.trans isUnionOf_empty_cons
  have hcombine : combine parts = (placedChoices parts).filterMap united := by
    rw [combine_eq, ← members_placedChoices, List.filterMap_map]
    rfl
  refine ⟨(placedChoices parts).filter fun c => (united c).isSome,
    (placedChoices_ascending parts).filter _, fun c => ?_, ?_⟩
  · rw [List.mem_filter, mem_placedChoices, Option.isSome_iff_exists]
    refine and_congr_right fun _ => ⟨?_, fun hc => ?_⟩
    · rintro ⟨u, hu⟩
      exact (hunited.1 hu).agree
    · obtain ⟨u, hu⟩ := exists_isUnionOf hc
      exact ⟨u, hunited.2 hu⟩
  · rw [hcombine]
    exact (forall₂_filterMap united _).imp fun c u hu => hunited.1 hu

section Order

lemma union?_right_comm : (f.union? g).bind (·.union? h) = (f.union? h).bind (·.union? g) := by
  rw [union?_assoc, union?_assoc, union?_comm (b := g)]

lemma flatMap_swap {α β γ : Type} (l : List α) (m : List β) (p : α → β → List γ) :
    (l.flatMap fun x => m.flatMap (p x)).Perm (m.flatMap fun y => l.flatMap (p · y)) := by
  induction l with
  | nil => simp
  | cons x l ih => exact (ih.append_left _).trans (List.flatMap_append_perm m (p x) _)

lemma combineOnto_cons_cons {p q : List Binding} : combineOnto f (p :: q :: parts) =
    p.flatMap fun g => q.flatMap fun h =>
      ((f.union? g).bind (·.union? h)).toList.flatMap (combineOnto · parts) := by
  rw [combineOnto_cons]
  congr 1
  funext g
  cases f.union? g <;> simp [combineOnto_cons]

lemma combineOnto_perm (hparts : parts.Perm parts') :
    (combineOnto f parts).Perm (combineOnto f parts') := by
  induction hparts generalizing f with
  | nil => exact .refl _
  | cons part _ ih =>
    rw [combineOnto_cons, combineOnto_cons]
    exact .flatMap_left _ fun g _ => .flatMap_left _ fun h _ => ih
  | swap p q parts =>
    rw [combineOnto_cons_cons, combineOnto_cons_cons]
    refine (flatMap_swap q p _).trans ?_
    simp only [union?_right_comm (f := f)]
    exact .refl _
  | trans _ _ ih ih' => exact ih.trans ih'

lemma combine_combine (parts rest : List (List Binding)) :
    combine [combine parts, combine rest] = combine (parts ++ rest) := by
  have hlast : ∀ f, combineOnto f [combine rest] = combineOnto f rest := fun f => by
    rw [combineOnto_combine, List.append_nil]
  calc combine [combine parts, combine rest]
      = combine (parts ++ [combine rest]) := combineOnto_combine
    _ = (combine parts).flatMap (combineOnto · rest) := by
      rw [combine_append]
      simp only [hlast]
    _ = combine (parts ++ rest) := combine_append.symm

end Order

theorem combine_unions (parts : List (List Binding)) :
    (∃ picks, Combined parts picks (combine parts)) ∧
      (∀ parts', parts'.Perm parts → (combine parts').Perm (combine parts)) ∧
      ∀ rest, combine (parts ++ rest) = combine [combine parts, combine rest] :=
  ⟨exists_combined parts, fun _ => combineOnto_perm, fun rest => (combine_combine parts rest).symm⟩

def twoValues : List Binding := [single "x" (.int 1), single "x" (.int 2)]

def twoNames : List Binding := [single "x" (.int 2), single "y" (.int 3)]

theorem combine_unions_swapped :
    [twoNames, twoValues].Perm [twoValues, twoNames] ∧
      (combine [twoNames, twoValues]).Perm (combine [twoValues, twoNames]) ∧
      combine [twoValues, twoNames] =
        [(single "x" (.int 1)).insert "y" (.int 3), single "x" (.int 2),
          (single "x" (.int 2)).insert "y" (.int 3)] ∧
      combine [twoNames, twoValues] =
        [single "x" (.int 2), (single "x" (.int 1)).insert "y" (.int 3),
          (single "x" (.int 2)).insert "y" (.int 3)] :=
  ⟨.swap _ _ _, (combine_unions [twoValues, twoNames]).2.1 _ (.swap _ _ _), by decide, by decide⟩

end Binding

end ColouredPetri
