import ColouredPetri.Table
import Mathlib.Algebra.BigOperators.Group.List.Basic

namespace ColouredPetri

namespace Table

section Keys

variable {κ β : Type} [Ord κ]

lemma compare_eq_iff [Std.LawfulEqOrd κ] {k l : κ} : compare k l = .eq ↔ k = l :=
  ⟨Std.LawfulEqCmp.eq_of_compare, fun h => h ▸ Std.ReflCmp.compare_self⟩

lemma nodup_keys [Std.ReflOrd κ] (t : Table κ β) : (t.entries.map Prod.fst).Nodup := by
  rw [List.Nodup, List.pairwise_map]
  refine t.ascending.imp fun {d e} h hk => ?_
  have hs : compare d.1 e.1 = .eq := by
    rw [hk]
    exact Std.ReflCmp.compare_self
  rw [hs] at h
  cases h

end Keys

section Totals

variable {κ M : Type} [DecidableEq κ] [AddMonoid M]

def total (k : κ) (l : List (κ × M)) : M :=
  (l.map fun e => if k = e.1 then e.2 else 0).sum

@[simp] lemma total_nil (k : κ) : total k ([] : List (κ × M)) = 0 := rfl

@[simp] lemma total_cons (k : κ) (e : κ × M) (l : List (κ × M)) :
    total k (e :: l) = (if k = e.1 then e.2 else 0) + total k l := by
  simp [total]

lemma total_eq_zero {k : κ} {l : List (κ × M)} (h : ∀ e ∈ l, k ≠ e.1) : total k l = 0 := by
  induction l with
  | nil => rfl
  | cons e l ih =>
    rw [total_cons, if_neg (h e List.mem_cons_self), zero_add,
      ih fun d hd => h d (List.mem_cons_of_mem _ hd)]

lemma total_of_mem {k : κ} {a : M} {l : List (κ × M)} (hl : (l.map Prod.fst).Nodup)
    (h : (k, a) ∈ l) : total k l = a := by
  induction l with
  | nil => cases h
  | cons e l ih =>
    rw [List.map_cons, List.nodup_cons] at hl
    rw [total_cons]
    rcases List.mem_cons.1 h with rfl | h
    · have hk : ∀ d ∈ l, k ≠ d.1 := fun d hd hk => hl.1 (List.mem_map.2 ⟨d, hd, hk.symm⟩)
      rw [if_pos rfl, total_eq_zero hk, add_zero]
    · have hk : k ≠ e.1 := fun hk => hl.1 (List.mem_map.2 ⟨_, h, hk⟩)
      rw [if_neg hk, zero_add, ih hl.2 h]

lemma total_filter (p : κ → Bool) (k : κ) (l : List (κ × M)) :
    total k (l.filter fun e => p e.1) = if p k then total k l else 0 := by
  induction l with
  | nil => simp
  | cons e l ih =>
    by_cases he : p e.1 = true
    · rw [List.filter_cons_of_pos (by simpa using he), total_cons, total_cons, ih]
      by_cases hk : k = e.1
      · simp [hk, he]
      · simp [hk]
    · rw [List.filter_cons_of_neg (by simpa using he), ih, total_cons]
      by_cases hk : k = e.1
      · simp [hk, he]
      · simp [hk]

lemma total_entries [Ord κ] [Std.TransOrd κ] [Std.LawfulEqOrd κ] (t : Table κ M) (k : κ) :
    total k t.entries = (t.get? k).getD 0 := by
  cases hk : t.get? k with
  | some a => exact total_of_mem (nodup_keys t) (get?_eq_some_iff.1 hk)
  | none =>
    refine total_eq_zero fun e he h => ?_
    rw [h, get?_eq_some_iff.2 (show (e.1, e.2) ∈ t.entries from he)] at hk
    cases hk

end Totals

end Table

end ColouredPetri
