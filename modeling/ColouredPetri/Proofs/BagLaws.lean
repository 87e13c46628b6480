import ColouredPetri.Proofs.Bags.InPlace
import Mathlib.Data.List.Perm.Subperm
import Mathlib.Order.Basic

namespace ColouredPetri

namespace Bag

variable {a b c : Bag} {v : Value} {values : List Value} {n : Nat}

instance : PartialOrder Bag where
  le a b := ∀ v, a.count v ≤ b.count v
  le_refl a v := le_refl _
  le_trans a b c hab hbc v := (hab v).trans (hbc v)
  le_antisymm a b hab hba := ext_count fun v => le_antisymm (hab v) (hba v)

lemma isSubset_iff_le : a.isSubset b = true ↔ a ≤ b := isSubset_iff

lemma eq_iff_count : a = b ↔ ∀ v, a.count v = b.count v :=
  ⟨fun h v => by rw [h], ext_count⟩

lemma mem_pairs_iff {e : Value × Nat} : e ∈ a.pairs ↔ a.count e.1 = e.2 ∧ 0 < e.2 := by
  constructor
  · intro he
    refine ⟨?_, a.positive e he⟩
    rw [count, Table.get?_eq_some_iff.2 (show (e.1, e.2) ∈ a.counts.entries from he)]
    rfl
  · rintro ⟨hcount, hpos⟩
    refine Table.get?_eq_some_iff.1 (?_ : a.counts.get? e.1 = some e.2)
    cases hv : a.counts.get? e.1 with
    | none => simp [count, hv] at hcount; omega
    | some m => simpa [count, hv] using hcount

lemma mem_distinct_iff : v ∈ a.distinct ↔ 0 < a.count v := by
  constructor
  · intro hv
    obtain ⟨e, he, rfl⟩ := List.mem_map.1 hv
    have := mem_pairs_iff.1 he
    omega
  · intro hv
    exact List.mem_map.2 ⟨(v, a.count v), mem_pairs_iff.2 ⟨rfl, hv⟩, rfl⟩

lemma isStrictSubset_iff_lt : a.isStrictSubset b = true ↔ a < b := by
  rw [isStrictSubset, Bool.and_eq_true, isSubset_iff_le, Bool.or_eq_true, List.any_eq_true,
    decide_eq_true_eq, lt_iff_le_and_ne (a := a)]
  refine and_congr_right fun hle => ⟨?_, fun hne => ?_⟩
  · rintro h rfl
    rcases h with ⟨e, he, hless⟩ | hsize
    · have := mem_pairs_iff.1 he
      simp only [decide_eq_true_eq] at hless
      omega
    · omega
  · obtain ⟨v, hv⟩ : ∃ v, a.count v < b.count v := by
      by_contra hall
      push Not at hall
      exact hne (le_antisymm hle hall)
    by_cases hstored : 0 < a.count v
    · exact .inl ⟨(v, a.count v), mem_pairs_iff.2 ⟨rfl, hstored⟩, by simpa using hv⟩
    · have hnodup : (v :: a.distinct).Nodup :=
        List.nodup_cons.2 ⟨fun h => hstored (mem_distinct_iff.1 h), Table.nodup_keys a.counts⟩
      have hsub : v :: a.distinct ⊆ b.distinct := by
        refine List.cons_subset.2 ⟨mem_distinct_iff.2 (by omega), fun w hw => ?_⟩
        exact mem_distinct_iff.2 ((mem_distinct_iff.1 hw).trans_le (hle w))
      have hlength := (List.subperm_of_subset hnodup hsub).length_le
      rw [List.length_cons, distinct, Table.keys, List.length_map, distinct, Table.keys,
        List.length_map] at hlength
      exact .inr hlength

section Listing

lemma length_toList (a : Bag) : a.toList.length = a.size := by
  rw [toList, size]
  induction a.pairs with
  | nil => rfl
  | cons e l ih => simp [ih]

lemma toList_sum_perm (a b : Bag) : (a + b).toList.Perm (a.toList ++ b.toList) :=
  List.perm_iff_count.2 fun v => by simp [List.count_append]

lemma size_sum (a b : Bag) : (a + b).size = a.size + b.size := by
  rw [← length_toList, (toList_sum_perm a b).length_eq, List.length_append, length_toList,
    length_toList]

lemma toList_ascending (a : Bag) : a.toList.Pairwise fun v w => (compare v w).isLE := by
  refine List.pairwise_flatMap.2 ⟨fun e _ => ?_, a.counts.ascending.imp fun {d e} h v hv w hw => ?_⟩
  · exact List.pairwise_replicate.2 (.inr (by simp))
  · rw [List.eq_of_mem_replicate hv, List.eq_of_mem_replicate hw, h]
    rfl

end Listing

section Removal

lemma exists_sub_iff : (∃ c, a.sub b = .ok c) ↔ b ≤ a :=
  isSubset_iff_sub.symm.trans isSubset_iff_le

lemma error_of_sub {e : TokenError} (h : a.sub b = .error e) :
    ∃ v, e = .insufficient v (b.count v) (a.count v) ∧ a.count v < b.count v ∧
      ∀ w, a.count w < b.count w → (compare v w).isLE := by
  rw [sub] at h
  cases hfind : b.pairs.find? fun e => a.count e.1 < e.2 with
  | none =>
    rw [hfind] at h
    cases h
  | some d =>
    rw [hfind] at h
    cases h
    obtain ⟨hshort, before, behind, hsplit, hbefore⟩ := List.find?_eq_some_iff_append.1 hfind
    have hd : b.count d.1 = d.2 := (mem_pairs_iff.1 (List.mem_of_find?_eq_some hfind)).1
    simp only [decide_eq_true_eq] at hshort
    refine ⟨d.1, by rw [hd], by omega, fun w hw => ?_⟩
    have hmem : (w, b.count w) ∈ b.pairs := mem_pairs_iff.2 ⟨rfl, by omega⟩
    have hascending := b.counts.ascending
    rw [show b.counts.entries = before ++ d :: behind from hsplit] at hascending
    rw [hsplit] at hmem
    rcases List.mem_append.1 hmem with hmem | hmem
    · have := hbefore _ hmem
      simp only [Bool.not_eq_true', decide_eq_false_iff_not] at this
      exact absurd hw this
    · rcases List.mem_cons.1 hmem with rfl | hmem
      · simp
      · have := (List.pairwise_cons.1 (List.pairwise_append.1 hascending).2.1).1 _ hmem
        rw [this]
        rfl

lemma count_wanted (values : List Value) (n : Nat) (v : Value) :
    (empty.addAll values n).count v = n * values.count v := by
  rw [count_addAll, count_empty, Nat.zero_add]

/-- What comes of removing `n` of each listed value. Every value loses that many for each time it is
listed; otherwise the least one that is short is reported, and the table stays as it is. -/
structure Removal (a : Bag) (values : List Value) (n : Nat) : Prop where
  succeeds_iff : (∃ c, a.remove values n = .ok c) ↔ ∀ v, n * values.count v ≤ a.count v
  rest : ∀ c, a.remove values n = .ok c → ∀ v, c.count v = a.count v - n * values.count v
  short : ∀ e, a.remove values n = .error e →
    ∃ v, e = .insufficient v (n * values.count v) (a.count v) ∧ a.count v < n * values.count v ∧
      ∀ w, a.count w < n * values.count w → (compare v w).isLE
  kept : ∀ e, a.remove values n = .error e →
    (Operation.remove values n).inPlace a.counts = .error e a.counts

lemma removal (a : Bag) (values : List Value) (n : Nat) : a.Removal values n where
  succeeds_iff := by
    rw [remove, exists_sub_iff]
    exact forall_congr' fun v => by rw [count_wanted]
  rest c hc v := by
    have := congrArg (fun d => d.count v) (sub_eq_ok_iff.1 hc)
    simp only [count_sum, count_wanted] at this
    omega
  short e he := by simpa only [count_wanted] using error_of_sub he
  kept e he := by
    rw [Operation.inPlace, takeOut_wanted, he]
    rfl

end Removal

/-- In a table that is changed in place no operation leaves a zero, and its bag is determined by the
counts of its values. Inclusion means counts that are not greater, and the strict one that the bags
differ too. Taking out succeeds on included bags only, is the inverse of adding, and changes nothing
when it fails. Multiples are cut off at the greatest count. -/
theorem counted_exactly (ops : List Operation) (a b : Bag) (values : List Value) (n : Nat) :
    (Operation.tableAfter ops = (Operation.bagAfter ops).counts ∧
      ∀ e ∈ (Operation.tableAfter ops).entries, 1 ≤ e.2) ∧
    (a = b ↔ ∀ v, a.count v = b.count v) ∧
    (a.isSubset b = true ↔ ∀ v, a.count v ≤ b.count v) ∧
    (a = b ↔ a.isSubset b = true ∧ b.isSubset a = true) ∧
    (a.isStrictSubset b = true ↔ a.isSubset b = true ∧ a ≠ b) ∧
    ((∃ c, a.sub b = .ok c) ↔ b.isSubset a = true) ∧
    (∀ c, a.sub b = .ok c ↔ c + b = a) ∧ (a + b).sub b = .ok a ∧
    a.size = a.toList.length ∧ (a + b).size = a.size + b.size ∧
    (a.toList.Pairwise fun v w => (compare v w).isLE) ∧ (∀ v, a.toList.count v = a.count v) ∧
    a.Removal values n ∧
    ∀ v, (a.scale n).count v = min (a.count v * n) maxCount := by
  refine ⟨⟨Operation.tableAfter_eq ops, ?_⟩, eq_iff_count, isSubset_iff, ?_, ?_,
    isSubset_iff_sub.symm, fun c => sub_eq_ok_iff, sub_eq_ok_iff.2 rfl,
    (length_toList a).symm, size_sum a b, toList_ascending a, count_toList a, removal a values n,
    count_scale a n⟩
  · rw [Operation.tableAfter_eq]
    exact (Operation.bagAfter ops).positive
  · rw [isSubset_iff_le, isSubset_iff_le]
    exact le_antisymm_iff
  · rw [isStrictSubset_iff_lt, isSubset_iff_le]
    exact lt_iff_le_and_ne

def worn : List Operation :=
  [.fill [.int 2, .int 1, .int 2], .add [.int 7] 0, .remove [.int 1, .int 3] 1, .remove [.int 1] 1,
    .times 3]

theorem counted_exactly_worn :
    (Operation.tableAfter worn).entries = [(.int 2, 6)] ∧
      (∀ e ∈ (Operation.tableAfter worn).entries, 1 ≤ e.2) ∧
      (Operation.remove [.int 2, .int 0, .int 2] 4).inPlace (Operation.bagAfter worn).counts =
        .error (.insufficient (.int 0) 4 0) (Operation.bagAfter worn).counts := by
  have hfails : (Operation.bagAfter worn).remove [.int 2, .int 0, .int 2] 4 =
      .error (.insufficient (.int 0) 4 0) := by decide
  obtain ⟨⟨-, hpositive⟩, -, -, -, -, -, -, -, -, -, -, -, hremoval, -⟩ :=
    counted_exactly worn (Operation.bagAfter worn) Bag.empty [.int 2, .int 0, .int 2] 4
  exact ⟨by decide, hpositive, hremoval.kept _ hfails⟩

end Bag

end ColouredPetri
