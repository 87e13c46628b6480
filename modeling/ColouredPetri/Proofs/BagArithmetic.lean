import ColouredPetri.Bag
import ColouredPetri.Proofs.TableSums

namespace ColouredPetri

namespace Bag

lemma total_pairs (a : Bag) (v : Value) : Table.total v a.pairs = a.count v :=
  Table.total_entries a.counts v

@[simp] lemma count_empty (v : Value) : empty.count v = 0 := rfl

lemma count_foldl_add (l : List (Value × Nat)) (a : Bag) (v : Value) :
    (l.foldl (fun acc e => acc.add e.1 e.2) a).count v = a.count v + Table.total v l := by
  induction l generalizing a with
  | nil => rfl
  | cons e l ih => rw [List.foldl_cons, ih, count_add, Table.total_cons, Nat.add_assoc]

@[simp] lemma count_sum (a b : Bag) (v : Value) : (a + b).count v = a.count v + b.count v := by
  change (b.pairs.foldl (fun acc e => acc.add e.1 e.2) a).count v = _
  rw [count_foldl_add, total_pairs]

lemma count_addAll (a : Bag) (l : List Value) (n : Nat) (v : Value) :
    (a.addAll l n).count v = a.count v + n * l.count v := by
  induction l generalizing a with
  | nil => rfl
  | cons w l ih =>
    change ((a.add w n).addAll l n).count v = _
    rw [ih, count_add, List.count_cons]
    by_cases h : v = w
    · simp [h, Nat.mul_add]
      omega
    · simp [h, Ne.symm h]

@[simp] lemma count_ofList (l : List Value) (v : Value) : (ofList l).count v = l.count v := by
  rw [ofList, count_addAll, count_empty, Nat.zero_add, Nat.one_mul]

lemma count_flatMap_replicate (l : List (Value × Nat)) (v : Value) :
    (l.flatMap fun e => List.replicate e.2 e.1).count v = Table.total v l := by
  induction l with
  | nil => rfl
  | cons e l ih =>
    rw [List.flatMap_cons, List.count_append, ih, Table.total_cons, List.count_replicate]
    by_cases h : v = e.1
    · simp [h]
    · simp [h, Ne.symm h]

@[simp] lemma count_toList (a : Bag) (v : Value) : a.toList.count v = a.count v := by
  rw [toList, count_flatMap_replicate, total_pairs]

@[simp] lemma ofList_toList (a : Bag) : ofList a.toList = a :=
  ext_count fun v => by rw [count_ofList, count_toList]

lemma mem_toList {a : Bag} {v : Value} : v ∈ a.toList ↔ 0 < a.count v := by
  rw [← count_toList, List.count_pos_iff]

lemma contains_iff {a : Bag} {v : Value} : a.contains v = true ↔ v ∈ a.toList := by
  rw [mem_toList]
  constructor
  · intro h
    refine Nat.pos_of_ne_zero fun hz => ?_
    rw [contains, Table.contains, get?_eq_none_of_count hz] at h
    cases h
  · intro h
    rw [contains, Table.contains]
    cases hv : a.counts.get? v with
    | none => simp [count, hv] at h
    | some n => rfl

lemma mem_toList_sum {a b : Bag} {v : Value} :
    v ∈ (a + b).toList ↔ v ∈ a.toList ∨ v ∈ b.toList := by
  simp only [mem_toList, count_sum]
  omega

lemma mem_toList_ofList {l : List Value} {v : Value} : v ∈ (ofList l).toList ↔ v ∈ l := by
  rw [mem_toList, count_ofList, List.count_pos_iff]

lemma toList_ofList_singleton (v : Value) : (ofList [v]).toList = [v] := by
  simp [ofList, addAll, add, setCount, count, empty, Table.insert, Table.empty, Table.get?,
    Table.find, Table.put, toList, pairs]

instance : Zero Bag := ⟨empty⟩

instance : AddCancelCommMonoid Bag where
  add_assoc a b c := ext_count fun v => by simp only [count_sum, Nat.add_assoc]
  zero_add a := ext_count fun v => (count_sum empty a v).trans (Nat.zero_add _)
  add_zero a := ext_count fun v => (count_sum a empty v).trans (Nat.add_zero _)
  nsmul := nsmulRec
  add_comm a b := ext_count fun v => by simp only [count_sum, Nat.add_comm]
  add_left_cancel a b c h := ext_count fun v => by
    have := congrArg (fun d => d.count v) h
    simpa using this

lemma sum_eq_empty {a b : Bag} : a + b = empty ↔ a = empty ∧ b = empty := by
  constructor
  · intro h
    have hv : ∀ v, a.count v + b.count v = 0 := fun v => by
      rw [← count_sum, h, count_empty]
    exact ⟨ext_count fun v => by have := hv v; simp; omega,
      ext_count fun v => by have := hv v; simp; omega⟩
  · rintro ⟨rfl, rfl⟩
    rfl

@[simp] lemma isEmpty_iff {a : Bag} : a.isEmpty = true ↔ a = empty := by
  constructor
  · intro h
    refine ext_count fun v => ?_
    have : a.counts.entries = [] := List.isEmpty_iff.1 h
    rw [← total_pairs, pairs, this]
    rfl
  · rintro rfl
    rfl

lemma isSubset_iff {a b : Bag} : a.isSubset b = true ↔ ∀ v, a.count v ≤ b.count v := by
  simp only [isSubset, List.all_eq_true, decide_eq_true_eq]
  constructor
  · intro h v
    cases hv : a.counts.get? v with
    | none => simp [count, hv]
    | some n =>
      have := h (v, n) (Table.get?_eq_some_iff.1 hv)
      simpa [count, hv] using this
  · intro h e he
    have : a.count e.1 = e.2 := by
      rw [count, Table.get?_eq_some_iff.2 (show (e.1, e.2) ∈ a.counts.entries from he)]
      rfl
    exact this ▸ h e.1

def lessPairs (a : Bag) (l : List (Value × Nat)) : Bag :=
  l.foldl (fun acc e => acc.setCount e.1 (acc.count e.1 - e.2)) a

lemma count_lessPairs (a : Bag) (l : List (Value × Nat)) (v : Value) :
    (a.lessPairs l).count v = a.count v - Table.total v l := by
  induction l generalizing a with
  | nil => rfl
  | cons e l ih =>
    change ((a.setCount e.1 (a.count e.1 - e.2)).lessPairs l).count v = _
    rw [ih, count_setCount, Table.total_cons]
    by_cases h : v = e.1
    · rw [if_pos h, if_pos h, h]
      omega
    · rw [if_neg h, if_neg h]
      omega

lemma sub_of_isSubset {a b : Bag} (h : b.isSubset a = true) :
    a.sub b = .ok (a.lessPairs b.pairs) := by
  have : b.pairs.find? (fun e => a.count e.1 < e.2) = none := by
    rw [List.find?_eq_none]
    intro e he
    have := List.all_eq_true.1 h e he
    simp only [decide_eq_true_eq] at this ⊢
    omega
  rw [sub, this]
  rfl

lemma isSubset_of_sub {a b c : Bag} (h : a.sub b = .ok c) : b.isSubset a = true := by
  rw [sub] at h
  split at h
  · cases h
  · next hn =>
    rw [List.find?_eq_none] at hn
    refine List.all_eq_true.2 fun e he => ?_
    have := hn e he
    simp only [decide_eq_true_eq] at this ⊢
    omega

lemma sub_eq_ok_iff {a b c : Bag} : a.sub b = .ok c ↔ c + b = a := by
  constructor
  · intro h
    have hs := isSubset_of_sub h
    rw [sub_of_isSubset hs] at h
    cases h
    refine ext_count fun v => ?_
    have := isSubset_iff.1 hs v
    rw [count_sum, count_lessPairs, total_pairs]
    omega
  · rintro rfl
    have hs : b.isSubset (c + b) = true := isSubset_iff.2 fun v => by simp
    rw [sub_of_isSubset hs]
    congr 1
    refine ext_count fun v => ?_
    rw [count_lessPairs, total_pairs, count_sum, Nat.add_sub_cancel]

lemma isSubset_iff_sub {a b : Bag} : b.isSubset a = true ↔ ∃ c, a.sub b = .ok c :=
  ⟨fun h => ⟨_, sub_of_isSubset h⟩, fun ⟨_, h⟩ => isSubset_of_sub h⟩

lemma remove_toList (a b : Bag) : a.remove b.toList 1 = a.sub b := by
  rw [remove]
  congr 1
  exact ofList_toList b

lemma addAll_toList (a b : Bag) : a.addAll b.toList 1 = a + b :=
  ext_count fun v => by rw [count_addAll, count_sum, count_toList, Nat.one_mul]

end Bag

end ColouredPetri
