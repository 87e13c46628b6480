import ColouredPetri.Proofs.BagLaws
import ColouredPetri.Proofs.Descriptions.Decoding
import ColouredPetri.Proofs.SearchTrees
import ColouredPetri.Proofs.StateGraph.Collections
import ColouredPetri.Proofs.TextOrder

namespace ColouredPetri

structure LinearComparison {α : Type} (cmp : α → α → Ordering) : Prop where
  total (a b : α) : (cmp a b).isLE ∨ (cmp b a).isLE
  antisymm (a b : α) : (cmp a b).isLE → (cmp b a).isLE → a = b
  trans (a b c : α) : (cmp a b).isLE → (cmp b c).isLE → (cmp a c).isLE
  swap (a b : α) : cmp b a = (cmp a b).swap
  eq_iff (a b : α) : cmp a b = .eq ↔ a = b

lemma linearComparison {α : Type} [Ord α] [Std.TransOrd α] [Std.LawfulEqOrd α] :
    LinearComparison (compare : α → α → Ordering) where
  total a b := by
    rw [Std.OrientedOrd.eq_swap (a := b)]
    cases compare a b <;> simp
  antisymm a b hab hba := by
    refine Table.compare_eq_iff.1 ?_
    rw [Std.OrientedOrd.eq_swap (a := b)] at hba
    revert hab hba
    cases compare a b <;> simp
  trans a b c := Std.TransCmp.isLE_trans
  swap a b := Std.OrientedOrd.eq_swap
  eq_iff a b := Table.compare_eq_iff

def CompareOp.holds : CompareOp → Ordering → Bool
  | eq => Ordering.isEq
  | ne => Ordering.isNe
  | lt => Ordering.isLT
  | le => Ordering.isLE
  | gt => Ordering.isGT
  | ge => Ordering.isGE

namespace Value

lemma orderItems_eq_compareLex (l m : List Value) :
    orderItems l m = List.compareLex compare l m := by
  induction l generalizing m with
  | nil => cases m <;> rfl
  | cons a l ih =>
    cases m with
    | nil => rfl
    | cons b m =>
      rw [orderItems, List.compareLex_cons_cons, ih]
      rfl

lemma orderCounts_eq_compareLex (l m : List (Value × Nat)) :
    orderCounts l m = List.compareLex Table.entryOrder l m := by
  induction l generalizing m with
  | nil => cases m <;> rfl
  | cons d l ih =>
    cases m with
    | nil => rfl
    | cons e m =>
      rw [orderCounts, List.compareLex_cons_cons, ih]
      rfl

lemma kinds_ascending : [Kind.dot, .bool, .int, .str, .tuple, .bag].Pairwise fun k l =>
    ∀ a b : Value, a.kind = k → b.kind = l → compare a b = .lt := by
  have hranks : [Kind.dot, .bool, .int, .str, .tuple, .bag].Pairwise
      fun k l => k.rank < l.rank := by decide
  refine hranks.imp fun {k l} hrank a b ha hb => order_of_rank_lt ?_
  rwa [ha, hb]

lemma compare_int (m n : Int64) : compare (int m) (int n) = compare m.toInt n.toInt :=
  Text.compareOfLessAndEq_map Int64.lt_iff_toInt_lt Int64.toInt_inj.symm

lemma isEq_compare (a b : Value) : (compare a b).isEq = decide (a = b) := by
  rw [Bool.eq_iff_iff, decide_eq_true_iff, Ordering.isEq_iff_eq_eq, Table.compare_eq_iff]

lemma ordered_eq (a b : Value) (holds : Ordering → Bool) : ordered a b holds =
    if a.kind = b.kind then .ok (bool (holds (compare a b)))
    else .error (.unordered a.kind b.kind) := rfl

lemma compareBy_eq (op : CompareOp) (a b : Value) : compareBy op a b =
    if op = .eq ∨ op = .ne ∨ a.kind = b.kind then .ok (bool (op.holds (compare a b)))
    else .error (.unordered a.kind b.kind) := by
  cases op with
  | eq => simp [compareBy, CompareOp.holds, isEq_compare]
  | ne => simp [compareBy, CompareOp.holds, isEq_compare]
  | _ => simp [compareBy, CompareOp.holds, ordered_eq]

lemma exists_bag_of_proper {l : List (Value × Nat)} (h : (bag l).Proper) :
    ∃ a : Bag, a.toValue = bag l :=
  ⟨⟨⟨l, h.1⟩, fun e he => (properCounts_iff.1 h.2 e he).2.1⟩, rfl⟩

lemma compare_toValue_iff (a b : Bag) :
    compare a.toValue b.toValue = .eq ↔ ∀ v, a.count v = b.count v := by
  rw [← Bag.eq_iff_count]
  exact Table.compare_eq_iff (κ := Bag)

/-- Values are in a linear order. Kinds come first; numbers are in order by size, texts byte by byte,
tuples entry by entry, and bags as the ascending lists of their values with counts, which are equal
for bags with equal counts only. Expressions compare by this order. A table whose keys are values, or
firings with values in their modes, finds every key it holds on the one path that the order shows. -/
theorem linearly_ordered :
    LinearComparison (compare : Value → Value → Ordering) ∧
    ([Kind.dot, .bool, .int, .str, .tuple, .bag].Pairwise fun k l =>
      ∀ a b : Value, a.kind = k → b.kind = l → compare a b = .lt) ∧
    (compare (bool false) (bool true) = .lt ∧
      (∀ m n, compare (int m) (int n) = compare m.toInt n.toInt) ∧
      ∀ s t, compare (str s) (str t) = List.compareLex compare (Text.bytes s) (Text.bytes t)) ∧
    (∀ l m, compare (tuple l) (tuple m) = List.compareLex compare l m) ∧
    (∀ l m, compare (bag l) (bag m) = List.compareLex Table.entryOrder l m) ∧
    (∀ a : Bag, (a.pairs.Pairwise fun d e => compare d.1 e.1 = .lt) ∧
      ∀ e, e ∈ a.pairs ↔ a.count e.1 = e.2 ∧ 0 < e.2) ∧
    (∀ l, (bag l).Proper → ∃ a : Bag, a.toValue = bag l) ∧
    (∀ a b : Bag, compare a.toValue b.toValue = .eq ↔ ∀ v, a.count v = b.count v) ∧
    (∀ op a b, compareBy op a b =
      if op = .eq ∨ op = .ne ∨ a.kind = b.kind then .ok (bool (op.holds (compare a b)))
      else .error (.unordered a.kind b.kind)) ∧
    (∀ (β : Type) (s : Table Value β), s.Searchable) ∧
    (∀ (a : Bag) v, a.contains v = true ↔ v ∈ a.distinct) ∧
    (∀ (values : KeySet Value) v,
      TokenType.accepts v (.oneOf values) = true ↔ v ∈ values.keys) ∧
    LinearComparison (compare : Firing → Firing → Ordering) ∧
    (∀ (β : Type) (s : Table Firing β), s.Searchable) ∧
    ∀ (n : Neighbours) s f, (s, f) ∈ n.toList ↔
      ∃ labels, n.get? s = some labels ∧ labels.contains f = true := by
  refine ⟨linearComparison, kinds_ascending, ⟨rfl, compare_int, Text.compare_eq_bytes⟩,
    orderItems_eq_compareLex, orderCounts_eq_compareLex,
    fun a => ⟨a.counts.ascending, fun _ => Bag.mem_pairs_iff⟩, fun _ => exists_bag_of_proper,
    compare_toValue_iff, compareBy_eq, fun _ => Table.searchable, fun _ _ => Table.contains_iff,
    fun values v => ?_, linearComparison, fun _ => Table.searchable, fun n s f => ?_⟩
  · rw [TokenType.accepts, Table.contains_iff]
  · rw [Neighbours.mem_toList]
    simp only [Table.contains_iff]

def crate : Bag := Bag.ofList [tuple [bag [(int 7, 2)]], int 3, tuple [bag [(int 7, 2)]]]

def crateTree : SearchTree Value Nat :=
  .branch (.branch .leaf (int 3) 1 .leaf) (tuple [bag [(int 7, 2)]]) 2 .leaf

theorem linearly_ordered_nested :
    compare (tuple [bag [(int 7, 2)]]) (tuple [bag [(int 7, 3)]]) = .lt ∧
      compare (tuple [bag [(int 7, 3)]]) (bag []) = .lt ∧
      crateTree.search (tuple [bag [(int 7, 2)]]) = some 2 ∧
      crateTree.search (tuple [bag [(int 7, 3)]]) = none := by
  obtain ⟨-, hkinds, -, htuples, hbags, -, -, -, -, hsearch, -⟩ := linearly_ordered
  have hserves : crateTree.Serves crate.counts :=
    (hsearch Nat crate.counts).served crateTree (by decide)
  refine ⟨?_, ?_, (hserves.found _ 2).2 (by decide), ?_⟩
  · rw [htuples, List.compareLex_cons_cons, hbags]
    decide
  · exact List.pairwise_iff_getElem.1 hkinds 4 5 (by decide) (by decide) (by decide) _ _ rfl rfl
  · rw [hserves.looked_up]
    decide

end Value

end ColouredPetri
