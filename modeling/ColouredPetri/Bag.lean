import ColouredPetri.Error

/-!
Bags of values. A bag stores each of its values once, with a count that is never zero, so bags
with equal counts are equal (`Bag.ext_count`).
-/

namespace ColouredPetri

structure Bag where
  counts : Table Value Nat
  positive : ∀ e ∈ counts.entries, 0 < e.2

namespace Bag

instance : DecidableEq Bag := fun a b =>
  decidable_of_iff (a.counts = b.counts) (by cases a; cases b; simp)

def empty : Bag := ⟨Table.empty, by simp⟩

instance : EmptyCollection Bag := ⟨empty⟩
instance : Inhabited Bag := ⟨empty⟩

def count (a : Bag) (v : Value) : Nat := (a.counts.get? v).getD 0

def contains (a : Bag) (v : Value) : Bool := a.counts.contains v

def pairs (a : Bag) : List (Value × Nat) := a.counts.entries

def distinct (a : Bag) : List Value := a.counts.keys

def isEmpty (a : Bag) : Bool := a.counts.isEmpty

def size (a : Bag) : Nat := a.pairs.foldr (fun e n => e.2 + n) 0

def toList (a : Bag) : List Value := a.pairs.flatMap fun e => List.replicate e.2 e.1

def setCount (a : Bag) (v : Value) (n : Nat) : Bag :=
  if h : n = 0 then
    ⟨a.counts.erase v, fun e he => a.positive e (List.mem_filter.1 he).1⟩
  else
    ⟨a.counts.insert v n, fun e he => by
      rcases Table.mem_put he with rfl | he
      · exact Nat.pos_of_ne_zero h
      · exact a.positive e he⟩

def add (a : Bag) (v : Value) (n : Nat) : Bag := a.setCount v (a.count v + n)

def addAll (a : Bag) (values : List Value) (n : Nat) : Bag :=
  values.foldl (fun acc v => acc.add v n) a

def ofPairs (l : List (Value × Nat)) : Bag := l.foldl (fun acc e => acc.add e.1 e.2) empty

def ofList (values : List Value) : Bag := empty.addAll values 1

def sum (a b : Bag) : Bag := b.pairs.foldl (fun acc e => acc.add e.1 e.2) a

instance : Add Bag := ⟨sum⟩

/-- Takes one bag out of another. The least value that is short is reported. -/
def sub (a b : Bag) : Except TokenError Bag :=
  match b.pairs.find? fun e => a.count e.1 < e.2 with
  | some e => .error (.insufficient e.1 e.2 (a.count e.1))
  | none => .ok (b.pairs.foldl (fun acc e => acc.setCount e.1 (acc.count e.1 - e.2)) a)

def remove (a : Bag) (values : List Value) (n : Nat) : Except TokenError Bag :=
  a.sub (empty.addAll values n)

def maxCount : Nat := UInt64.size - 1

/-- The multiple of a bag, its counts cut off at `maxCount`. -/
def scale (a : Bag) (k : Nat) : Bag :=
  a.pairs.foldl (fun acc e => acc.add e.1 (min (e.2 * k) maxCount)) empty

def isSubset (a b : Bag) : Bool := a.pairs.all fun e => e.2 ≤ b.count e.1

def isStrictSubset (a b : Bag) : Bool :=
  a.isSubset b && ((a.pairs.any fun e => e.2 < b.count e.1) || a.counts.size < b.counts.size)

def inclusion (a b : Bag) : Option Ordering :=
  match a.isSubset b, b.isSubset a with
  | true, true => some .eq
  | true, false => some .lt
  | false, true => some .gt
  | false, false => none

def toValue (a : Bag) : Value := .bag a.pairs

def order (a b : Bag) : Ordering := compare a.toValue b.toValue

instance : Ord Bag := ⟨order⟩

instance : Std.TransOrd Bag :=
  inferInstanceAs (Std.TransCmp (compareOn toValue))

instance : Std.LawfulEqOrd Bag where
  compare_self {a} := @Std.ReflCmp.compare_self Value compare _ a.toValue
  eq_of_compare {a b} h := by
    have : a.toValue = b.toValue :=
      Std.LawfulEqCmp.eq_of_compare (show compare a.toValue b.toValue = .eq from h)
    obtain ⟨⟨l, _⟩, _⟩ := a
    obtain ⟨⟨m, _⟩, _⟩ := b
    cases this
    rfl

def text (a : Bag) : String := a.toValue.text

theorem count_setCount (a : Bag) (v w : Value) (n : Nat) :
    (a.setCount v n).count w = if w = v then n else a.count w := by
  have heq : (compare w v = .eq) = (w = v) :=
    propext ⟨Std.LawfulEqCmp.eq_of_compare, fun h => h ▸ Std.ReflCmp.compare_self⟩
  unfold setCount
  split
  · next hn =>
    simp only [count, Table.get?_erase, heq]
    split <;> simp [hn]
  · simp only [count, Table.get?_insert, heq]
    split <;> simp

theorem count_add (a : Bag) (v w : Value) (n : Nat) :
    (a.add v n).count w = a.count w + if w = v then n else 0 := by
  rw [add, count_setCount]
  split
  · next h => rw [h]
  · rfl

theorem get?_eq_none_of_count {a : Bag} {v : Value} (h : a.count v = 0) :
    a.counts.get? v = none := by
  rw [count] at h
  cases hv : a.counts.get? v with
  | none => rfl
  | some n =>
    have := a.positive _ (Table.get?_eq_some_iff.1 hv)
    rw [hv] at h
    exact absurd h (Nat.ne_of_gt this)

theorem ext_count {a b : Bag} (h : ∀ v, a.count v = b.count v) : a = b := by
  have : a.counts = b.counts := Table.ext_get? fun v => by
    have hv := h v
    by_cases hz : a.count v = 0
    · rw [get?_eq_none_of_count hz, get?_eq_none_of_count (hv ▸ hz)]
    · unfold count at hv hz
      cases ha : a.counts.get? v <;> cases hb : b.counts.get? v <;> simp_all
  cases a
  cases b
  cases this
  rfl

end Bag

end ColouredPetri
