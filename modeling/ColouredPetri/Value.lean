/-!
Token values and their linear order. Kinds come first, then booleans, integers, strings, tuples
entry by entry, and bags as the lists of their distinct values with counts.
-/

namespace ColouredPetri

/-- A token value. A bag lists its distinct values in ascending order, each with its count. -/
inductive Value where
  | dot
  | bool (b : Bool)
  | int (n : Int64)
  | str (s : String)
  | tuple (items : List Value)
  | bag (counts : List (Value × Nat))

instance : Inhabited Value := ⟨.dot⟩

inductive Kind where
  | dot
  | bool
  | int
  | str
  | tuple
  | bag
  deriving DecidableEq, Inhabited

namespace Kind

def all : List Kind := [dot, bool, int, str, tuple, bag]

def rank : Kind → Nat
  | dot => 0
  | bool => 1
  | int => 2
  | str => 3
  | tuple => 4
  | bag => 5

def word : Kind → String
  | dot => "dot"
  | bool => "bool"
  | int => "int"
  | str => "str"
  | tuple => "tuple"
  | bag => "multiset"

def tag : Kind → String
  | dot => "Dot"
  | bool => "Bool"
  | int => "Int"
  | str => "Str"
  | tuple => "Tuple"
  | bag => "Bag"

def ofTag? (s : String) : Option Kind := all.find? fun k => k.tag == s

end Kind

namespace Value

def kind : Value → Kind
  | dot => .dot
  | bool _ => .bool
  | int _ => .int
  | str _ => .str
  | tuple _ => .tuple
  | bag _ => .bag

mutual

def order : Value → Value → Ordering
  | dot, dot => .eq
  | bool a, bool b => compare a b
  | int a, int b => compare a b
  | str a, str b => compare a b
  | tuple a, tuple b => orderItems a b
  | bag a, bag b => orderCounts a b
  | a, b => compare a.kind.rank b.kind.rank

def orderItems : List Value → List Value → Ordering
  | [], [] => .eq
  | [], _ :: _ => .lt
  | _ :: _, [] => .gt
  | a :: l, b :: m => (order a b).then (orderItems l m)

def orderCounts : List (Value × Nat) → List (Value × Nat) → Ordering
  | [], [] => .eq
  | [], _ :: _ => .lt
  | _ :: _, [] => .gt
  | (a, i) :: l, (b, j) :: m => ((order a b).then (compare i j)).then (orderCounts l m)

end

instance : Ord Value := ⟨order⟩

theorem order_of_kind_ne {a b : Value} (h : a.kind ≠ b.kind) :
    order a b = compare a.kind.rank b.kind.rank := by
  cases a <;> cases b <;> simp_all [order, kind]

theorem rank_injective : ∀ {k l : Kind}, k.rank = l.rank → k = l := by
  intro k l
  cases k <;> cases l <;> simp [Kind.rank]

theorem kind_eq_of_order {a b : Value} (h : order a b = .eq) : a.kind = b.kind := by
  refine Decidable.byContradiction fun hk => hk ?_
  rw [order_of_kind_ne hk] at h
  exact rank_injective (Std.LawfulEqCmp.eq_of_compare h)

theorem rank_le_of_order {a b : Value} (h : (order a b).isLE) : a.kind.rank ≤ b.kind.rank := by
  by_cases hk : a.kind = b.kind
  · exact Nat.le_of_eq (congrArg Kind.rank hk)
  · rw [order_of_kind_ne hk] at h
    exact Nat.isLE_compare.1 h

theorem order_of_rank_lt {a b : Value} (h : a.kind.rank < b.kind.rank) : order a b = .lt := by
  rw [order_of_kind_ne fun hk => Nat.lt_irrefl _ (hk ▸ h)]
  exact Nat.compare_eq_lt.2 h

mutual

theorem order_swap : ∀ a b : Value, order a b = (order b a).swap
  | dot, b => by cases b <;> rfl
  | bool a, b => by
    cases b with
    | bool b => exact Std.OrientedOrd.eq_swap
    | _ => rfl
  | int a, b => by
    cases b with
    | int b => exact Std.OrientedOrd.eq_swap
    | _ => rfl
  | str a, b => by
    cases b with
    | str b => exact Std.OrientedOrd.eq_swap
    | _ => rfl
  | tuple a, b => by
    cases b with
    | tuple b => exact orderItems_swap a b
    | _ => rfl
  | bag a, b => by
    cases b with
    | bag b => exact orderCounts_swap a b
    | _ => rfl

theorem orderItems_swap : ∀ l m : List Value, orderItems l m = (orderItems m l).swap
  | [], [] => rfl
  | [], _ :: _ => rfl
  | _ :: _, [] => rfl
  | a :: l, b :: m => by
    rw [orderItems, orderItems, order_swap a b, orderItems_swap l m, Ordering.swap_then]

theorem orderCounts_swap : ∀ l m : List (Value × Nat), orderCounts l m = (orderCounts m l).swap
  | [], [] => rfl
  | [], _ :: _ => rfl
  | _ :: _, [] => rfl
  | (a, i) :: l, (b, j) :: m => by
    rw [orderCounts, orderCounts, order_swap a b, orderCounts_swap l m, Ordering.swap_then,
      Ordering.swap_then, Std.OrientedOrd.eq_swap (a := i) (b := j)]

end

mutual

theorem eq_of_order : ∀ {a b : Value}, order a b = .eq → a = b
  | dot, b, h => by
    cases b with
    | dot => rfl
    | _ => cases kind_eq_of_order h
  | bool a, b, h => by
    cases b with
    | bool b => exact congrArg bool (Std.LawfulEqCmp.eq_of_compare (show compare a b = .eq from h))
    | _ => cases kind_eq_of_order h
  | int a, b, h => by
    cases b with
    | int b => exact congrArg int (Std.LawfulEqCmp.eq_of_compare (show compare a b = .eq from h))
    | _ => cases kind_eq_of_order h
  | str a, b, h => by
    cases b with
    | str b => exact congrArg str (Std.LawfulEqCmp.eq_of_compare (show compare a b = .eq from h))
    | _ => cases kind_eq_of_order h
  | tuple a, b, h => by
    cases b with
    | tuple b => exact congrArg tuple (eq_of_orderItems h)
    | _ => cases kind_eq_of_order h
  | bag a, b, h => by
    cases b with
    | bag b => exact congrArg bag (eq_of_orderCounts h)
    | _ => cases kind_eq_of_order h

theorem eq_of_orderItems : ∀ {l m : List Value}, orderItems l m = .eq → l = m
  | [], [], _ => rfl
  | a :: l, b :: m, h => by
    rw [orderItems, Ordering.then_eq_eq] at h
    rw [eq_of_order h.1, eq_of_orderItems h.2]

theorem eq_of_orderCounts : ∀ {l m : List (Value × Nat)}, orderCounts l m = .eq → l = m
  | [], [], _ => rfl
  | (a, i) :: l, (b, j) :: m, h => by
    rw [orderCounts, Ordering.then_eq_eq, Ordering.then_eq_eq] at h
    rw [eq_of_order h.1.1, Std.LawfulEqCmp.eq_of_compare h.1.2, eq_of_orderCounts h.2]

end

mutual

theorem order_self : ∀ a : Value, order a a = .eq
  | dot => rfl
  | bool a => show compare a a = .eq from Std.ReflCmp.compare_self
  | int a => show compare a a = .eq from Std.ReflCmp.compare_self
  | str a => show compare a a = .eq from Std.ReflCmp.compare_self
  | tuple a => orderItems_self a
  | bag a => orderCounts_self a

theorem orderItems_self : ∀ l : List Value, orderItems l l = .eq
  | [] => rfl
  | a :: l => by rw [orderItems, order_self a, orderItems_self l]; rfl

theorem orderCounts_self : ∀ l : List (Value × Nat), orderCounts l l = .eq
  | [] => rfl
  | (a, i) :: l => by
    rw [orderCounts, order_self a, orderCounts_self l, show compare i i = .eq from
      Std.ReflCmp.compare_self]
    rfl

end

instance : DecidableEq Value := fun a b =>
  decidable_of_iff (order a b = .eq) ⟨eq_of_order, fun h => h ▸ order_self a⟩

theorem isLE_then_trans {o₁ o₂ o₃ p₁ p₂ p₃ : Ordering} (left : o₁ = .eq → o₃ = o₂)
    (right : o₂ = .eq → o₃ = o₁) (less : o₁ = .lt → o₂ = .lt → o₃ = .lt)
    (rest : p₁.isLE → p₂.isLE → p₃.isLE) (h₁ : (o₁.then p₁).isLE) (h₂ : (o₂.then p₂).isLE) :
    (o₃.then p₃).isLE := by
  cases o₁ <;> cases o₂ <;> simp_all

theorem lt_of_lt_of_lt {a b c : Value} (trans : (order a b).isLE → (order b c).isLE →
    (order a c).isLE) (hab : order a b = .lt) (hbc : order b c = .lt) : order a c = .lt := by
  have hac := trans (by simp [hab]) (by simp [hbc])
  rcases Ordering.isLE_iff_eq_lt_or_eq_eq.1 hac with h | h
  · exact h
  · cases eq_of_order h
    rw [order_swap, hab] at hbc
    cases hbc

mutual

theorem order_trans : ∀ {a b c : Value}, (order a b).isLE → (order b c).isLE → (order a c).isLE
  | a, b, c, hab, hbc => by
    by_cases hac : a.kind.rank < c.kind.rank
    · rw [order_of_rank_lt hac]
      rfl
    · have hb := rank_le_of_order hab
      have hc := rank_le_of_order hbc
      have hkb : a.kind = b.kind := rank_injective (by omega)
      have hkc : b.kind = c.kind := rank_injective (by omega)
      cases a <;> cases b <;> cases hkb <;> cases c <;> cases hkc
      · rfl
      · exact @Std.TransCmp.isLE_trans Bool compare _ _ _ _ hab hbc
      · exact @Std.TransCmp.isLE_trans Int64 compare _ _ _ _ hab hbc
      · exact @Std.TransCmp.isLE_trans String compare _ _ _ _ hab hbc
      · exact orderItems_trans hab hbc
      · exact orderCounts_trans hab hbc

theorem orderItems_trans : ∀ {l m n : List Value}, (orderItems l m).isLE →
    (orderItems m n).isLE → (orderItems l n).isLE
  | [], _, [], _, _ => rfl
  | [], _, _ :: _, _, _ => rfl
  | _ :: _, [], _, h, _ => by cases h
  | _ :: _, _ :: _, [], _, h => by cases h
  | a :: l, b :: m, c :: n, hlm, hmn =>
    isLE_then_trans (fun h => by rw [eq_of_order h]) (fun h => by rw [eq_of_order h])
      (lt_of_lt_of_lt order_trans) orderItems_trans hlm hmn

theorem orderCounts_trans : ∀ {l m n : List (Value × Nat)}, (orderCounts l m).isLE →
    (orderCounts m n).isLE → (orderCounts l n).isLE
  | [], _, [], _, _ => rfl
  | [], _, _ :: _, _, _ => rfl
  | _ :: _, [], _, h, _ => by cases h
  | _ :: _, _ :: _, [], _, h => by cases h
  | (a, i) :: l, (b, j) :: m, (c, k) :: n, hlm, hmn => by
    rw [orderCounts, Ordering.then_assoc] at hlm hmn ⊢
    refine isLE_then_trans (fun h => by rw [eq_of_order h]) (fun h => by rw [eq_of_order h])
      (lt_of_lt_of_lt order_trans) (fun h₁ h₂ => ?_) hlm hmn
    exact isLE_then_trans (fun h => by rw [Std.LawfulEqCmp.eq_of_compare h])
      (fun h => by rw [Std.LawfulEqCmp.eq_of_compare h]) Std.TransCmp.lt_trans
      orderCounts_trans h₁ h₂

end

instance : Std.TransOrd Value where
  eq_swap := order_swap _ _
  isLE_trans := order_trans

instance : Std.LawfulEqOrd Value where
  compare_self := order_self _
  eq_of_compare := eq_of_order

def truthy : Value → Bool
  | dot => true
  | bool b => b
  | int n => n != 0
  | str s => !s.isEmpty
  | tuple items => !items.isEmpty
  | bag counts => !counts.isEmpty

def asInt? : Value → Option Int64
  | int n => some n
  | _ => none

def asName? : Value → Option String
  | str s => some s
  | _ => none

def spread : Value → List Value
  | bag counts => counts.flatMap fun e => List.replicate e.2 e.1
  | tuple items => items
  | a => [a]

mutual

def text : Value → String
  | dot => "dot"
  | bool true => "True"
  | bool false => "False"
  | int n => toString n.toInt
  | str s => "'" ++ s ++ "'"
  | tuple [a] => "(" ++ a.text ++ ",)"
  | tuple items => "(" ++ ", ".intercalate (texts items) ++ ")"
  | bag counts => "\x7b" ++ ", ".intercalate (countTexts counts) ++ "\x7d"

def texts : List Value → List String
  | [] => []
  | a :: l => a.text :: texts l

def countTexts : List (Value × Nat) → List String
  | [] => []
  | (a, i) :: l => List.replicate i a.text ++ countTexts l

end

end Value
end ColouredPetri
