import ColouredPetri.Bag

/-!
Markings: the bags of tokens on the places of a net. Places without tokens are left out, so
markings with equal bags on all places are equal (`Marking.ext_tokens`).
-/

namespace ColouredPetri

structure Marking where
  bags : Table String Bag
  nonempty : ∀ e ∈ bags.entries, e.2 ≠ Bag.empty

namespace Marking

instance : DecidableEq Marking := fun a b =>
  decidable_of_iff (a.bags = b.bags) (by cases a; cases b; simp)

def empty : Marking := ⟨Table.empty, by simp⟩

instance : EmptyCollection Marking := ⟨empty⟩
instance : Inhabited Marking := ⟨empty⟩

def get? (m : Marking) (place : String) : Option Bag := m.bags.get? place

def tokens (m : Marking) (place : String) : Bag := (m.get? place).getD Bag.empty

def contains (m : Marking) (place : String) : Bool := m.bags.contains place

def entries (m : Marking) : List (String × Bag) := m.bags.entries

def places (m : Marking) : List String := m.bags.keys

def size (m : Marking) : Nat := m.bags.size

def isEmpty (m : Marking) : Bool := m.bags.isEmpty

def set (m : Marking) (place : String) (bag : Bag) : Marking :=
  if h : bag = Bag.empty then
    ⟨m.bags.erase place, fun e he => m.nonempty e (List.mem_filter.1 he).1⟩
  else
    ⟨m.bags.insert place bag, fun e he => by
      rcases Table.mem_put he with rfl | he
      · exact h
      · exact m.nonempty e he⟩

def addTokens (m : Marking) (place : String) (bag : Bag) : Marking :=
  m.set place (m.tokens place + bag)

def ofList (l : List (String × Bag)) : Marking :=
  l.foldl (fun m e => m.addTokens e.1 e.2) empty

def add (m n : Marking) : Marking :=
  n.entries.foldl (fun acc e => acc.addTokens e.1 e.2) m

instance : Add Marking := ⟨add⟩

def subTokens (m : Marking) (place : String) (bag : Bag) : Except Error Marking :=
  match m.get? place with
  | none => .error (.domain (.absentPlace place))
  | some held =>
    match held.sub bag with
    | .error e => .error (.token e)
    | .ok left => .ok (m.set place left)

def sub (m n : Marking) : Except Error Marking :=
  n.entries.foldlM (fun acc e => acc.subTokens e.1 e.2) m

def isSubset (m n : Marking) : Bool :=
  m.entries.all fun e => e.2.isSubset (n.tokens e.1)

def inclusion (m n : Marking) : Option Ordering :=
  if m = n then some .eq
  else if m.isSubset n then some .lt
  else if n.isSubset m then some .gt
  else none

def text (m : Marking) : String :=
  "\x7b" ++ ", ".intercalate (m.entries.map fun e => e.1 ++ ": " ++ e.2.text) ++ "\x7d"

def debugText (m : Marking) : String := "Marking(" ++ m.text ++ ")"

def order (m n : Marking) : Ordering := compare m.bags n.bags

instance : Ord Marking := ⟨order⟩

instance : Std.TransOrd Marking :=
  inferInstanceAs (Std.TransCmp (compareOn bags))

instance : Std.LawfulEqOrd Marking where
  compare_self {m} := @Std.ReflCmp.compare_self (Table String Bag) compare _ m.bags
  eq_of_compare {m n} h := by
    have : m.bags = n.bags :=
      Std.LawfulEqCmp.eq_of_compare (show compare m.bags n.bags = .eq from h)
    cases m
    cases n
    cases this
    rfl

theorem tokens_set (m : Marking) (p q : String) (bag : Bag) :
    (m.set p bag).tokens q = if q = p then bag else m.tokens q := by
  have heq : (compare q p = .eq) = (q = p) :=
    propext ⟨Std.LawfulEqCmp.eq_of_compare, fun h => h ▸ Std.ReflCmp.compare_self⟩
  unfold set
  split
  · next hb =>
    simp only [tokens, get?, Table.get?_erase, heq]
    split <;> simp [hb]
  · simp only [tokens, get?, Table.get?_insert, heq]
    split <;> simp

theorem tokens_addTokens (m : Marking) (p q : String) (bag : Bag) :
    (m.addTokens p bag).tokens q = if q = p then m.tokens q + bag else m.tokens q := by
  rw [addTokens, tokens_set]
  split
  · next h => rw [h]
  · rfl

theorem get?_eq_none_of_tokens {m : Marking} {p : String} (h : m.tokens p = Bag.empty) :
    m.get? p = none := by
  rw [tokens] at h
  cases hp : m.get? p with
  | none => rfl
  | some bag =>
    rw [hp] at h
    exact absurd h (m.nonempty _ (Table.get?_eq_some_iff.1 hp))

theorem ext_tokens {m n : Marking} (h : ∀ p, m.tokens p = n.tokens p) : m = n := by
  have : m.bags = n.bags := Table.ext_get? fun p => by
    have hp := h p
    by_cases hz : m.tokens p = Bag.empty
    · exact (get?_eq_none_of_tokens hz).trans (get?_eq_none_of_tokens (hp ▸ hz)).symm
    · unfold tokens get? at hp hz
      cases hm : m.bags.get? p <;> cases hn : n.bags.get? p <;> simp_all
  cases m
  cases n
  cases this
  rfl

end Marking

end ColouredPetri
