/-!
Readers: functions that read something at the front of a text and give what follows it.
-/

namespace ColouredPetri.Text

abbrev Reader (α : Type) := List Char → Option (α × List Char)

namespace Reader

variable {α β γ : Type}

def orElse (p q : Reader α) : Reader α := fun s =>
  match p s with
  | some x => some x
  | none => q s

def both (p : Reader α) (q : Reader β) (f : α → β → γ) : Reader γ := fun s =>
  match p s with
  | none => none
  | some (a, r) =>
    match q r with
    | none => none
    | some (b, r') => some (f a b, r')

def word (w : List Char) (a : α) : Reader α := fun s =>
  if w.isPrefixOf s then some (a, s.drop w.length) else none

def manyUpTo (p : Reader α) : Nat → List Char → List α × List Char
  | 0, s => ([], s)
  | n + 1, s =>
    match p s with
    | none => ([], s)
    | some (a, r) =>
      let (l, r') := manyUpTo p n r
      (a :: l, r')

def many (p : Reader α) (s : List Char) : List α × List Char := manyUpTo p s.length s

def digitValue (base : Nat) (c : Char) : Option Nat :=
  let d :=
    if '0' ≤ c ∧ c ≤ '9' then c.toNat - '0'.toNat
    else if 'a' ≤ c ∧ c ≤ 'z' then c.toNat - 'a'.toNat + 10
    else if 'A' ≤ c ∧ c ≤ 'Z' then c.toNat - 'A'.toNat + 10
    else base
  if d < base then some d else none

def number? (base : Nat) (ds : List Char) : Option Nat :=
  ds.foldlM (fun n c => (digitValue base c).map (n * base + ·)) 0

end Reader

end ColouredPetri.Text
