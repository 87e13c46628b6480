/-!
Sets of characters, given by the code points at which membership changes.
-/

namespace ColouredPetri.Text

/-- A character is a member when an odd number of the ascending `flips` lies at or below it. -/
structure CharSet where
  flips : List Nat

namespace CharSet

def odd (c : Nat) : List Nat → Bool
  | [] => false
  | b :: r => if c < b then false else !odd c r

def contains (s : CharSet) (c : Char) : Bool := odd c.toNat s.flips

end CharSet

end ColouredPetri.Text
