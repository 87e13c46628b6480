namespace ColouredPetri.Text.Utf8

def tail? (b : Nat) : Option Nat := if 0x80 ≤ b ∧ b < 0xc0 then some (b - 0x80) else none

def codePoint? (least n : Nat) : Option Char :=
  if least ≤ n ∧ n < 0x110000 ∧ ¬(0xd800 ≤ n ∧ n < 0xe000) then some (Char.ofNat n) else none

def char? : List Nat → Option Char
  | [a] => if a < 0x80 then some (Char.ofNat a) else none
  | [a, b] => do
    let b ← tail? b
    if 0xc0 ≤ a ∧ a < 0xe0 then codePoint? 0x80 ((a - 0xc0) * 0x40 + b) else none
  | [a, b, c] => do
    let b ← tail? b
    let c ← tail? c
    if 0xe0 ≤ a ∧ a < 0xf0 then codePoint? 0x800 (((a - 0xe0) * 0x40 + b) * 0x40 + c) else none
  | [a, b, c, d] => do
    let b ← tail? b
    let c ← tail? c
    let d ← tail? d
    if 0xf0 ≤ a ∧ a < 0xf8 then
      codePoint? 0x10000 ((((a - 0xf0) * 0x40 + b) * 0x40 + c) * 0x40 + d)
    else none
  | _ => none

end ColouredPetri.Text.Utf8
