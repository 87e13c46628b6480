import ColouredPetri.Text.Identifier
import ColouredPetri.Text.Reader
import ColouredPetri.Text.Utf8

namespace ColouredPetri.Ron

open Text Text.Reader

def isSpace (c : Char) : Bool :=
  let n := c.toNat
  n == 0x20 || (9 ≤ n && n ≤ 13) || n == 0x85 || n == 0x200e || n == 0x200f || n == 0x2028 ||
    n == 0x2029

def skipComment : Nat → List Char → Option (List Char)
  | _, [] => none
  | depth, '/' :: '*' :: r => skipComment (depth + 1) r
  | depth, '*' :: '/' :: r => if depth ≤ 1 then some r else skipComment (depth - 1) r
  | depth, _ :: r => skipComment depth r

def comment : List Char → Option (Unit × List Char)
  | '/' :: '/' :: r => some ((), r.dropWhile (· != '\n'))
  | '/' :: '*' :: r => (skipComment 1 r).map ((), ·)
  | _ => none

def skip (s : List Char) : List Char :=
  let s := s.dropWhile isSpace
  (many (fun s => (comment s).map fun x => ((), x.2.dropWhile isSpace)) s).2

def isNameStart (c : Char) : Bool := c == '_' || isIdentifierStart c

def isNameChar (c : Char) : Bool := isIdentifierPart c

def isRawNameChar (c : Char) : Bool := c == '.' || c == '+' || c == '-' || isNameChar c

def literalStarts : List (List Char) :=
  [['b', '"'], ['b', '\''], ['b', 'r', '#'], ['b', 'r', '"'], ['r', '"'], ['r', '#', '"'],
    ['r', '#', '#']]

structure Name where
  text : String
  raw : Bool
  deriving DecidableEq, Inhabited

def name (s : List Char) : Option (Name × List Char) :=
  if literalStarts.any (·.isPrefixOf s) then none
  else
    match s with
    | 'r' :: '#' :: r =>
      match r.takeWhile isRawNameChar with
      | [] => none
      | cs => some (⟨String.ofList cs, true⟩, r.dropWhile isRawNameChar)
    | c :: r =>
      if isNameStart c then
        some (⟨String.ofList (c :: r.takeWhile isNameChar), false⟩, r.dropWhile isNameChar)
      else none
    | [] => none

def hexPair : Reader Nat
  | c :: d :: r => (number? 16 [c, d]).map (·, r)
  | _ => none

def escapedBytes : Nat → List Nat → List Char → Option (Char × List Char)
  | 0, bytes, s => (Utf8.char? bytes).map (·, s)
  | n + 1, bytes, s =>
    match Utf8.char? bytes with
    | some c => some (c, s)
    | none =>
      match s with
      | '\\' :: 'x' :: r => do
        let (b, r) ← hexPair r
        escapedBytes n (bytes ++ [b]) r
      | _ => none

def codePoint : List Char → Option (Char × List Char)
  | '\x7b' :: r => do
    let ds := r.takeWhile (· != '\x7d')
    if ds.isEmpty || ds.length > 6 then none
    else
      let n ← number? 16 ds
      let (_, r) ← word ['\x7d'] () (r.dropWhile (· != '\x7d'))
      if n < 0xD800 ∨ (0xE000 ≤ n ∧ n < 0x110000) then some (Char.ofNat n, r) else none
  | _ => none

def escape (more : Nat) : Reader Char
  | '"' :: r => some ('"', r)
  | '\'' :: r => some ('\'', r)
  | '\\' :: r => some ('\\', r)
  | 'n' :: r => some ('\n', r)
  | 'r' :: r => some ('\r', r)
  | 't' :: r => some ('\t', r)
  | '0' :: r => some ('\x00', r)
  | 'x' :: r => (hexPair r).bind fun x => escapedBytes more [x.1] x.2
  | 'u' :: r => codePoint r
  | _ => none

def character : Reader Char
  | [] => none
  | '"' :: _ => none
  | '\\' :: r => escape 3 r
  | c :: r => some (c, r)

def rawText (close : List Char) : List Char → Option (List Char × List Char)
  | [] => none
  | c :: r =>
    if close.isPrefixOf (c :: r) then some ([], (c :: r).drop close.length)
    else (rawText close r).map fun x => (c :: x.1, x.2)

def rawQuoted : Reader String := fun s =>
  let signs := s.takeWhile (· == '#')
  match s.dropWhile (· == '#') with
  | '"' :: r => (rawText ('"' :: signs) r).map fun x => (String.ofList x.1, x.2)
  | _ => none

def string : Reader String
  | '"' :: s =>
    match many character s with
    | (cs, '"' :: r) => some (String.ofList cs, r)
    | _ => none
  | 'r' :: s => rawQuoted s
  | _ => none

def quotedChar : List Char → Option (Unit × List Char)
  | '\'' :: '\\' :: r => (escape 0 r).bind fun x => word ['\''] () x.2
  | '\'' :: _ :: '\'' :: r => some ((), r)
  | _ => none

def byteEscape : List Char → Option (Unit × List Char)
  | 'x' :: r => (hexPair r).map fun x => ((), x.2)
  | r => (escape 0 r).map fun x => ((), x.2)

def byteStringPart : Reader Unit
  | [] => none
  | '"' :: _ => none
  | '\\' :: r => byteEscape r
  | _ :: r => some ((), r)

def byteString : List Char → Option (Unit × List Char)
  | 'b' :: '"' :: s =>
    match many byteStringPart s with
    | (_, '"' :: r) => some ((), r)
    | _ => none
  | 'b' :: 'r' :: s => (rawQuoted s).map fun x => ((), x.2)
  | _ => none

def quotedByte : List Char → Option (Unit × List Char)
  | 'b' :: '\'' :: '\\' :: 'u' :: _ => none
  | 'b' :: '\'' :: '\\' :: r => (byteEscape r).bind fun x => word ['\''] () x.2
  | 'b' :: '\'' :: c :: '\'' :: r => if c.toNat < 0x80 then some ((), r) else none
  | _ => none

end ColouredPetri.Ron
