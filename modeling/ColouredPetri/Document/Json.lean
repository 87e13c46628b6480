import ColouredPetri.Text.Reader

namespace ColouredPetri

/-- A JSON value. Numbers that are no integers are kept apart without their size, and so is what
is well formed but has half of a surrogate pair in a text or a name. -/
inductive Json where
  | null
  | bool (b : Bool)
  | int (n : Int)
  | other
  | str (s : String)
  | list (items : List Json)
  | object (members : List (String × Json))

namespace Json

open Text Text.Reader

instance : Inhabited Json := ⟨null⟩

def isSpace (c : Char) : Bool := c == ' ' || c == '\n' || c == '\t' || c == '\r'

def skip (s : List Char) : List Char := s.dropWhile isSpace

def hexFour (s : List Char) : Option (Nat × List Char) :=
  let ds := s.take 4
  if ds.length = 4 then (number? 16 ds).map (·, s.drop 4) else none

def codePoint (s : List Char) : Option (Option Char × List Char) := do
  let (n, r) ← hexFour s
  if 0xD800 ≤ n ∧ n < 0xDC00 then
    match both (word ['\\', 'u'] ()) hexFour (fun _ m => m) r with
    | some (m, r') =>
      if 0xDC00 ≤ m ∧ m < 0xE000 then
        some (Char.ofNat (0x10000 + (n - 0xD800) * 0x400 + (m - 0xDC00)), r')
      else some (none, r)
    | none => some (none, r)
  else if 0xDC00 ≤ n ∧ n < 0xE000 then some (none, r)
  else some (Char.ofNat n, r)

def character : Reader (Option Char)
  | [] => none
  | '"' :: _ => none
  | '\\' :: '"' :: r => some ('"', r)
  | '\\' :: '\\' :: r => some ('\\', r)
  | '\\' :: '/' :: r => some ('/', r)
  | '\\' :: 'b' :: r => some ('\x08', r)
  | '\\' :: 'f' :: r => some ('\x0c', r)
  | '\\' :: 'n' :: r => some ('\n', r)
  | '\\' :: 'r' :: r => some ('\r', r)
  | '\\' :: 't' :: r => some ('\t', r)
  | '\\' :: 'u' :: r => codePoint r
  | '\\' :: _ => none
  | c :: r => if c.toNat < 0x20 then none else some (c, r)

def string : Reader (Option String)
  | '"' :: s =>
    match many character s with
    | (cs, '"' :: r) => some ((cs.mapM id).map String.ofList, r)
    | _ => none
  | _ => none

def digits (s : List Char) : List Char × List Char :=
  (s.takeWhile Char.isDigit, s.dropWhile Char.isDigit)

def fraction : Reader Bool
  | '.' :: s =>
    match digits s with
    | ([], _) => none
    | (_, r) => some (true, r)
  | s => some (false, s)

def exponent : Reader Bool
  | c :: s =>
    if c == 'e' || c == 'E' then
      let s := match s with
        | '+' :: r => r
        | '-' :: r => r
        | _ => s
      match digits s with
      | ([], _) => none
      | (_, r) => some (true, r)
    else some (false, c :: s)
  | [] => some (false, [])

def whole (s : List Char) : Option (List Char × List Char) :=
  match s with
  | '0' :: r => some (['0'], r)
  | _ =>
    match digits s with
    | ([], _) => none
    | x => some x

def number (s : List Char) : Option (Json × List Char) := do
  let (negative, s) := match s with
    | '-' :: r => (true, r)
    | _ => (false, s)
  let (ds, s) ← whole s
  let (hasFraction, s) ← fraction s
  let (hasExponent, s) ← exponent s
  let n ← number? 10 ds
  if hasFraction || hasExponent || (negative && n == 0) then some (other, s)
  else some (int (if negative then -(n : Int) else n), s)

def ofString? (s : Option String) : Json :=
  match s with
  | some s => str s
  | none => other

def ofMembers? (members : List (Option String × Json)) : Json :=
  match members.mapM fun e => e.1.map (·, e.2) with
  | some members => object members
  | none => other

def scalar : Reader Json :=
  orElse (word "null".toList null) <|
  orElse (word "true".toList (bool true)) <|
  orElse (word "false".toList (bool false)) <|
  orElse (fun s => (string s).map fun x => (ofString? x.1, x.2)) number

def comma : Reader Unit := fun s => word [','] () (skip s)

def members {α : Type} (p : Reader α) (close : Char) (s : List Char) :
    Option (List α × List Char) :=
  match word [close] () (skip s) with
  | some (_, r) => some ([], r)
  | none => do
    let (a, r) ← p s
    let (l, r) := many (both comma p fun _ a => a) r
    let (_, r) ← word [close] () (skip r)
    some (a :: l, r)

def value : Nat → List Char → Option (Json × List Char)
  | 0, s => scalar (skip s)
  | n + 1, s =>
    match skip s with
    | '[' :: r => (members (value n) ']' r).map fun x => (list x.1, x.2)
    | '\x7b' :: r =>
      let entry := both (fun s => string (skip s))
        (both (fun s => word [':'] () (skip s)) (value n) fun _ v => v) Prod.mk
      (members entry '\x7d' r).map fun x => (ofMembers? x.1, x.2)
    | r => scalar r

def ofText? (s : String) : Option Json :=
  match value s.length s.toList with
  | some (v, r) => if skip r = [] then some v else none
  | none => none

def hexDigit (n : Nat) : Char := (Nat.toDigits 16 n).headD '0'

def escapeChar (c : Char) : List Char :=
  if c = '"' then ['\\', '"']
  else if c = '\\' then ['\\', '\\']
  else if c = '\x08' then ['\\', 'b']
  else if c = '\x0c' then ['\\', 'f']
  else if c = '\n' then ['\\', 'n']
  else if c = '\r' then ['\\', 'r']
  else if c = '\t' then ['\\', 't']
  else if c.toNat < 0x20 then
    ['\\', 'u', '0', '0', hexDigit (c.toNat / 16), hexDigit (c.toNat % 16)]
  else [c]

def quoted (s : String) : String :=
  String.ofList ('"' :: (s.toList.flatMap escapeChar ++ ['"']))

def indent (n : Nat) : String := String.ofList (List.replicate n ' ')

def block (opening closing : String) (depth : Nat) (texts : List String) : String :=
  if texts.isEmpty then opening ++ closing
  else
    opening ++ "\n" ++
      ",\n".intercalate (texts.map fun t => indent (depth + 2) ++ t) ++ "\n" ++
      indent depth ++ closing

mutual

def pretty (depth : Nat) : Json → String
  | null => "null"
  | bool true => "true"
  | bool false => "false"
  | int n => toString n
  | other => "0.0"
  | str s => quoted s
  | list items => block "[" "]" depth (prettyItems (depth + 2) items)
  | object members => block "\x7b" "\x7d" depth (prettyMembers (depth + 2) members)

def prettyItems (depth : Nat) : List Json → List String
  | [] => []
  | v :: l => pretty depth v :: prettyItems depth l

def prettyMembers (depth : Nat) : List (String × Json) → List String
  | [] => []
  | (k, v) :: l => (quoted k ++ ": " ++ pretty depth v) :: prettyMembers depth l

end

def text (v : Json) : String := pretty 0 v

end Json

end ColouredPetri
