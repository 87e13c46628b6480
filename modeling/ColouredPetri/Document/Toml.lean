import ColouredPetri.Text.Reader

/-!
The TOML notation. A key is defined once: headers open tables, which dotted keys and later headers
may only extend where no definition of their own stands.
-/

namespace ColouredPetri

inductive TableOrigin where
  | implicit
  | header
  | dotted
  | inline
  deriving DecidableEq, Inhabited

inductive Toml where
  | bool (b : Bool)
  | int (n : Int)
  | float
  | date
  | str (s : String)
  | array (items : List Toml)
  | table (origin : TableOrigin) (entries : List (String × Toml))
  | tables (items : List (List (String × Toml)))

namespace Toml

open Text Text.Reader

instance : Inhabited Toml := ⟨float⟩

abbrev Entries := List (String × Toml)

def isSpace (c : Char) : Bool := c == ' ' || c == '\t'

def skip (s : List Char) : List Char := s.dropWhile isSpace

def isControl (c : Char) : Bool := (c.toNat < 0x20 && c != '\t') || c.toNat == 0x7f

def newline : Reader Unit
  | '\n' :: r => some ((), r)
  | '\r' :: '\n' :: r => some ((), r)
  | _ => none

def comment : Reader Unit
  | '#' :: r =>
    let rest := r.dropWhile fun c => !isControl c
    some ((), rest)
  | _ => none

def optionalComment (s : List Char) : List Char :=
  match comment s with
  | some (_, r) => r
  | none => s

def lineEnd (s : List Char) : Option (Unit × List Char) :=
  match optionalComment (skip s) with
  | [] => some ((), [])
  | r => newline r

def skipLines (s : List Char) : List Char :=
  skip (many (fun s => newline (optionalComment (skip s))) s).2

def skipInside (s : List Char) : List Char := optionalComment (skipLines s)

def isBareChar (c : Char) : Bool := c.isAlphanum || c == '-' || c == '_'

def codePoint (digits : Nat) (s : List Char) : Option (List Char × List Char) := do
  let ds := s.take digits
  if ds.length ≠ digits then none
  else
    let n ← number? 16 ds
    if n < 0xD800 ∨ (0xE000 ≤ n ∧ n < 0x110000) then some ([Char.ofNat n], s.drop digits) else none

def escape : Reader (List Char)
  | 'b' :: r => some (['\x08'], r)
  | 't' :: r => some (['\t'], r)
  | 'n' :: r => some (['\n'], r)
  | 'f' :: r => some (['\x0c'], r)
  | 'r' :: r => some (['\r'], r)
  | '"' :: r => some (['"'], r)
  | '\\' :: r => some (['\\'], r)
  | 'u' :: r => codePoint 4 r
  | 'U' :: r => codePoint 8 r
  | _ => none

def basicChar : Reader (List Char)
  | '"' :: _ => none
  | '\\' :: r => escape r
  | c :: r => if isControl c then none else some ([c], r)
  | [] => none

def basicString : Reader String
  | '"' :: s =>
    match many basicChar s with
    | (cs, '"' :: r) => some (String.ofList cs.flatten, r)
    | _ => none
  | _ => none

def literalString : Reader String
  | '\'' :: s =>
    let cs := s.takeWhile fun c => c != '\'' && !isControl c
    match s.dropWhile fun c => c != '\'' && !isControl c with
    | '\'' :: r => some (String.ofList cs, r)
    | _ => none
  | _ => none

def blank : Reader Unit
  | ' ' :: r => some ((), r)
  | '\t' :: r => some ((), r)
  | _ => none

def lineBreak (s : List Char) : Option (List Char × List Char) :=
  match s with
  | '\n' :: r => some (['\n'], r)
  | '\r' :: '\n' :: r => some (['\r', '\n'], r)
  | '\\' :: r =>
    match newline (skip r) with
    | some (_, r) =>
      some ([], (many (orElse newline blank) r).2)
    | none => none
  | _ => none

def startsTriple (q : Char) (s : List Char) : Bool := [q, q, q].isPrefixOf s

def longChar : Reader (List Char) :=
  orElse lineBreak fun s =>
    match s with
    | '"' :: r => if startsTriple '"' s then none else some (['"'], r)
    | _ => basicChar s

def longLiteralChar (s : List Char) : Option (List Char × List Char) :=
  match s with
  | '\n' :: r => some (['\n'], r)
  | '\r' :: '\n' :: r => some (['\r', '\n'], r)
  | '\'' :: r => if startsTriple '\'' s then none else some (['\''], r)
  | c :: r => if isControl c then none else some ([c], r)
  | [] => none

/-- A string between triple quotes; up to two more quotes before the last ones belong to it. -/
def longString (q : Char) (p : Reader (List Char)) (s : List Char) :
    Option (String × List Char) :=
  if startsTriple q s then
    let s := s.drop 3
    let s := match newline s with
      | some (_, r) => r
      | none => s
    let (cs, r) := many p s
    let quotes := r.takeWhile (· == q)
    let extra := min (quotes.length - 3) 2
    if quotes.length < 3 then none
    else some (String.ofList (cs.flatten ++ List.replicate extra q), r.drop (3 + extra))
  else none

def string : Reader String :=
  orElse (longString '"' longChar) <|
  orElse (longString '\'' longLiteralChar) <|
  orElse basicString literalString

def simpleKey : Reader String :=
  orElse basicString <|
  orElse literalString fun s =>
    match s.takeWhile isBareChar with
    | [] => none
    | cs => some (String.ofList cs, s.dropWhile isBareChar)

def key (s : List Char) : Option (List String × List Char) := do
  let (k, r) ← simpleKey (skip s)
  let dot := fun s => word ['.'] () (skip s)
  let (l, r) := many (both dot (fun s => simpleKey (skip s)) fun _ k => k) r
  some (k :: l, skip r)

def plainDigits (isDigit : Char → Bool) : List Char → Option (List Char)
  | [] => none
  | [c] => if isDigit c then some [c] else none
  | c :: '_' :: r => if isDigit c then (plainDigits isDigit r).map (c :: ·) else none
  | c :: r => if isDigit c then (plainDigits isDigit r).map (c :: ·) else none

def digitsOf? (base : Nat) (cs : List Char) : Option Nat := do
  number? base (← plainDigits (fun c => (digitValue base c).isSome) cs)

def unsigned (cs : List Char) : List Char × Option Bool :=
  match cs with
  | '+' :: r => (r, some false)
  | '-' :: r => (r, some true)
  | _ => (cs, none)

def decimal? (cs : List Char) : Option Nat :=
  match cs with
  | ['0'] => some 0
  | '0' :: _ => none
  | _ => digitsOf? 10 cs

def integer? (cs : List Char) : Option Int :=
  let (ds, sign) := unsigned cs
  match ds, sign with
  | '0' :: 'x' :: r, none => (digitsOf? 16 r).map fun n => (n : Int)
  | '0' :: 'o' :: r, none => (digitsOf? 8 r).map fun n => (n : Int)
  | '0' :: 'b' :: r, none => (digitsOf? 2 r).map fun n => (n : Int)
  | _, _ => (decimal? ds).map fun n => if sign == some true then -(n : Int) else n

/-- Half way between the greatest finite floating-point number and the next power of two. -/
def floatBound : Nat := Nat.pow 2 1024 - Nat.pow 2 970

def exceedsFloat (digits : List Char) (exponent : Int) : Bool :=
  let ds := digits.dropWhile (· == '0')
  let size := (ds.length : Int) + exponent
  if ds.isEmpty || size < 308 then false
  else if 310 < size then true
  else
    let n := (number? 10 ds).getD 0
    floatBound * Nat.pow 10 (-exponent).toNat ≤ n * Nat.pow 10 exponent.toNat

def exponent? (cs : List Char) : Option Int :=
  let (ds, sign) := unsigned cs
  (digitsOf? 10 ds).map fun n => if sign == some true then -(n : Int) else n

def isFloat (cs : List Char) : Bool :=
  let (ds, _) := unsigned cs
  if ds = ['i', 'n', 'f'] || ds = ['n', 'a', 'n'] then true
  else
    let isWhole := fun c => c.isDigit || c == '_'
    let whole := ds.takeWhile isWhole
    let rest := ds.dropWhile isWhole
    let (fraction, rest) := match rest with
      | '.' :: r => (some (r.takeWhile isWhole), r.dropWhile isWhole)
      | _ => (none, rest)
    let (exponent, rest) := match rest with
      | c :: r => if c == 'e' || c == 'E' then (some (exponent? r), []) else (none, rest)
      | [] => (none, [])
    match decimal? whole, fraction.getD ['0'], exponent.getD (some 0) with
    | some _, fractionDigits, some e =>
      let digits := (whole ++ fraction.getD []).filter (· != '_')
      let places := ((fraction.getD []).filter (· != '_')).length
      (digitsOf? 10 fractionDigits).isSome && rest.isEmpty &&
        (fraction.isSome || exponent.isSome) && !exceedsFloat digits (e - places)
    | _, _, _ => false

def digitsWithin (length low high : Nat) (s : List Char) : Option (Nat × List Char) :=
  match number? 10 (s.take length) with
  | some n =>
    if (s.take length).length = length ∧ low ≤ n ∧ n ≤ high then some (n, s.drop length) else none
  | none => none

def mark (c : Char) : Reader Unit := word [c] ()

def isLeapYear (year : Nat) : Bool := year % 4 == 0 && (year % 100 != 0 || year % 400 == 0)

def daysIn (year month : Nat) : Nat :=
  if month = 2 then if isLeapYear year then 29 else 28
  else if month = 4 ∨ month = 6 ∨ month = 9 ∨ month = 11 then 30
  else 31

def day (s : List Char) : Option (Unit × List Char) := do
  let (year, r) ← digitsWithin 4 0 9999 s
  let (_, r) ← mark '-' r
  let (month, r) ← digitsWithin 2 1 12 r
  let (_, r) ← mark '-' r
  let (_, r) ← digitsWithin 2 1 (daysIn year month) r
  some ((), r)

def time (s : List Char) : Option (Unit × List Char) := do
  let (_, r) ← digitsWithin 2 0 23 s
  let (_, r) ← mark ':' r
  let (_, r) ← digitsWithin 2 0 59 r
  let (_, r) ← mark ':' r
  let (_, r) ← digitsWithin 2 0 60 r
  match r with
  | '.' :: r =>
    match r.takeWhile Char.isDigit with
    | [] => none
    | _ => some ((), r.dropWhile Char.isDigit)
  | _ => some ((), r)

def zone (s : List Char) : Option (Unit × List Char) :=
  match s with
  | c :: r =>
    if c == 'Z' || c == 'z' then some ((), r)
    else if c == '+' || c == '-' then do
      let (_, r) ← digitsWithin 2 0 23 r
      let (_, r) ← mark ':' r
      let (_, r) ← digitsWithin 2 0 59 r
      some ((), r)
    else some ((), s)
  | [] => some ((), [])

def moment (s : List Char) : Option (Toml × List Char) :=
  match day s with
  | none => (time s).map fun x => (date, x.2)
  | some (_, r) =>
    match r with
    | c :: r' =>
      if c == 'T' || c == 't' || c == ' ' then
        match both time zone (fun _ _ => ()) r' with
        | some (_, r'') => some (date, r'')
        | none => if c == ' ' then some (date, r) else none
      else some (date, r)
    | [] => some (date, [])

def isWide (n : Int) : Bool :=
  let size : Int := UInt64.size * UInt64.size
  0 ≤ size + 2 * n && n < size

def isNumberChar (c : Char) : Bool := c.isAlphanum || c == '+' || c == '-' || c == '_' || c == '.'

def number (s : List Char) : Option (Toml × List Char) :=
  let cs := s.takeWhile isNumberChar
  let rest := s.dropWhile isNumberChar
  match integer? cs with
  | some n => if isWide n then some (int n, rest) else none
  | none => if isFloat cs then some (float, rest) else none

def keyword (w : String) (v : Toml) : Reader Toml := fun s =>
  match word w.toList v s with
  | some (v, c :: r) => if isBareChar c then none else some (v, c :: r)
  | x => x

def scalar : Reader Toml :=
  orElse (fun s => (string s).map fun x => (str x.1, x.2)) <|
  orElse (keyword "true" (bool true)) <|
  orElse (keyword "false" (bool false)) <|
  orElse moment number

def changeLast (f : Entries → Option Entries) : List Entries → Option (List Entries)
  | [] => none
  | [es] => (f es).map ([·])
  | es :: l => (changeLast f l).map (es :: ·)

/-- Puts a value at a dotted key. The table that it comes to lie in must be one that dotted keys
have made; on the way there may be any that no header and no braces define. -/
def insertAt (v : Toml) : List String → Entries → Option Entries
  | [], _ => none
  | [k], entries =>
    match entries.lookup k with
    | none => some (entries ++ [(k, v)])
    | some _ => none
  | k :: path, entries =>
    let isLast := path.length == 1
    match entries.lookup k with
    | none => (insertAt v path []).map fun es => entries ++ [(k, table .dotted es)]
    | some (table origin es) =>
      if origin == .dotted || (origin == .implicit && !isLast) then
        (insertAt v path es).map fun es =>
          entries.map fun e => if e.1 == k then (k, table origin es) else e
      else none
    | some (tables l) =>
      if isLast then none
      else (changeLast (insertAt v path) l).map fun l =>
        entries.map fun e => if e.1 == k then (k, tables l) else e
    | some _ => none

def value : Nat → List Char → Option (Toml × List Char)
  | 0, s => scalar s
  | n + 1, s =>
    match s with
    | '[' :: r =>
      let item := fun s => value n (skipInside s)
      let comma := fun s => word [','] () (skipInside s)
      match word [']'] () (skipInside r) with
      | some (_, r) => some (array [], r)
      | none => do
        let (v, r) ← item r
        let (l, r) := many (both comma item fun _ v => v) r
        let r := match comma r with
          | some (_, r) => r
          | none => r
        let (_, r) ← word [']'] () (skipInside r)
        some (array (v :: l), r)
    | '\x7b' :: r =>
      let entry := both key (both (mark '=') (fun s => value n (skip s)) fun _ v => v) Prod.mk
      let comma := fun s => word [','] () (skip s)
      match word ['\x7d'] () (skip r) with
      | some (_, r) => some (table .inline [], r)
      | none => do
        let (e, r) ← entry r
        let (l, r) := many (both comma entry fun _ e => e) r
        let (_, r) ← word ['\x7d'] () (skip r)
        let entries ← (e :: l).foldlM (fun es e => insertAt e.2 e.1 es) []
        some (table .inline entries, r)
    | _ => scalar s

inductive Line where
  | entry (key : List String) (value : Toml)
  | header (key : List String)
  | arrayHeader (key : List String)

def maxDepth : Nat := 80

def line (s : List Char) : Option (Line × List Char) :=
  let statement : Option (Line × List Char) :=
    match s with
    | '[' :: '[' :: r => do
      let (k, r) ← key r
      let (_, r) ← word [']', ']'] () r
      some (.arrayHeader k, r)
    | '[' :: r => do
      let (k, r) ← key r
      let (_, r) ← mark ']' r
      some (.header k, r)
    | _ => do
      let (k, r) ← key s
      let (_, r) ← mark '=' r
      let (v, r) ← value maxDepth (skip r)
      some (.entry k v, r)
  match statement with
  | none => none
  | some (l, r) => (lineEnd r).map fun x => (l, skipLines x.2)

def openTable : List String → Entries → Option Entries
  | [], _ => none
  | [k], entries =>
    match entries.lookup k with
    | none => some (entries ++ [(k, table .header [])])
    | some (table .implicit es) =>
      some (entries.map fun e => if e.1 == k then (k, table .header es) else e)
    | some _ => none
  | k :: path, entries =>
    match entries.lookup k with
    | none => (openTable path []).map fun es => entries ++ [(k, table .implicit es)]
    | some (table origin es) =>
      if origin == .inline then none
      else (openTable path es).map fun es =>
        entries.map fun e => if e.1 == k then (k, table origin es) else e
    | some (tables l) =>
      (changeLast (openTable path) l).map fun l =>
        entries.map fun e => if e.1 == k then (k, tables l) else e
    | some _ => none

def openArray : List String → Entries → Option Entries
  | [], _ => none
  | [k], entries =>
    match entries.lookup k with
    | none => some (entries ++ [(k, tables [[]])])
    | some (tables l) =>
      some (entries.map fun e => if e.1 == k then (k, tables (l ++ [[]])) else e)
    | some _ => none
  | k :: path, entries =>
    match entries.lookup k with
    | none => (openArray path []).map fun es => entries ++ [(k, table .implicit es)]
    | some (table origin es) =>
      if origin == .inline then none
      else (openArray path es).map fun es =>
        entries.map fun e => if e.1 == k then (k, table origin es) else e
    | some (tables l) =>
      (changeLast (openArray path) l).map fun l =>
        entries.map fun e => if e.1 == k then (k, tables l) else e
    | some _ => none

def insertBelow (key : List String) (v : Toml) : List String → Entries → Option Entries
  | [], entries => insertAt v key entries
  | k :: path, entries =>
    match entries.lookup k with
    | some (table origin es) =>
      (insertBelow key v path es).map fun es =>
        entries.map fun e => if e.1 == k then (k, table origin es) else e
    | some (tables l) =>
      (changeLast (insertBelow key v path) l).map fun l =>
        entries.map fun e => if e.1 == k then (k, tables l) else e
    | _ => none

def addLine (state : List String × Entries) (l : Line) : Option (List String × Entries) :=
  match l with
  | .entry k v => (insertBelow k v state.1 state.2).map (state.1, ·)
  | .header k => (openTable k state.2).map (k, ·)
  | .arrayHeader k => (openArray k state.2).map (k, ·)

def ofText? (s : String) : Option Entries :=
  let cs := match s.toList with
    | '\ufeff' :: r => r
    | cs => cs
  match many line (skipLines cs) with
  | (l, r) =>
    if optionalComment r = [] then (l.foldlM addLine ([], [])).map Prod.snd else none

end Toml

end ColouredPetri
