import ColouredPetri.Document.Ron.Lexeme

namespace ColouredPetri.Ron

open Text Text.Reader

def isIntegerChar (c : Char) : Bool := (digitValue 16 c).isSome || c == '_'

def isRealChar (c : Char) : Bool :=
  c.isDigit || c == 'e' || c == 'E' || c == '.' || c == '+' || c == '-' || c == '_'

def signed : List Char → Bool × List Char
  | '-' :: r => (true, r)
  | '+' :: r => (false, r)
  | s => (false, s)

def looksReal (s : List Char) : Bool :=
  let r := (signed s).2
  (r.takeWhile isIntegerChar).length < (r.takeWhile isRealChar).length

def based : List Char → Nat × List Char
  | '0' :: 'b' :: r => (2, r)
  | '0' :: 'o' :: r => (8, r)
  | '0' :: 'x' :: r => (16, r)
  | s => (10, s)

def digits? (base : Nat) (ds : List Char) : Option Nat :=
  match ds with
  | [] => none
  | '_' :: _ => none
  | _ => number? base (ds.filter (· != '_'))

def integerTypes : List (String × Int × Int) :=
  [("i8", Int8.minValue.toInt, Int8.maxValue.toInt),
    ("i16", Int16.minValue.toInt, Int16.maxValue.toInt),
    ("i32", Int32.minValue.toInt, Int32.maxValue.toInt),
    ("i64", Int64.minValue.toInt, Int64.maxValue.toInt),
    ("u8", 0, UInt8.size - 1), ("u16", 0, UInt16.size - 1), ("u32", 0, UInt32.size - 1),
    ("u64", 0, UInt64.size - 1)]

def typeName (s : List Char) : Option ((String × Int × Int) × List Char) :=
  let r := s.dropWhile isNameChar
  match integerTypes.find? fun t => t.1.toList == s.takeWhile isNameChar with
  | some t => some (t, r)
  | none => none

def inRange (range : Int × Int) (n : Int) : Option Int :=
  if range.1 ≤ n ∧ n ≤ range.2 then some n else none

def anyInteger (negative : Bool) : Int × Int :=
  if negative then (Int64.minValue.toInt, 0) else (0, UInt64.size - 1)

def integer (s : List Char) : Option ((Int × String) × List Char) := do
  let (negative, r) := signed s
  let value := fun (ds : Nat × List Char) =>
    (digits? ds.1 ds.2).map fun n => if negative then -(n : Int) else n
  match typeName (r.dropWhile isIntegerChar) with
  | some ((type, range), rest) =>
    let n ← value (based (r.takeWhile isIntegerChar))
    some ((← inRange range n, type), rest)
  | none =>
    let (base, ds) := based r
    let n ← value (base, ds.takeWhile isIntegerChar)
    some ((← inRange (anyInteger negative) n, ""), ds.dropWhile isIntegerChar)

def underscoresFit (allowed : Bool) : List Char → Bool
  | [] => true
  | '_' :: r => allowed && underscoresFit allowed r
  | '.' :: r => underscoresFit false r
  | c :: r => underscoresFit (allowed || c != '+' && c != '-') r

def isExponent (s : List Char) : Bool :=
  match s with
  | [] => true
  | c :: r =>
    let ds := (signed r).2
    (c == 'e' || c == 'E') && !ds.isEmpty && ds.all Char.isDigit

def isDecimal (s : List Char) : Bool :=
  let r := (signed s).2
  let whole := r.takeWhile Char.isDigit
  match r.dropWhile Char.isDigit with
  | '.' :: t =>
    !(whole.isEmpty && (t.takeWhile Char.isDigit).isEmpty) && isExponent (t.dropWhile Char.isDigit)
  | t => !whole.isEmpty && isExponent t

def dropRealType (s : List Char) : List Char :=
  let t := String.ofList (s.takeWhile isNameChar)
  if t == "f32" || t == "f64" then s.dropWhile isNameChar else s

def realNames : List String := ["inf", "inff32", "inff64", "NaN", "NaNf32", "NaNf64"]

def real (s : List Char) : Option (Unit × List Char) :=
  let r := (signed s).2
  if realNames.contains (String.ofList (r.takeWhile isNameChar)) then
    some ((), r.dropWhile isNameChar)
  else
    let cs := s.takeWhile isRealChar
    if underscoresFit false cs && isDecimal (cs.filter (· != '_')) then
      some ((), dropRealType (s.dropWhile isRealChar))
    else none

end ColouredPetri.Ron
