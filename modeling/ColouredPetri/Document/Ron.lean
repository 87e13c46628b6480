import ColouredPetri.Document.Ron.Number

/-!
The RON notation: its values and the reader. Names may stand before tuples and records, commas may
follow last members, and comments count as blanks. Brackets may only nest up to a limit, which is
counted in levels: brackets take one, and so does each of their members.
-/

namespace ColouredPetri

/-- A RON value. The name of a tuple or record is empty if none is given. Values that stand for
nothing a description holds are only known by the levels that they take. -/
inductive Ron where
  | ident (name : Ron.Name)
  | int (n : Int) (type : String)
  | str (s : String)
  | list (items : List Ron)
  | map (members : List (Ron × Ron))
  | tuple (name : String) (items : List Ron)
  | record (name : String) (fields : List (Ron × Ron))
  | other (levels : Nat)

namespace Ron

open Text Text.Reader

instance : Inhabited Ron := ⟨other 0⟩

/-- The mark of a value that is present. It needs that value, so it can be passed over only as the
name of a field that is known. -/
def presence : Name := ⟨"Some", false⟩

mutual

def levels? : Ron → Option Nat
  | ident n => if n = presence then none else some 0
  | int _ _ => some 0
  | str _ => some 0
  | list items => (itemLevels? items).map (· + 1)
  | map members => (pairLevels? members).map (· + 1)
  | tuple _ items => (itemLevels? items).map (· + 1)
  | record _ fields => (pairLevels? fields).map (· + 1)
  | other n => some n

def itemLevels? : List Ron → Option Nat
  | [] => some 0
  | v :: l =>
    match levels? v, itemLevels? l with
    | some m, some n => some (max (m + 1) n)
    | _, _ => none

def pairLevels? : List (Ron × Ron) → Option Nat
  | [] => some 0
  | (k, v) :: l =>
    match levels? k, levels? v, pairLevels? l with
    | some j, some m, some n => some (max (max j m + 1) n)
    | _, _, _ => none

end

structure Extensions where
  implicitSome : Bool
  unwrapVariants : Bool
  explicitNames : Bool

def number (s : List Char) : Option (Ron × List Char) :=
  let asReal := (real s).map fun x => (other 0, x.2)
  if looksReal s then asReal
  else
    match integer s with
    | some ((n, type), r) => some (int n type, r)
    | none => asReal

def constants : List String := ["true", "false", "None"] ++ realNames

def comma : Reader Unit := fun s => (word [','] () (skip s)).map fun x => ((), skip x.2)

def colon : Reader Unit := fun s => (word [':'] () (skip s)).map fun x => ((), skip x.2)

def closing (close : Char) (s : List Char) : Option (Unit × List Char) :=
  let r := match comma s with
    | some (_, r) => r
    | none => s
  word [close] () (skip r)

def members {α : Type} (p : Reader α) (close : Char) (s : List Char) :
    Option (List α × List Char) :=
  match word [close] () (skip s) with
  | some (_, r) => some ([], r)
  | none => do
    let (a, r) ← p (skip s)
    let (l, r) := many (both comma p fun _ a => a) r
    let (_, r) ← closing close r
    some (a :: l, r)

def pair (p : Reader Ron) : Reader (Ron × Ron) := both p (both colon p fun _ v => v) Prod.mk

def startsField (s : List Char) : Bool := (both name colon (fun _ _ => ()) s).isSome

def parenthesised (name : String) (p : Reader Ron) (s : List Char) : Option (Ron × List Char) :=
  if startsField (skip s) then (members (pair p) ')' s).map fun x => (record name x.1, x.2)
  else (members p ')' s).map fun x => (tuple name x.1, x.2)

def dropLiteral (p : Reader Unit) (s : List Char) : List Char :=
  match p s with
  | some (_, r) => r
  | none => s

/-- Whether a comma, and more than the closing bracket after it, follows before brackets close
that are `depth` deep; `n` bounds the characters that are looked at. -/
def goesOn : Nat → Nat → List Char → Bool
  | 0, _, _ => false
  | n + 1, depth, s =>
    let r := dropLiteral quotedChar (skip s)
    let r := dropLiteral (fun s => (string s).map fun x => ((), x.2)) r
    match dropLiteral byteString r with
    | [] => false
    | c :: r =>
      if c == '(' || c == '[' || c == '\x7b' then goesOn n (depth + 1) r
      else if c == ')' || c == ']' || c == '\x7d' then
        if depth = 1 then false else goesOn n (depth - 1) r
      else if c == ',' && depth = 1 then (skip r).head? != some ')'
      else goesOn n depth r

def hasSeveral (s : List Char) : Bool :=
  match name s with
  | some (_, r) =>
    match skip r with
    | ',' :: r => (skip r).head? != some ')'
    | ')' :: _ => false
    | r => goesOn (r.length + 1) 1 r
  | none => goesOn (s.length + 1) 1 s

/-- What stands in the parentheses of a value that is present. If variants are unwrapped, this may
be the fields or the items of a record or tuple without parentheses of its own. -/
def presentContent (ext : Extensions) (p : Reader Ron) (s : List Char) :
    Option (Ron × List Char) :=
  if ext.unwrapVariants && s.head? == some ')' then some (other 0, s.drop 1)
  else if ext.unwrapVariants && (startsField s || hasSeveral s) then parenthesised "" p s
  else do
    let (v, r) ← p s
    let (_, r) ← closing ')' r
    some (v, r)

def present (ext : Extensions) (p : Reader Ron) (s : List Char) : Option (Ron × List Char) :=
  let within := fun (x : Ron × List Char) => (levels? x.1).map fun n => (other (n + 1), x.2)
  match skip s with
  | '(' :: r => (presentContent ext p (skip r)).bind within
  | r =>
    match ext.implicitSome, p r with
    | true, some x => within x
    | _, _ => some (ident presence, s)

def named (ext : Extensions) (p : Reader Ron) (n : Name) (s : List Char) :
    Option (Ron × List Char) :=
  if n = presence then present ext p s
  else if !n.raw && constants.contains n.text then some (ident n, s)
  else
    match skip s with
    | '(' :: r => parenthesised n.text p r
    | _ => some (ident n, s)

def value (ext : Extensions) : Nat → List Char → Option (Ron × List Char)
  | 0, _ => none
  | n + 1, s =>
    match name s with
    | some (m, r) => named ext (value ext n) m r
    | none =>
      let atom := Option.map fun (x : Unit × List Char) => (other 0, x.2)
      match s with
      | '(' :: ')' :: r => some (other 0, r)
      | '(' :: r => parenthesised "" (value ext n) r
      | '[' :: r => (members (value ext n) ']' r).map fun x => (list x.1, x.2)
      | '\x7b' :: r => (members (pair (value ext n)) '\x7d' r).map fun x => (map x.1, x.2)
      | '"' :: _ => (string s).map fun x => (str x.1, x.2)
      | 'r' :: _ => (string s).map fun x => (str x.1, x.2)
      | 'b' :: '\'' :: _ => atom (quotedByte s)
      | 'b' :: _ => atom (byteString s)
      | '\'' :: _ => atom (quotedChar s)
      | _ => number s

def extensions : List String :=
  ["unwrap_newtypes", "implicit_some", "unwrap_variant_newtypes", "explicit_struct_names"]

def enabling (s : List Char) : Option (List String × List Char) := do
  let (_, r) ← word ['#'] () s
  let (_, r) ← word ['!'] () (skip r)
  let (_, r) ← word ['['] () (skip r)
  let (_, r) ← word "enable".toList () (skip r)
  let (_, r) ← word ['('] () (skip r)
  let (names, r) ← members name ')' r
  let (_, r) ← word [']'] () (skip r)
  let names := names.map Name.text
  if !names.isEmpty && names.all extensions.contains then some (names, skip r) else none

def maxLevels : Nat := 128

def ofChars? (s : List Char) : Option (Extensions × Ron) :=
  let (enabled, r) := many enabling (skip s)
  let has := enabled.flatten.contains
  let ext := ⟨has "implicit_some", has "unwrap_variant_newtypes", has "explicit_struct_names"⟩
  match value ext (maxLevels + 2) r with
  | some (v, r) => if skip r = [] then some (ext, v) else none
  | none => none

def ofText? (s : String) : Option (Extensions × Ron) := ofChars? s.toList

end Ron

end ColouredPetri
