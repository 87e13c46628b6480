import ColouredPetri.Document.Json
import ColouredPetri.Document.Ron

/-!
Views: how the data of a domain is found in a notation. A variant is a name with or without a
content; a record has named fields, of which some may be left out.
-/

namespace ColouredPetri

structure View (τ : Type) where
  bool? : τ → Option Bool
  int? : String → τ → Option Int
  str? : τ → Option String
  list? : τ → Option (List τ)
  tuple? : τ → Option (List τ)
  map? : τ → Option (List (String × τ))
  record? : String → List String → τ → Option (List (Option τ))
  variant? : τ → Option (String × Option τ)
  isNothing : τ → Bool
  content? : τ → Option τ

def pickFields {τ : Type} (names : List String) (fields : List (String × τ)) :
    Option (List (Option τ)) :=
  names.mapM fun n =>
    match fields.filter fun f => f.1 == n with
    | [] => some none
    | [f] => some (some f.2)
    | _ => none

namespace Json

def bool? : Json → Option Bool
  | bool b => some b
  | _ => none

def int? : Json → Option Int
  | int n => some n
  | _ => none

def str? : Json → Option String
  | str s => some s
  | _ => none

def list? : Json → Option (List Json)
  | list items => some items
  | _ => none

def object? : Json → Option (List (String × Json))
  | object members => some members
  | _ => none

def record? (names : List String) : Json → Option (List (Option Json))
  | object members => pickFields names members
  | list items =>
    if items.length ≤ names.length then
      some (items.map some ++ List.replicate (names.length - items.length) none)
    else none
  | _ => none

def variant? : Json → Option (String × Option Json)
  | str s => some (s, none)
  | object [(k, v)] => some (k, some v)
  | _ => none

def isNull : Json → Bool
  | null => true
  | _ => false

def view : View Json where
  bool? := bool?
  int? _ := int?
  str? := str?
  list? := list?
  tuple? := list?
  map? := object?
  record? _ := record?
  variant? := variant?
  isNothing := isNull
  content? := some

end Json

/-- Data of a notation, and how many levels of brackets may still be opened in it. -/
structure Nested (τ : Type) where
  data : τ
  room : Nat

namespace Nested

def within {τ : Type} (n room : Nat) (parts : List τ) : Option (List (Nested τ)) :=
  if n ≤ room then some (parts.map fun p => ⟨p, room - n⟩) else none

def optionalWithin {τ : Type} (n room : Nat) (parts : List (Option τ)) :
    Option (List (Option (Nested τ))) :=
  if n ≤ room then some (parts.map fun p => p.map fun p => ⟨p, room - n⟩) else none

def namedWithin {τ : Type} (n room : Nat) (parts : List (String × τ)) :
    Option (List (String × Nested τ)) :=
  if n ≤ room then some (parts.map fun p => (p.1, ⟨p.2, room - n⟩)) else none

end Nested

namespace Json

def maxDepth : Nat := 127

def nestedVariant? (d : Nested Json) : Option (String × Option (Nested Json)) :=
  match variant? d.data with
  | some (n, none) => some (n, none)
  | some (n, some v) => if d.room = 0 then none else some (n, some ⟨v, d.room - 1⟩)
  | none => none

def nestedView : View (Nested Json) where
  bool? d := bool? d.data
  int? _ d := int? d.data
  str? d := str? d.data
  list? d := (list? d.data).bind (Nested.within 1 d.room)
  tuple? d := (list? d.data).bind (Nested.within 1 d.room)
  map? d := (object? d.data).bind (Nested.namedWithin 1 d.room)
  record? _ names d := (record? names d.data).bind (Nested.optionalWithin 1 d.room)
  variant? := nestedVariant?
  isNothing d := isNull d.data
  content? := some

end Json

namespace Ron

def bool? : Ron → Option Bool
  | ident ⟨"true", false⟩ => some true
  | ident ⟨"false", false⟩ => some false
  | _ => none

def int? (type : String) : Ron → Option Int
  | int n t => if t == "" || t == type then some n else none
  | _ => none

def str? : Ron → Option String
  | str s => some s
  | _ => none

def bracketLevels {α : Type} (members : List α) : Nat := if members.isEmpty then 1 else 2

def list? (d : Nested Ron) : Option (List (Nested Ron)) :=
  match d.data with
  | list items => Nested.within (bracketLevels items) d.room items
  | _ => none

def tuple? (d : Nested Ron) : Option (List (Nested Ron)) :=
  match d.data with
  | tuple "" items => Nested.within (bracketLevels items) d.room items
  | _ => none

def map? (d : Nested Ron) : Option (List (String × Nested Ron)) :=
  match d.data with
  | map members =>
    (members.mapM fun e => (str? e.1).map (·, e.2)).bind
      (Nested.namedWithin (bracketLevels members) d.room)
  | _ => none

def nameFits (explicit : Bool) (expected given : String) : Bool :=
  given == expected || (given == "" && !explicit)

def fields? (fields : List (Ron × Ron)) : Option (List (String × Ron)) :=
  fields.mapM fun
    | (ident n, v) => some (n.text, v)
    | _ => none

def fits (names : List String) (room : Nat) (field : String × Ron) : Bool :=
  names.contains field.1 ||
    match levels? field.2 with
    | some n => n ≤ room
    | none => false

def record? (explicit : Bool) (name : String) (names : List String) (d : Nested Ron) :
    Option (List (Option (Nested Ron))) :=
  match d.data with
  | record given fields => do
    let fields ← fields? fields
    if nameFits explicit name given && fields.all (fits names (d.room - 2)) then
      Nested.optionalWithin 2 d.room (← pickFields names fields)
    else none
  | _ => none

def variant? (d : Nested Ron) : Option (String × Option (Nested Ron)) :=
  if d.room < 2 then none
  else
    match d.data with
    | ident n => some (n.text, none)
    | tuple n items => if n == "" then none else some (n, some ⟨tuple "" items, d.room - 1⟩)
    | record n fields => if n == "" then none else some (n, some ⟨record "" fields, d.room - 1⟩)
    | _ => none

def content? (d : Nested Ron) : Option (Nested Ron) :=
  match d.data with
  | tuple "" [v] => if d.room = 0 then none else some ⟨v, d.room - 1⟩
  | _ => none

def view (explicit : Bool) : View (Nested Ron) where
  bool? d := bool? d.data
  int? t d := int? t d.data
  str? d := str? d.data
  list? := list?
  tuple? := tuple?
  map? := map?
  record? := record? explicit
  variant? := variant?
  isNothing _ := false
  content? := content?

end Ron

end ColouredPetri
