import ColouredPetri.Document.Json
import ColouredPetri.Document.Ron
import ColouredPetri.Text.Quoted

/-!
Documents to be written, and their two notations. In RON tuples stay on one line, records go
without names, and there is a limit to the levels; in JSON a variant with a content is an object
with one member.
-/

namespace ColouredPetri

inductive Doc where
  | bool (b : Bool)
  | int (n : Int)
  | str (s : String)
  | list (items : List Doc)
  | tuple (items : List Doc)
  | map (members : List (String × Doc))
  | record (fields : List (String × Doc))
  | name (name : String)
  | variant (name : String) (content : Doc)
  | variantRecord (name : String) (fields : List (String × Doc))

namespace Doc

instance : Inhabited Doc := ⟨list []⟩

mutual

def toJson : Doc → Json
  | bool b => .bool b
  | int n => .int n
  | str s => .str s
  | list items => .list (toJsonItems items)
  | tuple items => .list (toJsonItems items)
  | map members => .object (toJsonMembers members)
  | record fields => .object (toJsonMembers fields)
  | name n => .str n
  | variant n content => .object [(n, toJson content)]
  | variantRecord n fields => .object [(n, .object (toJsonMembers fields))]

def toJsonItems : List Doc → List Json
  | [] => []
  | d :: l => toJson d :: toJsonItems l

def toJsonMembers : List (String × Doc) → List (String × Json)
  | [] => []
  | (k, d) :: l => (k, toJson d) :: toJsonMembers l

end

def json (d : Doc) : String := d.toJson.text

def block (opening closing : String) (depth : Nat) (texts : List String) : String :=
  if texts.isEmpty then opening ++ closing
  else
    opening ++ "\n" ++ String.join (texts.map fun t => Json.indent (depth + 4) ++ t ++ ",\n") ++
      Json.indent depth ++ closing

mutual

def ronAt (depth : Nat) : Doc → String
  | bool true => "true"
  | bool false => "false"
  | int n => toString n
  | str s => Text.quotedFully s
  | list items => block "[" "]" depth (ronItems (depth + 4) items)
  | tuple items => "(" ++ ", ".intercalate (ronItems depth items) ++ ")"
  | map members => block "\x7b" "\x7d" depth (ronMembers (depth + 4) members)
  | record fields => block "(" ")" depth (ronFields (depth + 4) fields)
  | name n => n
  | variant n content => n ++ "(" ++ ronAt depth content ++ ")"
  | variantRecord n fields => n ++ block "(" ")" depth (ronFields (depth + 4) fields)

def ronItems (depth : Nat) : List Doc → List String
  | [] => []
  | d :: l => ronAt depth d :: ronItems depth l

def ronMembers (depth : Nat) : List (String × Doc) → List String
  | [] => []
  | (k, d) :: l => (Text.quotedFully k ++ ": " ++ ronAt depth d) :: ronMembers depth l

def ronFields (depth : Nat) : List (String × Doc) → List String
  | [] => []
  | (k, d) :: l => (k ++ ": " ++ ronAt depth d) :: ronFields depth l

end

mutual

def levels : Doc → Nat
  | bool _ => 0
  | int _ => 0
  | str _ => 0
  | list items => itemLevels items
  | tuple items => itemLevels items
  | map members => memberLevels members
  | record fields => memberLevels fields
  | name _ => 0
  | variant _ content => levels content + 1
  | variantRecord _ fields => memberLevels fields

def itemLevels : List Doc → Nat
  | [] => 0
  | d :: l => max (levels d + 1) (itemLevels l)

def memberLevels : List (String × Doc) → Nat
  | [] => 0
  | (_, d) :: l => max (levels d + 1) (memberLevels l)

end

def ron? (d : Doc) : Option String := if d.levels ≤ Ron.maxLevels then some (ronAt 0 d) else none

end Doc

end ColouredPetri
