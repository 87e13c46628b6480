import ColouredPetri.Table
import ColouredPetri.Text.Quoted
import ColouredPetri.Value

/-!
Types of tokens: which values a place may hold. A specification is a type that can be written down;
types made from tests have none.
-/

namespace ColouredPetri

inductive TypeSpec where
  | any
  | kind (kind : Kind)
  | oneOf (values : List Value)
  deriving DecidableEq, Inhabited

inductive TokenType where
  | any
  | kind (kind : Kind)
  | oneOf (values : KeySet Value)
  | predicate (name : String) (test : Value → Bool)
  | union (parts : List TokenType)

instance : Inhabited TokenType := ⟨.any⟩

def TypeSpec.build : TypeSpec → TokenType
  | any => .any
  | kind k => .kind k
  | oneOf values => .oneOf (KeySet.ofList values)

namespace TokenType

mutual

def accepts (v : Value) : TokenType → Bool
  | any => true
  | kind k => v.kind == k
  | oneOf values => values.contains v
  | predicate _ test => test v
  | union parts => someAccepts v parts

def someAccepts (v : Value) : List TokenType → Bool
  | [] => false
  | t :: l => accepts v t || someAccepts v l

end

mutual

/-- The specification of a type. A union has one if its parts are listed values up to the first
part that accepts everything. -/
def spec? : TokenType → Option TypeSpec
  | any => some .any
  | kind k => some (.kind k)
  | oneOf values => some (.oneOf values.keys)
  | predicate _ _ => none
  | union parts => unionSpec? parts Table.empty

def unionSpec? : List TokenType → KeySet Value → Option TypeSpec
  | [], values => some (.oneOf values.keys)
  | t :: l, values =>
    match spec? t with
    | none => none
    | some .any => some .any
    | some (.oneOf more) => unionSpec? l (more.foldl KeySet.add values)
    | some (.kind _) => none

end

def unite (left right : TokenType) : TokenType :=
  if left.spec? = some .any then left
  else if right.spec? = some .any then right
  else union [left, right]

mutual

def debugText : TokenType → String
  | any => "AnyToken"
  | kind k => "KindOf(" ++ k.tag ++ ")"
  | oneOf values => "OneOf(\x7b" ++ ", ".intercalate (values.keys.map Value.text) ++ "\x7d)"
  | predicate name _ => "Predicate(" ++ name ++ ")"
  | union parts => "Union([" ++ ", ".intercalate (debugTexts parts) ++ "])"

def debugTexts : List TokenType → List String
  | [] => []
  | t :: l => debugText t :: debugTexts l

end

end TokenType

end ColouredPetri
