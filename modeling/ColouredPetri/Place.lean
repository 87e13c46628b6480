import ColouredPetri.Bag
import ColouredPetri.TokenType

namespace ColouredPetri

/-- A place. `pre` names the transitions that put tokens on it and `post` those that read it, both
in the order in which they were connected. -/
structure Place where
  name : String
  tokens : Bag
  type : TokenType
  pre : List String
  post : List String
  deriving Inhabited

namespace Place

def check (p : Place) (values : List Value) : Except TokenError Unit :=
  match values.find? fun v => !p.type.accepts v with
  | some v => .error (.forbidden p.name v)
  | none => .ok ()

def add (p : Place) (values : List Value) : Except TokenError Place :=
  match p.check values with
  | .error e => .error e
  | .ok _ => .ok { p with tokens := p.tokens.addAll values 1 }

def remove (p : Place) (values : List Value) : Except TokenError Place :=
  match p.tokens.remove values 1 with
  | .error e => .error e
  | .ok tokens => .ok { p with tokens := tokens }

def reset (p : Place) (values : List Value) : Except TokenError Place :=
  let tokens := Bag.ofList values
  match p.check tokens.toList with
  | .error e => .error e
  | .ok _ => .ok { p with tokens := tokens }

def clear (p : Place) : Place := { p with tokens := Bag.empty }

def untyped (name : String) (values : List Value) : Place :=
  ⟨name, Bag.ofList values, .any, [], []⟩

def typed (name : String) (values : List Value) (type : TokenType) : Except TokenError Place :=
  add ⟨name, Bag.empty, type, [], []⟩ values

def copyAs (p : Place) (name : String) : Place := ⟨name, p.tokens, p.type, [], []⟩

def debugText (p : Place) : String :=
  "Place \x7b name: " ++ Text.quoted p.name ++ ", tokens: " ++ p.tokens.text ++ ", type: " ++
    p.type.debugText ++ " \x7d"

end Place

end ColouredPetri
