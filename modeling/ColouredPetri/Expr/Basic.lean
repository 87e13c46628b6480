import ColouredPetri.Value

namespace ColouredPetri

inductive ArithOp where
  | add
  | sub
  | mul
  | div
  | rem
  deriving DecidableEq, Inhabited

inductive CompareOp where
  | eq
  | ne
  | lt
  | le
  | gt
  | ge
  deriving DecidableEq, Inhabited

/-- Division rounds down; its two spellings are one operator. Comparisons do not chain. -/
inductive Expr where
  | lit (value : Value)
  | name (name : String)
  | tuple (items : List Expr)
  | neg (operand : Expr)
  | arith (op : ArithOp) (left right : Expr)
  | compare (op : CompareOp) (left right : Expr)
  | and (left right : Expr)
  | or (left right : Expr)
  | not (operand : Expr)

instance : Inhabited Expr := ⟨.lit .dot⟩

def ArithOp.word : ArithOp → String
  | add => "Add"
  | sub => "Sub"
  | mul => "Mul"
  | div => "Div"
  | rem => "Rem"

def CompareOp.word : CompareOp → String
  | eq => "Eq"
  | ne => "Ne"
  | lt => "Lt"
  | le => "Le"
  | gt => "Gt"
  | ge => "Ge"

end ColouredPetri
