import ColouredPetri.Bag
import ColouredPetri.Expr.Words

namespace ColouredPetri

namespace Value

def arith (op : ArithOp) (left right : Value) : Except EvalError Value :=
  match op, left, right with
  | op, int a, int b =>
    match Word.arith op a b with
    | .ok n => .ok (int n)
    | .error e => .error e
  | .add, str a, str b => .ok (str (a ++ b))
  | .add, tuple a, tuple b => .ok (tuple (a ++ b))
  | .add, bag a, bag b => .ok (Bag.ofPairs a + Bag.ofPairs b).toValue
  | op, left, right => .error (.operands op left.kind right.kind)

def ordered (left right : Value) (holds : Ordering → Bool) : Except EvalError Value :=
  if left.kind = right.kind then .ok (bool (holds (compare left right)))
  else .error (.unordered left.kind right.kind)

def compareBy (op : CompareOp) (left right : Value) : Except EvalError Value :=
  match op with
  | .eq => .ok (bool (left = right))
  | .ne => .ok (bool (left ≠ right))
  | .lt => ordered left right Ordering.isLT
  | .le => ordered left right Ordering.isLE
  | .gt => ordered left right Ordering.isGT
  | .ge => ordered left right Ordering.isGE

def negate : Value → Except EvalError Value
  | int a =>
    match Word.neg a with
    | .ok n => .ok (int n)
    | .error e => .error e
  | a => .error (.negation a.kind)

end Value

structure Scope where
  binding : Binding
  globals : Binding
  deriving Inhabited

def Scope.lookup? (s : Scope) (name : String) : Option Value :=
  match s.binding.get? name with
  | some value => some value
  | none => s.globals.get? name

namespace Expr

mutual

/-- `and` and `or` give the operand that decides, and leave out the other one if they can. -/
def eval (s : Scope) : Expr → Except EvalError Value
  | lit value => .ok value
  | name n =>
    match s.lookup? n with
    | some value => .ok value
    | none => .error (.unboundName n)
  | tuple items =>
    match evalItems s items with
    | .ok values => .ok (.tuple values)
    | .error e => .error e
  | neg operand =>
    match eval s operand with
    | .ok a => a.negate
    | .error e => .error e
  | arith op left right =>
    match eval s left with
    | .error e => .error e
    | .ok a =>
      match eval s right with
      | .error e => .error e
      | .ok b => Value.arith op a b
  | compare op left right =>
    match eval s left with
    | .error e => .error e
    | .ok a =>
      match eval s right with
      | .error e => .error e
      | .ok b => Value.compareBy op a b
  | and left right =>
    match eval s left with
    | .error e => .error e
    | .ok a => if a.truthy then eval s right else .ok a
  | or left right =>
    match eval s left with
    | .error e => .error e
    | .ok a => if a.truthy then .ok a else eval s right
  | not operand =>
    match eval s operand with
    | .ok a => .ok (.bool !a.truthy)
    | .error e => .error e

def evalItems (s : Scope) : List Expr → Except EvalError (List Value)
  | [] => .ok []
  | e :: l =>
    match eval s e with
    | .error e => .error e
    | .ok a =>
      match evalItems s l with
      | .error e => .error e
      | .ok as => .ok (a :: as)

end

section Steps

variable (s : Scope)

theorem eval_tuple (items : List Expr) :
    eval s (tuple items) = (do return .tuple (← evalItems s items)) := by
  rw [eval]
  cases evalItems s items <;> rfl

theorem eval_neg (e : Expr) : eval s (neg e) = (do (← eval s e).negate) := by
  rw [eval]
  cases eval s e <;> rfl

theorem eval_arith (op : ArithOp) (l r : Expr) :
    eval s (arith op l r) = (do Value.arith op (← eval s l) (← eval s r)) := by
  rw [eval]
  cases eval s l <;> cases eval s r <;> rfl

theorem eval_compare (op : CompareOp) (l r : Expr) :
    eval s (compare op l r) = (do Value.compareBy op (← eval s l) (← eval s r)) := by
  rw [eval]
  cases eval s l <;> cases eval s r <;> rfl

theorem eval_and (l r : Expr) :
    eval s (and l r) = (do let a ← eval s l; if a.truthy then eval s r else return a) := by
  rw [eval]
  cases eval s l <;> rfl

theorem eval_or (l r : Expr) :
    eval s (or l r) = (do let a ← eval s l; if a.truthy then return a else eval s r) := by
  rw [eval]
  cases eval s l <;> rfl

theorem eval_not (e : Expr) : eval s (not e) = (do return .bool !(← eval s e).truthy) := by
  rw [eval]
  cases eval s e <;> rfl

theorem evalItems_cons (e : Expr) (l : List Expr) :
    evalItems s (e :: l) = (do return (← eval s e) :: (← evalItems s l)) := by
  rw [evalItems]
  cases eval s e <;> cases evalItems s l <;> rfl

end Steps

end Expr

end ColouredPetri
