import ColouredPetri.Binding
import ColouredPetri.Expr.Basic

namespace ColouredPetri

inductive NodeKind where
  | place
  | transition
  | node
  deriving DecidableEq, Inhabited

def NodeKind.word : NodeKind → String
  | place => "place"
  | transition => "transition"
  | node => "node"

inductive EvalError where
  | unboundName (name : String)
  | operands (op : ArithOp) (left right : Kind)
  | negation (operand : Kind)
  | unordered (left right : Kind)
  | malformed (source : String)
  | divisionByZero
  | overflow
  deriving DecidableEq, Inhabited

inductive DomainError where
  | unbound (name : String)
  | conflict (name : String)
  | absentPlace (place : String)
  deriving DecidableEq, Inhabited

inductive StructuralError where
  | nodeExists (kind : NodeKind) (name : String)
  | nodeNotFound (kind : NodeKind) (name : String)
  | alreadyConnected (place : String)
  | notConnected (place : String)
  | inputNotAllowed (arc : String)
  | invalidVariable (name : String)
  | missingComponents (arc : String)
  | emptyMerge (target : String)
  | unknownState (state : Nat)
  | noStates
  | stateNumbersExhausted
  deriving DecidableEq, Inhabited

inductive ModeError where
  | noMatch
  | noValue
  | noMode
  | inhibited (witness : Binding)
  | conditionFailed (binding : Binding)
  deriving DecidableEq, Inhabited

inductive TokenError where
  | forbidden (place : String) (token : Value)
  | insufficient (token : Value) (requested available : Nat)
  deriving DecidableEq, Inhabited

inductive FiringError where
  | notEnabled (transition : String) (binding : Binding)
  deriving DecidableEq, Inhabited

inductive Error where
  | eval (cause : EvalError)
  | domain (cause : DomainError)
  | structural (cause : StructuralError)
  | mode (cause : ModeError)
  | token (cause : TokenError)
  | firing (cause : FiringError)
  deriving DecidableEq, Inhabited

def Error.isMode : Error → Bool
  | mode _ => true
  | _ => false

def Error.isDomain : Error → Bool
  | domain _ => true
  | _ => false

def EvalError.message : EvalError → String
  | unboundName name => "name '" ++ name ++ "' is not defined"
  | operands op left right =>
    "type error: unsupported operand types for " ++ op.word ++ ": " ++ left.word ++ " and " ++
      right.word
  | negation operand => "type error: bad operand for unary -: " ++ operand.word
  | unordered left right => "type error: cannot order " ++ left.word ++ " and " ++ right.word
  | malformed source => "syntax error: " ++ source
  | divisionByZero => "division by zero"
  | overflow => "integer overflow"

def DomainError.message : DomainError → String
  | unbound name => "unbound variable '" ++ name ++ "'"
  | conflict name => "conflict on '" ++ name ++ "'"
  | absentPlace place => "'" ++ place ++ "' absent from the marking"

def StructuralError.message : StructuralError → String
  | nodeExists kind name => kind.word ++ " '" ++ name ++ "' exists"
  | nodeNotFound kind name => kind.word ++ " '" ++ name ++ "' not found"
  | alreadyConnected place => "already connected to '" ++ place ++ "'"
  | notConnected place => "not connected to '" ++ place ++ "'"
  | inputNotAllowed arc => "'" ++ arc ++ "' not allowed on input arcs"
  | invalidVariable name => "not a variable name '" ++ name ++ "'"
  | missingComponents arc => "missing " ++ arc ++ " components"
  | emptyMerge target => "nothing to merge into '" ++ target ++ "'"
  | unknownState state => "unknown state " ++ toString state
  | noStates => "all states removed"
  | stateNumbersExhausted => "all state numbers used"

def ModeError.message : ModeError → String
  | noMatch => "no match for value"
  | noValue => "no value to bind"
  | noMode => "no mode found"
  | inhibited witness => "inhibited by " ++ witness.text
  | conditionFailed binding => "condition not true for " ++ binding.text

def TokenError.message : TokenError → String
  | forbidden place token => "forbidden token '" ++ token.text ++ "' in place '" ++ place ++ "'"
  | insufficient token requested available =>
    "insufficient occurrences of " ++ token.text ++ ": requested " ++ toString requested ++
      ", available " ++ toString available

def FiringError.message : FiringError → String
  | notEnabled transition binding =>
    "transition '" ++ transition ++ "' not enabled for " ++ binding.text

def Error.message : Error → String
  | eval cause => cause.message
  | domain cause => cause.message
  | structural cause => cause.message
  | mode cause => cause.message
  | token cause => cause.message
  | firing cause => cause.message

instance : MonadLift (Except EvalError) (Except Error) := ⟨Except.mapError .eval⟩
instance : MonadLift (Except DomainError) (Except Error) := ⟨Except.mapError .domain⟩
instance : MonadLift (Except StructuralError) (Except Error) := ⟨Except.mapError .structural⟩
instance : MonadLift (Except ModeError) (Except Error) := ⟨Except.mapError .mode⟩
instance : MonadLift (Except TokenError) (Except Error) := ⟨Except.mapError .token⟩
instance : MonadLift (Except FiringError) (Except Error) := ⟨Except.mapError .firing⟩

end ColouredPetri
