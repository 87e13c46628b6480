import ColouredPetri.Expr.Eval
import ColouredPetri.Expr.Parser
import ColouredPetri.Text.Quoted

/-!
Formulas: the source texts of guards and arc expressions, with the connectives on texts. The text
`True` is recognised without reading it.
-/

namespace ColouredPetri

structure Formula where
  source : String
  deriving DecidableEq

namespace Formula

def ofText (s : String) : Formula := ⟨Text.trimText s⟩

def truth : Formula := ⟨"True"⟩

instance : Inhabited Formula := ⟨truth⟩

def isTrue (f : Formula) : Bool := f.source == "True"

def eval (f : Formula) (s : Scope) : Except EvalError Value :=
  if f.isTrue then .ok (.bool true)
  else
    match Expr.parse f.source with
    | .ok e => e.eval s
    | .error e => .error e

def holds (f : Formula) (s : Scope) : Except EvalError Bool :=
  match f.eval s with
  | .ok a => .ok a.truthy
  | .error e => .error e

theorem holds_eq (f : Formula) (s : Scope) :
    f.holds s = (do return (← f.eval s).truthy) := by
  rw [holds]
  cases f.eval s <;> rfl

def vars (f : Formula) : Except EvalError (KeySet String) := freeNames f.source

def knownVars (f : Formula) : KeySet String :=
  match f.vars with
  | .ok names => names
  | .error _ => Table.empty

def rename (f : Formula) (r : Binding) : Except EvalError Formula :=
  match renameNames f.source r.rename with
  | .ok source => .ok ⟨source⟩
  | .error e => .error e

def and (f g : Formula) : Formula :=
  if f.isTrue then g
  else if g.isTrue then f
  else ofText ("(" ++ f.source ++ ") and (" ++ g.source ++ ")")

def or (f g : Formula) : Formula :=
  if f.isTrue || g.isTrue then truth
  else ofText ("(" ++ f.source ++ ") or (" ++ g.source ++ ")")

def not (f : Formula) : Formula := ofText ("not (" ++ f.source ++ ")")

def debugText (f : Formula) : String := "Expression(" ++ Text.quoted f.source ++ ")"

instance : Ord Formula := ⟨fun f g => compare f.source g.source⟩

end Formula

end ColouredPetri
