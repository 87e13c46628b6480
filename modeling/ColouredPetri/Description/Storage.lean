import ColouredPetri.Description.Format
import ColouredPetri.Files.Access

namespace ColouredPetri

inductive LoadError where
  | unreadable
  | malformed (format : Format)
  | invalid (error : Error)
  deriving DecidableEq, Inhabited

namespace NetDescription

def netOfText (f : Format) (text : String) : Except LoadError Net :=
  match f.read? text with
  | none => .error (.malformed f)
  | some d =>
    match d.build with
    | .ok net => .ok net
    | .error e => .error (.invalid e)

end NetDescription

namespace Net

variable {m : Type → Type} [Monad m]

def save (fs : FileAccess m) (path : String) (net : Net) : m Bool :=
  fs.writeAny path ((Format.ofPath path).write? (NetDescription.ofNet net).doc)

def load (fs : FileAccess m) (path : String) : m (Except LoadError Net) := do
  match ← fs.read? path with
  | none => return .error .unreadable
  | some text => return NetDescription.netOfText (Format.ofPath path) text

end Net

end ColouredPetri
