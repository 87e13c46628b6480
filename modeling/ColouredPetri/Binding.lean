import ColouredPetri.Table
import ColouredPetri.Value

/-!
Bindings of names to values. As a map on names a binding sends an unbound name to itself, and
`compose f g` is the map `g` followed by `f`.
-/

namespace ColouredPetri

abbrev Binding := Table String Value

namespace Binding

def single (name : String) (value : Value) : Binding := Table.empty.insert name value

/-- An unbound name stands for itself. -/
def apply (f : Binding) (name : String) : Value := (f.get? name).getD (.str name)

def rename (f : Binding) (name : String) : String :=
  match f.get? name with
  | some (.str target) => target
  | _ => name

def image (f : Binding) (value : Value) : Value :=
  match value.asName? with
  | some name => f.apply name
  | none => value

def compose (f g : Binding) : Binding :=
  g.entries.foldl (fun acc e => acc.insert e.1 (f.image e.2)) f

def restrict (f : Binding) (names : List String) : Binding :=
  f.filter fun name _ => names.contains name

def text (f : Binding) : String :=
  "\x7b" ++ ", ".intercalate (f.entries.map fun e => e.1 ++ " -> " ++ e.2.text) ++ "\x7d"

end Binding

end ColouredPetri
