import ColouredPetri.Marking
import ColouredPetri.Place
import ColouredPetri.Transition

/-!
Coloured nets: places and transitions in the order in which they were added, sharing one space of
names, and globals that all expressions see. A node is found at a key, next to which it has a name
of its own.
-/

namespace ColouredPetri

structure Net where
  name : String
  placeMap : List (String × Place)
  transitionMap : List (String × Transition)
  globals : Binding
  deriving Inhabited

inductive Node where
  | place (place : Place)
  | transition (transition : Transition)

namespace Net

def empty (name : String) : Net := ⟨name, [], [], Table.empty⟩

def places (net : Net) : List Place := net.placeMap.map Prod.snd

def transitions (net : Net) : List Transition := net.transitionMap.map Prod.snd

def place? (net : Net) (name : String) : Option Place := net.placeMap.lookup name

def transition? (net : Net) (name : String) : Option Transition := net.transitionMap.lookup name

def hasPlace (net : Net) (name : String) : Bool := (net.place? name).isSome

def hasTransition (net : Net) (name : String) : Bool := (net.transition? name).isSome

def hasNode (net : Net) (name : String) : Bool := net.hasPlace name || net.hasTransition name

def place (net : Net) (name : String) : Except Error Place :=
  match net.place? name with
  | some p => .ok p
  | none => .error (.structural (.nodeNotFound .place name))

def transition (net : Net) (name : String) : Except Error Transition :=
  match net.transition? name with
  | some t => .ok t
  | none => .error (.structural (.nodeNotFound .transition name))

def node (net : Net) (name : String) : Except Error Node :=
  match net.place? name, net.transition? name with
  | some p, _ => .ok (.place p)
  | none, some t => .ok (.transition t)
  | none, none => .error (.structural (.nodeNotFound .node name))

def Node.pre : Node → List String
  | .place p => p.pre
  | .transition t => t.inputs.map Prod.fst

def Node.post : Node → List String
  | .place p => p.post
  | .transition t => t.outputs.map Prod.fst

def pre (net : Net) (names : List String) : Except Error (KeySet String) := do
  let nodes ← names.mapM net.node
  return KeySet.ofList (nodes.flatMap Node.pre)

def post (net : Net) (names : List String) : Except Error (KeySet String) := do
  let nodes ← names.mapM net.node
  return KeySet.ofList (nodes.flatMap Node.post)

def ensureFresh (net : Net) (name : String) : Except Error Unit :=
  if net.hasPlace name then .error (.structural (.nodeExists .place name))
  else if net.hasTransition name then .error (.structural (.nodeExists .transition name))
  else .ok ()

def marking (net : Net) : Marking :=
  Marking.ofList (net.places.map fun p => (p.name, p.tokens))

def declare (net : Net) (name : String) (value : Value) : Net :=
  { net with globals := net.globals.insert name value }

def updateKey {α : Type} (key : String) (f : α → α) (l : List (String × α)) : List (String × α) :=
  l.map fun e => if e.1 == key then (e.1, f e.2) else e

def renameKey {α : Type} (old new : String) (l : List (String × α)) : List (String × α) :=
  l.map fun e => if e.1 == old then (new, e.2) else e

def mapPlace (net : Net) (name : String) (f : Place → Place) : Net :=
  { net with placeMap := updateKey name f net.placeMap }

def mapTransition (net : Net) (name : String) (f : Transition → Transition) : Net :=
  { net with transitionMap := updateKey name f net.transitionMap }

def debugText (net : Net) : String :=
  "PetriNet \x7b name: " ++ Text.quoted net.name ++ ", places: [" ++
    ", ".intercalate (net.places.map Place.debugText) ++ "], transitions: [" ++
    ", ".intercalate (net.transitions.map Transition.debugText) ++
    "], env: Environment \x7b globals: \x7b" ++
    ", ".intercalate (net.globals.entries.map fun e => Text.quoted e.1 ++ ": " ++ e.2.text) ++
    "\x7d, .. \x7d \x7d"

end Net

end ColouredPetri
