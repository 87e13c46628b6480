import ColouredPetri.Net.Edit

/-!
Descriptions of nets: what can be written down of a net and built again. Types without a
specification are described as accepting everything.
-/

namespace ColouredPetri

structure PlaceDescription where
  name : String
  tokens : Bag
  type : TypeSpec
  deriving DecidableEq, Inhabited

structure TransitionDescription where
  name : String
  guard : Formula
  inputs : List (String × Arc)
  outputs : List (String × Arc)
  deriving DecidableEq, Inhabited

structure NetDescription where
  name : String
  globals : Binding
  places : List PlaceDescription
  transitions : List TransitionDescription
  deriving DecidableEq, Inhabited

namespace PlaceDescription

def ofPlace (p : Place) : PlaceDescription :=
  ⟨p.name, p.tokens, p.type.spec?.getD .any⟩

def build (d : PlaceDescription) : Except TokenError Place :=
  Place.typed d.name d.tokens.toList d.type.build

end PlaceDescription

namespace TransitionDescription

def ofTransition (t : Transition) : TransitionDescription :=
  ⟨t.name, t.guard, t.inputs, t.outputs⟩

end TransitionDescription

namespace NetDescription

def ofNet (net : Net) : NetDescription :=
  ⟨net.name, net.globals, net.places.map PlaceDescription.ofPlace,
    net.transitions.map TransitionDescription.ofTransition⟩

def addDescribedPlace (d : PlaceDescription) : Edit Unit := do
  let p ← look fun _ => d.build
  Net.addPlace p

def addDescribedTransition (d : TransitionDescription) : Edit Unit := do
  Net.addBare d.name d.guard
  Net.connect d.name d.inputs d.outputs

def construct (d : NetDescription) : Edit Unit := do
  d.places.forM addDescribedPlace
  d.transitions.forM addDescribedTransition

def build (d : NetDescription) : Except Error Net :=
  match d.construct ⟨d.name, [], [], d.globals⟩ with
  | .ok _ net => .ok net
  | .error e _ => .error e

end NetDescription

end ColouredPetri
