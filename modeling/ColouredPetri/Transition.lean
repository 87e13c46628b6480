import ColouredPetri.Arc.Modes

/-!
Transitions: a guard, and arcs from and to places. A transition has at most one arc of each
direction for a place, and lists them in the order in which they were added.
-/

namespace ColouredPetri

structure Transition where
  name : String
  guard : Formula
  inputs : List (String × Arc)
  outputs : List (String × Arc)
  deriving DecidableEq, Inhabited

namespace Transition

def bare (name : String) (guard : Formula) : Transition := ⟨name, guard, [], []⟩

def input? (t : Transition) (place : String) : Option Arc := t.inputs.lookup place

def output? (t : Transition) (place : String) : Option Arc := t.outputs.lookup place

def addInput (t : Transition) (place : String) (arc : Arc) : Except StructuralError Transition :=
  if (t.input? place).isSome then .error (.alreadyConnected place)
  else
    match arc.validate with
    | .error e => .error e
    | .ok _ =>
      if arc.inputAllowed then .ok { t with inputs := t.inputs ++ [(place, arc)] }
      else .error (.inputNotAllowed arc.kindName)

def addOutput (t : Transition) (place : String) (arc : Arc) : Except StructuralError Transition :=
  if (t.output? place).isSome then .error (.alreadyConnected place)
  else
    match arc.validate with
    | .error e => .error e
    | .ok _ => .ok { t with outputs := t.outputs ++ [(place, arc)] }

def withoutArc (arcs : List (String × Arc)) (place : String) : List (String × Arc) :=
  arcs.filter fun e => e.1 != place

def removeInput (t : Transition) (place : String) :
    Except StructuralError (Arc × Transition) :=
  match t.input? place with
  | none => .error (.notConnected place)
  | some arc => .ok (arc, { t with inputs := withoutArc t.inputs place })

def removeOutput (t : Transition) (place : String) :
    Except StructuralError (Arc × Transition) :=
  match t.output? place with
  | none => .error (.notConnected place)
  | some arc => .ok (arc, { t with outputs := withoutArc t.outputs place })

def arcVars (arcs : List (String × Arc)) : KeySet String := Arc.varsAll (arcs.map Prod.snd)

def vars (t : Transition) : KeySet String :=
  (t.guard.knownVars.union (arcVars t.inputs)).union (arcVars t.outputs)

def unboundOutputVars (t : Transition) (globals : Binding) : KeySet String :=
  ((t.guard.knownVars.union (arcVars t.outputs)).diff (arcVars t.inputs)).filter
    fun name _ => !globals.contains name

def renameArcs (r : Binding) : List (String × Arc) → Except Error (List (String × Arc))
  | [] => return []
  | (place, arc) :: l => do
    let arc ← arc.rename r
    return (place, arc) :: (← renameArcs r l)

def rename (t : Transition) (r : Binding) : Except Error Transition := do
  let guard ← t.guard.rename r
  let inputs ← renameArcs r t.inputs
  let outputs ← renameArcs r t.outputs
  return ⟨t.name, guard, inputs, outputs⟩

def arcsDebugText (arcs : List (String × Arc)) : String :=
  "\x7b" ++ ", ".intercalate (arcs.map fun e => Text.quoted e.1 ++ ": " ++ e.2.debugText) ++ "\x7d"

def debugText (t : Transition) : String :=
  "Transition \x7b name: " ++ Text.quoted t.name ++ ", guard: " ++ t.guard.debugText ++
    ", inputs: " ++ arcsDebugText t.inputs ++ ", outputs: " ++ arcsDebugText t.outputs ++ " \x7d"

end Transition

end ColouredPetri
