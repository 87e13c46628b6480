import ColouredPetri.Net.Tokens

/-!
Firing. A binding is a mode of a transition if the search on the input arcs finds it; it enables
the transition if the guard holds, the tokens are there and all places accept what their arcs
move; firing then takes the input flows and puts the output flows.
-/

namespace ColouredPetri

namespace Net

def scope (net : Net) (b : Binding) : Scope := ⟨b, net.globals⟩

def allArcs (test : String → Arc → Except Error Bool) : List (String × Arc) → Except Error Bool
  | [] => return true
  | (place, arc) :: l => do
    if ← test place arc then allArcs test l else return false

def available (net : Net) (b : Binding) (place : String) (arc : Arc) : Except Error Bool := do
  let p ← net.place place
  return (← arc.flow (net.scope b)).isSubset p.tokens

def typesRespected (net : Net) (b : Binding) (place : String) (arc : Arc) : Except Error Bool := do
  let p ← net.place place
  return (p.check (← arc.tokens (net.scope b))).isOk

def check (net : Net) (t : Transition) (b : Binding) (tokens input : Bool) :
    Except Error Bool := do
  if !(← t.guard.holds (net.scope b)) then return false
  if tokens then
    if !(← allArcs (net.available b) t.inputs) then return false
  if input then
    if !(← allArcs (net.typesRespected b) t.inputs) then return false
  allArcs (net.typesRespected b) t.outputs

def activatedBy (net : Net) (t : Transition) (b : Binding) : Except Error Bool :=
  net.check t b false true

def enabledBy (net : Net) (t : Transition) (b : Binding) : Except Error Bool :=
  net.check t b true true

/-- The modes of each input arc on the tokens of its place, or `none` if an arc has no mode. -/
def inputModes (net : Net) : List (String × Arc) → Except Error (Option (List (List Binding)))
  | [] => return some []
  | (place, arc) :: l => do
    let p ← net.place place
    match arc.modes net.globals p.tokens with
    | .error e => if e.isMode then return none else throw e
    | .ok found => return (← inputModes net l).map (found :: ·)

def modesOf (net : Net) (t : Transition) : Except Error (List Binding) := do
  match ← net.inputModes t.inputs with
  | none => return []
  | some parts => keepModes (fun b => net.check t b false false) (Binding.combine parts)

def arcFlows (net : Net) (b : Binding) : List (String × Arc) → Except Error (List (String × Bag))
  | [] => return []
  | (place, arc) :: l => do
    let flow ← arc.flow (net.scope b)
    return (place, flow) :: (← arcFlows net b l)

def flowOf (net : Net) (t : Transition) (b : Binding) : Except Error (Marking × Marking) := do
  if !(← net.enabledBy t b) then throw (.firing (.notEnabled t.name b))
  let consumed ← net.arcFlows b t.inputs
  let produced ← net.arcFlows b t.outputs
  return (Marking.ofList consumed, Marking.ofList produced)

def modes (net : Net) (trans : String) : Except Error (List Binding) := do
  net.modesOf (← net.transition trans)

def enabled (net : Net) (trans : String) (b : Binding) : Except Error Bool := do
  net.enabledBy (← net.transition trans) b

def activated (net : Net) (trans : String) (b : Binding) : Except Error Bool := do
  net.activatedBy (← net.transition trans) b

def flow (net : Net) (trans : String) (b : Binding) : Except Error (Marking × Marking) := do
  net.flowOf (← net.transition trans) b

def fire (trans : String) (b : Binding) : Edit Unit := do
  let (consumed, produced) ← look fun net => net.flow trans b
  withRollback do
    consumed.entries.forM fun e => removeTokens e.1 e.2
    produced.entries.forM fun e => addTokens e.1 e.2

def allModes (net : Net) : Except Error (List (String × List Binding)) :=
  net.transitions.mapM fun t => return (t.name, ← net.modesOf t)

end Net

end ColouredPetri
