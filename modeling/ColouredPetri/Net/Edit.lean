import ColouredPetri.Net.Basic
import ColouredPetri.Stateful

/-!
Edits of the structure of a net. An edit that fails leaves the net that it had reached: adding a
transition takes its first arcs off again when a later one is refused, and copying to several
names keeps the copies that were made.
-/

namespace ColouredPetri

/-- A change of a net that can fail, with the net that it leaves in both cases. -/
abbrev Edit (α : Type) := EStateM Error Net α

namespace Net

def insertName (l : List String) (name : String) : List String :=
  if l.contains name then l else l ++ [name]

def changePlace (name : String) (f : Place → Except Error Place) : Edit Unit := do
  let p ← look fun net => net.place name
  let p ← look fun _ => f p
  modify fun net => net.mapPlace name fun _ => p

def changeTransition {α : Type} (name : String)
    (f : Transition → Except Error (α × Transition)) : Edit α := do
  let t ← look fun net => net.transition name
  let (a, t) ← look fun _ => f t
  modify fun net => net.mapTransition name fun _ => t
  return a

def updatePlace (f : Place → Place) (name : String) : Edit Unit :=
  changePlace name fun p => return f p

def updateTransition (f : Transition → Transition) (name : String) : Edit Unit :=
  changeTransition name fun t => return ((), f t)

def addInput (place trans : String) (arc : Arc) : Edit Unit := do
  let _ ← look fun net => net.place place
  changeTransition trans fun t => return ((), ← t.addInput place arc)
  updatePlace (fun p => { p with post := insertName p.post trans }) place

def addOutput (place trans : String) (arc : Arc) : Edit Unit := do
  let _ ← look fun net => net.place place
  changeTransition trans fun t => return ((), ← t.addOutput place arc)
  updatePlace (fun p => { p with pre := insertName p.pre trans }) place

def removeInput (place trans : String) : Edit Arc := do
  let _ ← look fun net => net.place place
  let arc ← changeTransition trans fun t => t.removeInput place
  updatePlace (fun p => { p with post := p.post.erase trans }) place
  return arc

def removeOutput (place trans : String) : Edit Arc := do
  let _ ← look fun net => net.place place
  let arc ← changeTransition trans fun t => t.removeOutput place
  updatePlace (fun p => { p with pre := p.pre.erase trans }) place
  return arc

def addPlace (p : Place) : Edit Unit := do
  look fun net => net.ensureFresh p.name
  modify fun net =>
    { net with placeMap := net.placeMap ++ [(p.name, { p with pre := [], post := [] })] }

def addBare (name : String) (guard : Formula) : Edit Unit := do
  look fun net => net.ensureFresh name
  modify fun net =>
    { net with transitionMap := net.transitionMap ++ [(name, .bare name guard)] }

def removePlace (name : String) : Edit Place := do
  let p ← look fun net => net.place name
  p.pre.forM fun trans => do let _ ← removeOutput name trans
  p.post.forM fun trans => do let _ ← removeInput name trans
  let p ← look fun net => net.place name
  modify fun net => { net with placeMap := net.placeMap.filter (·.1 != name) }
  return p

def removeTransition (name : String) : Edit Transition := do
  let t ← look fun net => net.transition name
  t.inputs.forM fun e => do let _ ← removeInput e.1 name
  t.outputs.forM fun e => do let _ ← removeOutput e.1 name
  let t ← look fun net => net.transition name
  modify fun net => { net with transitionMap := net.transitionMap.filter (·.1 != name) }
  return t

def connect (name : String) (inputs outputs : List (String × Arc)) : Edit Unit := do
  inputs.forM fun e => addInput e.1 name e.2
  outputs.forM fun e => addOutput e.1 name e.2

def undoing {α β : Type} (undo : Edit β) (act : Edit α) : Edit α := fun net =>
  match act net with
  | .ok a net' => .ok a net'
  | .error e net' =>
    match undo net' with
    | .ok _ net'' => .error e net''
    | .error e' net'' => .error e' net''

def addTransition (t : Transition) : Edit Unit := do
  addBare t.name t.guard
  undoing (removeTransition t.name) (connect t.name t.inputs t.outputs)

def inputArc (net : Net) (place trans : String) : Except Error Arc := do
  match (← net.transition trans).input? place with
  | some arc => return arc
  | none => throw (.structural (.notConnected place))

def outputArc (net : Net) (place trans : String) : Except Error Arc := do
  match (← net.transition trans).output? place with
  | some arc => return arc
  | none => throw (.structural (.notConnected place))

def copyInput (source target trans : String) : Edit Unit := do
  addInput target trans (← look fun net => net.inputArc source trans)

def copyOutput (source target trans : String) : Edit Unit := do
  addOutput target trans (← look fun net => net.outputArc source trans)

def copyPlace (source : String) (targets : List String) : Edit Unit := do
  let p ← look fun net => net.place source
  targets.forM fun target => do
    addPlace (p.copyAs target)
    p.post.forM (copyInput source target)
    p.pre.forM (copyOutput source target)

def copyTransition (source : String) (targets : List String) : Edit Unit := do
  let t ← look fun net => net.transition source
  targets.forM fun target => addTransition { t with name := target }

def renameMember (old new : String) (l : List String) : List String :=
  l.map fun n => if n == old then new else n

def renamePre (old new : String) (p : Place) : Place := { p with pre := renameMember old new p.pre }

def renamePost (old new : String) (p : Place) : Place :=
  { p with post := renameMember old new p.post }

def renameInput (old new : String) (t : Transition) : Transition :=
  { t with inputs := renameKey old new t.inputs }

def renameOutput (old new : String) (t : Transition) : Transition :=
  { t with outputs := renameKey old new t.outputs }

/-- Gives a node a name that no node has: first at its neighbours, then at its key, and last in
its own record. -/
def renameNode (old new : String) : Edit Unit := do
  let net ← get
  if net.hasNode new then throw (.structural (.nodeExists .node new))
  match net.place? old, net.transition? old with
  | some p, _ =>
    p.pre.forM (updateTransition (renameOutput old new))
    p.post.forM (updateTransition (renameInput old new))
    modify fun net => { net with placeMap := renameKey old new net.placeMap }
    updatePlace (fun p => { p with name := new }) new
  | none, some t =>
    t.inputs.forM fun e => updatePlace (renamePost old new) e.1
    t.outputs.forM fun e => updatePlace (renamePre old new) e.1
    modify fun net => { net with transitionMap := renameKey old new net.transitionMap }
    updateTransition (fun t => { t with name := new }) new
  | none, none => throw (.structural (.nodeNotFound .node old))

end Net

end ColouredPetri
