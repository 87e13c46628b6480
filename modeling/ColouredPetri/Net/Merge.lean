import ColouredPetri.Net.Edit

namespace ColouredPetri

namespace Net

def groupInsert {α : Type} (key : String) (a : α) :
    List (String × List α) → List (String × List α)
  | [] => [(key, [a])]
  | (k, group) :: l =>
    if k == key then (k, group ++ [a]) :: l else (k, group) :: groupInsert key a l

def groups {α : Type} (l : List (String × α)) : List (String × List α) :=
  l.foldl (fun acc e => groupInsert e.1 e.2 acc) []

def flatten : List Arc → List Arc
  | [] => []
  | .multi parts :: l => parts ++ flatten l
  | a :: l => a :: flatten l

def joinArcs (arcs : List Arc) : Except StructuralError Arc :=
  match flatten arcs with
  | [arc] => .ok arc
  | parts => Arc.several parts

def inputsOf (net : Net) (places : List Place) : Except Error (List (String × Arc)) := do
  let arcs ← places.mapM fun p => p.post.mapM fun trans =>
    return (trans, ← net.inputArc p.name trans)
  return arcs.flatten

def outputsOf (net : Net) (places : List Place) : Except Error (List (String × Arc)) := do
  let arcs ← places.mapM fun p => p.pre.mapM fun trans =>
    return (trans, ← net.outputArc p.name trans)
  return arcs.flatten

def mergedPlace (target : String) (first : Place) (rest : List Place) : Place :=
  rest.foldl
    (fun acc p => { acc with type := acc.type.unite p.type, tokens := acc.tokens + p.tokens })
    (first.copyAs target)

def addJointInput (place trans : String) (arcs : List Arc) : Edit Unit := do
  addInput place trans (← look fun _ => joinArcs arcs)

def addJointOutput (place trans : String) (arcs : List Arc) : Edit Unit := do
  addOutput place trans (← look fun _ => joinArcs arcs)

def mergePlaces (target : String) (sources : List String) : Edit Unit := do
  let places ← look fun net => sources.mapM net.place
  match places with
  | [] => throw (.structural (.emptyMerge target))
  | first :: rest => do
    addPlace (mergedPlace target first rest)
    let inputs ← look fun net => return groups (← net.inputsOf places)
    let outputs ← look fun net => return groups (← net.outputsOf places)
    inputs.forM fun e => addJointInput target e.1 e.2
    outputs.forM fun e => addJointOutput target e.1 e.2

def jointGuard (transitions : List Transition) : Formula :=
  transitions.foldl (fun acc t => acc.and t.guard) Formula.truth

def mergeTransitions (target : String) (sources : List String) : Edit Unit := do
  let transitions ← look fun net => sources.mapM net.transition
  if transitions.isEmpty then throw (.structural (.emptyMerge target))
  addBare target (jointGuard transitions)
  (groups (transitions.flatMap Transition.inputs)).forM fun e => addJointInput e.1 target e.2
  (groups (transitions.flatMap Transition.outputs)).forM fun e => addJointOutput e.1 target e.2

end Net

end ColouredPetri
