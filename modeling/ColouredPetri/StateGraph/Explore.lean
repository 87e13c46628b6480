import ColouredPetri.StateGraph.Basic

/-!
Exploration of a state graph, first found first. A state whose successors cannot be computed goes
back to the head of the queue, so that it can be tried again.
-/

namespace ColouredPetri

abbrev Explore (α : Type) := EStateM Error StateGraph α

namespace StateGraph

def editNet {α : Type} (edit : Edit α) : Explore α := fun g =>
  match edit g.net with
  | .ok a net => .ok a { g with net := net }
  | .error e net => .error e { g with net := net }

def goto (s : Nat) : Explore Unit := do
  let s ← look fun g => if g.isRemoved s then g.currentState else .ok s
  let m ← look fun g => g.known s
  if (← get).current ≠ s then
    modify fun g => { g with current := s }
    editNet (Net.setMarking m)

def firingsBy (net : Net) (m : Marking) (trans : String) :
    List Binding → Except Error (List (Firing × Marking))
  | [] => return []
  | b :: l => do
    let (consumed, produced) ← net.flow trans b
    let left ← m.sub consumed
    return (⟨trans, b⟩, left + produced) :: (← firingsBy net m trans l)

def firingsOf (net : Net) (m : Marking) :
    List (String × List Binding) → Except Error (List (Firing × Marking))
  | [] => return []
  | (name, modes) :: l => do
    let firings ← firingsBy net m name modes
    return firings ++ (← firingsOf net m l)

def firings (s : Nat) : Explore (List (Firing × Marking)) := do
  goto s
  look fun g => do
    let m ← g.known s
    firingsOf g.net m (← g.net.allModes)

/-- Records one firing; a new marking beyond the limit is left out. -/
def record (source : Nat) (g : StateGraph) (firing : Firing × Marking) : StateGraph :=
  match g.stateOf? firing.2 with
  | some target => g.addEdge source target firing.1
  | none =>
    if g.limitReached then { g with truncated := true }
    else (g.addState firing.2).addEdge source g.markings.next firing.1

def recordAll (s : Nat) (found : List (Firing × Marking)) (g : StateGraph) : StateGraph :=
  let g := if found.isEmpty then { g with deadlocks := KeySet.add g.deadlocks s } else g
  let g := found.foldl (record s) g
  { g with done := KeySet.add g.done s }

def compute (s : Nat) : Explore Unit := fun g =>
  match firings s g with
  | .ok found g => .ok () (recordAll s found g)
  | .error e g => .error e { g with todo := s :: g.todo }

def maxStates : Nat := UInt32.size

def processWhile (go : Nat → Bool) : Nat → Explore Unit
  | 0 => throw (.structural .stateNumbersExhausted)
  | fuel + 1 => do
    match (← get).todo with
    | [] => return
    | s :: rest =>
      if go s then
        modify fun g => { g with todo := rest }
        compute s
        processWhile go fuel

def build : Explore Unit := processWhile (fun _ => true) (maxStates + 1)

def buildUntil (stop : Nat) : Explore Unit := processWhile (· ≤ stop) (maxStates + 1)

def explore : Nat → Explore Nat
  | 0 => return 0
  | limit + 1 => do
    match (← get).todo with
    | [] => return 0
    | s :: rest =>
      modify fun g => { g with todo := rest }
      compute s
      return (← explore limit) + 1

def successors (s : Nat) : Explore (List (Nat × Firing)) := do
  let _ ← look fun g => g.known s
  let current ← look currentState
  buildUntil s
  goto current
  return (← get).successorsOf s

def remove (s : Nat) : Explore Marking := do
  let m ← look fun g => g.known s
  modify fun g => g.forget s m
  if (← get).current = s then goto s
  return m

end StateGraph

abbrev Visit (ν : Type) (α : Type) := EStateM Error (StateGraph × ν) α

namespace StateGraph

variable {ν : Type}

def onGraph {α : Type} (act : Explore α) : Visit ν α := fun (g, n) =>
  match act g with
  | .ok a g => .ok a (g, n)
  | .error e g => .error e (g, n)

def onNotes {α : Type} (act : EStateM Error ν α) : Visit ν α := fun (g, n) =>
  match act n with
  | .ok a n => .ok a (g, n)
  | .error e n => .error e (g, n)

def visitState (visitor : Nat → Net → EStateM Error ν Unit) (s : Nat) : Visit ν Unit := do
  onGraph (goto s)
  let (g, _) ← get
  onNotes (visitor s g.net)

def visitQueue (visitor : Nat → Net → EStateM Error ν Unit) : Nat → Visit ν Unit
  | 0 => throw (.structural .stateNumbersExhausted)
  | fuel + 1 => do
    let (g, _) ← get
    match g.todo with
    | [] => return
    | s :: rest => do
      onGraph (modify fun g => { g with todo := rest })
      onGraph (compute s)
      visitState visitor s
      visitQueue visitor fuel

/-- Visits all states in the order of their numbers, processing those that wait, and moves the net
back to where it stood. -/
def visit (visitor : Nat → Net → EStateM Error ν Unit) : Visit ν Unit := do
  let current ← onGraph (look currentState)
  let (g, _) ← get
  g.done.keys.forM (visitState visitor)
  visitQueue visitor (maxStates + 1)
  onGraph (goto current)

end StateGraph

end ColouredPetri
