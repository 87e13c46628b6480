import ColouredPetri.Net.Firing
import ColouredPetri.StateGraph.Numbered

/-!
State graphs: the markings that a net reaches, numbered in the order in which they are found, and
the firings between them. A net moves along with the exploration and stands at the current state.
-/

namespace ColouredPetri

structure Firing where
  transition : String
  mode : Binding
  deriving DecidableEq, Inhabited

namespace Firing

def text (f : Firing) : String := f.transition ++ " " ++ f.mode.text

def order : Firing → Firing → Ordering := compareLex (compareOn transition) (compareOn mode)

instance : Ord Firing := ⟨order⟩

instance : Std.TransOrd Firing :=
  inferInstanceAs (Std.TransCmp (compareLex (compareOn transition) (compareOn mode)))

theorem eq_of_order {f g : Firing} (h : order f g = .eq) : f = g := by
  obtain ⟨h₁, h₂⟩ := Ordering.then_eq_eq.1 h
  obtain ⟨t, m⟩ := f
  obtain ⟨u, n⟩ := g
  cases Std.LawfulEqCmp.eq_of_compare (show compare t u = .eq from h₁)
  cases Std.LawfulEqCmp.eq_of_compare (show compare m n = .eq from h₂)
  rfl

instance : Std.LawfulEqOrd Firing where
  compare_self {f} := @Std.ReflCmp.compare_self Firing compare inferInstance f
  eq_of_compare := eq_of_order

end Firing

def sumOver {α : Type} (f : α → Nat) : List α → Nat
  | [] => 0
  | a :: l => f a + sumOver f l

abbrev Neighbours := Table Nat (KeySet Firing)

namespace Neighbours

def addLabel (n : Neighbours) (s : Nat) (f : Firing) : Neighbours :=
  n.insert s (KeySet.add ((n.get? s).getD Table.empty) f)

def toList (n : Neighbours) : List (Nat × Firing) :=
  n.entries.flatMap fun e => e.2.keys.map (e.1, ·)

def degree (n : Neighbours) : Nat := sumOver Table.size n.values

end Neighbours

structure ExploreConfig where
  stateLimit : Option Nat
  parallelModes : Bool
  deriving DecidableEq, Inhabited

/-- A partly explored state graph. States on `todo` wait in the order of their numbers, and those in
`done` have all their successors. A state that was removed has no marking any more; `index` finds
the others by their markings. Each edge is kept at both of its ends. -/
structure StateGraph where
  net : Net
  markings : Numbered (Option Marking)
  index : Table Marking Nat
  forward : Numbered Neighbours
  backward : Numbered Neighbours
  todo : List Nat
  done : KeySet Nat
  deadlocks : KeySet Nat
  removed : KeySet Nat
  current : Nat
  config : ExploreConfig
  truncated : Bool
  deriving Inhabited

namespace StateGraph

def blank (net : Net) (config : ExploreConfig) : StateGraph where
  net := net
  markings := Numbered.empty
  index := Table.empty
  forward := Numbered.empty
  backward := Numbered.empty
  todo := []
  done := Table.empty
  deadlocks := Table.empty
  removed := Table.empty
  current := 0
  config := config
  truncated := false

def addState (g : StateGraph) (m : Marking) : StateGraph :=
  { g with
    markings := g.markings.push (some m)
    index := g.index.insert m g.markings.next
    forward := g.forward.push Table.empty
    backward := g.backward.push Table.empty
    todo := g.todo ++ [g.markings.next] }

def addEdge (g : StateGraph) (source target : Nat) (label : Firing) : StateGraph :=
  { g with
    forward := g.forward.modify source fun n => n.addLabel target label
    backward := g.backward.modify target fun n => n.addLabel source label }

def ofNet (net : Net) (config : ExploreConfig) : StateGraph :=
  (blank net config).addState net.marking

def marking? (g : StateGraph) (s : Nat) : Option Marking := (g.markings.get? s).join

def isRemoved (g : StateGraph) (s : Nat) : Bool := g.removed.contains s

def states (g : StateGraph) : List (Nat × Marking) :=
  g.markings.entries.filterMap fun e => e.2.map (e.1, ·)

def stateOf? (g : StateGraph) (m : Marking) : Option Nat := g.index.get? m

def contains (g : StateGraph) (m : Marking) : Bool := (g.stateOf? m).isSome

def known (g : StateGraph) (s : Nat) : Except Error Marking :=
  match g.marking? s with
  | some m => .ok m
  | none => .error (.structural (.unknownState s))

def size (g : StateGraph) : Nat := g.done.size + g.todo.length

def isEmpty (g : StateGraph) : Bool := g.size == 0

def isCompleted (g : StateGraph) : Bool := g.todo.isEmpty

/-- The state at which the net stands, or a substitute for it if that state was removed. -/
def currentState (g : StateGraph) : Except Error Nat :=
  if g.isRemoved g.current then
    match g.todo, g.done.keys with
    | s :: _, _ => .ok s
    | [], s :: _ => .ok s
    | [], [] => .error (.structural .noStates)
  else .ok g.current

def limitReached (g : StateGraph) : Bool :=
  match g.config.stateLimit with
  | some limit => limit ≤ g.index.size
  | none => false

def neighbours (sides : Numbered Neighbours) (s : Nat) : Neighbours :=
  (sides.get? s).getD Table.empty

def successorsOf (g : StateGraph) (s : Nat) : List (Nat × Firing) :=
  (neighbours g.forward s).toList

def predecessorsOf (g : StateGraph) (s : Nat) : List (Nat × Firing) :=
  (neighbours g.backward s).toList

def predecessors (g : StateGraph) (s : Nat) : Except Error (List (Nat × Firing)) := do
  let _ ← g.known s
  return g.predecessorsOf s

def edgeCount (g : StateGraph) : Nat := sumOver Neighbours.degree g.forward.items

def unlink (s : Nat) (others : List Nat) (sides : Numbered Neighbours) : Numbered Neighbours :=
  others.foldl (fun acc t => acc.modify t fun n => n.erase s) sides

def dropEdges (g : StateGraph) (s : Nat) : StateGraph :=
  let into := (neighbours g.backward s).keys
  let g := { g with
    backward := g.backward.set s Table.empty
    forward := unlink s into g.forward }
  let out := (neighbours g.forward s).keys
  { g with
    forward := g.forward.set s Table.empty
    backward := unlink s out g.backward }

def forget (g : StateGraph) (s : Nat) (m : Marking) : StateGraph :=
  dropEdges { g with
    removed := KeySet.add g.removed s
    done := g.done.erase s
    deadlocks := g.deadlocks.erase s
    todo := g.todo.filter (· != s)
    markings := g.markings.set s none
    index := g.index.erase m } s

end StateGraph

end ColouredPetri
