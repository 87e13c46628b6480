import ColouredPetri.Net.Dot
import ColouredPetri.StateGraph.Explore

namespace ColouredPetri

structure GraphStats where
  stateCount : Nat
  edgeCount : Nat
  pending : Nat
  deadlockCount : Nat
  truncated : Bool
  deriving DecidableEq, Inhabited

structure StateRecord where
  id : Nat
  marking : Marking
  successors : List (Nat × Firing)
  deriving DecidableEq, Inhabited

structure GraphSummary where
  net : String
  stats : GraphStats
  states : List StateRecord
  deriving DecidableEq, Inhabited

namespace StateGraph

def stats (g : StateGraph) : GraphStats :=
  ⟨g.size, g.edgeCount, g.todo.length, g.deadlocks.size, g.truncated⟩

def summary (g : StateGraph) : GraphSummary :=
  ⟨g.net.name, g.stats, g.states.map fun e => ⟨e.1, e.2, g.successorsOf e.1⟩⟩

def nodes (g : StateGraph) : List Nat := g.states.map Prod.fst

def arrows (g : StateGraph) : List (Nat × Nat × Firing) :=
  g.nodes.flatMap fun s => (g.successorsOf s).filterMap fun e =>
    match g.nodes.idxOf? s, g.nodes.idxOf? e.1 with
    | some i, some j => some (i, j, e.2)
    | _, _ => none

def nodeLine (g : StateGraph) (index : Nat) (state : Nat × Marking) : String :=
  "    " ++ toString index ++ " [ label=\"s" ++ toString state.1 ++ "\\n" ++
    Dot.escapeLabel state.2.text ++ "\"" ++
    (if g.deadlocks.contains state.1 then ", style=filled, fillcolor=\"#ffcdd2\"" else "") ++ "]\n"

def arrowLine (labels : Bool) (arrow : Nat × Nat × Firing) : String :=
  "    " ++ toString arrow.1 ++ " -> " ++ toString arrow.2.1 ++ " [ " ++
    (if labels then "label=\"" ++ Dot.escapeLabel arrow.2.2.text ++ "\"" else "") ++ "]\n"

def dot (g : StateGraph) (labels : Bool) : String :=
  "digraph \x7b\n" ++ String.join (g.states.mapIdx g.nodeLine) ++
    String.join (g.arrows.map (arrowLine labels)) ++ "\x7d\n"

end StateGraph

end ColouredPetri
