import ColouredPetri.Document.Toml
import ColouredPetri.StateGraph.Explore

namespace ColouredPetri

structure Settings where
  stateLimit : Option Nat := none
  parallelModes : Bool := false
  labelledEdges : Bool := true
  dotFile : Option String := none
  summaryFile : Option String := none
  deriving DecidableEq, Inhabited

namespace Settings

def exploreConfig (s : Settings) : ExploreConfig := ⟨s.stateLimit, s.parallelModes⟩

def limit? : Toml → Option (Option Nat)
  | .int n => if 0 ≤ n ∧ n < UInt64.size then some (some n.toNat) else none
  | _ => none

def flag? : Toml → Option Bool
  | .bool b => some b
  | _ => none

def file? : Toml → Option (Option String)
  | .str s => some (some s)
  | _ => none

def entryOr {α : Type} (read? : Toml → Option α) (absent : α) (entries : Toml.Entries)
    (key : String) : Option α :=
  match entries.lookup key with
  | none => some absent
  | some v => read? v

def ofEntries? (entries : Toml.Entries) : Option Settings := do
  let stateLimit ← entryOr limit? none entries "state_limit"
  let parallelModes ← entryOr flag? false entries "parallel_modes"
  let labelledEdges ← entryOr flag? true entries "include_edges_in_dot"
  let dotFile ← entryOr file? none entries "dot_output"
  let summaryFile ← entryOr file? none entries "json_output"
  return ⟨stateLimit, parallelModes, labelledEdges, dotFile, summaryFile⟩

def ofText? (text : String) : Option Settings := (Toml.ofText? text).bind ofEntries?

end Settings

end ColouredPetri
