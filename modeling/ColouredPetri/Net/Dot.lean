import ColouredPetri.Net.Basic

namespace ColouredPetri

namespace Dot

def escapeLabel (s : String) : String :=
  String.join (s.toList.map fun c =>
    if c = '"' then "\\\""
    else if c = '\\' then "\\\\"
    else if c = '\n' then "\\n"
    else c.toString)

end Dot

namespace Net

open Dot

def placeLine (index : Nat) (p : Place) : String :=
  "    place_" ++ toString index ++ " [label=\"" ++ escapeLabel p.name ++ "\\n" ++
    escapeLabel p.tokens.text ++ "\", shape=circle, style=filled, fillcolor=\"#e3f2fd\"];\n"

def transitionLabel (t : Transition) : String :=
  if t.guard.isTrue then escapeLabel t.name
  else escapeLabel t.name ++ "\\n[" ++ escapeLabel t.guard.source ++ "]"

def transitionLine (index : Nat) (t : Transition) : String :=
  "    trans_" ++ toString index ++ " [label=\"" ++ transitionLabel t ++
    "\", shape=box, style=filled, fillcolor=\"#ffe0b2\"];\n"

def arcLine (source target : String) (arc : Arc) : String :=
  "    " ++ source ++ " -> " ++ target ++ " [label=\"" ++ escapeLabel arc.text ++ "\"];\n"

def placeNode (net : Net) (name : String) : Option String :=
  (net.placeMap.findIdx? (·.1 == name)).map fun i => "place_" ++ toString i

def arcLines (net : Net) (index : Nat) (t : Transition) : String :=
  let trans := "trans_" ++ toString index
  String.join (t.inputs.filterMap fun e => (net.placeNode e.1).map (arcLine · trans e.2)) ++
    String.join (t.outputs.filterMap fun e => (net.placeNode e.1).map (arcLine trans · e.2))

def dot (net : Net) : String :=
  "digraph \"" ++ escapeLabel net.name ++ "\" \x7b\n" ++
    "    rankdir=LR;\n" ++
    "    node [fontname=\"Helvetica\"];\n" ++
    String.join (net.places.mapIdx placeLine) ++
    String.join (net.transitions.mapIdx transitionLine) ++
    String.join (net.transitions.mapIdx net.arcLines) ++
    "\x7d\n"

end Net

end ColouredPetri
