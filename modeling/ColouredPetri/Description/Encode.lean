import ColouredPetri.Description
import ColouredPetri.Document.Doc
import ColouredPetri.StateGraph.Summary

namespace ColouredPetri

mutual

def Value.doc : Value → Doc
  | .dot => .name "Dot"
  | .bool b => .variant "Bool" (.bool b)
  | .int n => .variant "Int" (.int n.toInt)
  | .str s => .variant "Str" (.str s)
  | .tuple items => .variant "Tuple" (.list (Value.docs items))
  | .bag counts => .variant "Bag" (.list (Value.countDocs counts))

def Value.docs : List Value → List Doc
  | [] => []
  | v :: l => v.doc :: Value.docs l

def Value.countDocs : List (Value × Nat) → List Doc
  | [] => []
  | (v, n) :: l => .tuple [v.doc, .int n] :: Value.countDocs l

end

def Bag.doc (b : Bag) : Doc := .list (Value.countDocs b.pairs)

def TypeSpec.doc : TypeSpec → Doc
  | .any => .name "Any"
  | .kind k => .variant "Kind" (.name k.tag)
  | .oneOf values => .variant "OneOf" (.list (Value.docs values))

mutual

def Arc.doc : Arc → Doc
  | .value v => .variant "Value" v.doc
  | .var name => .variant "Variable" (.str name)
  | .formula f => .variant "Expression" (.str f.source)
  | .multi parts => .variant "MultiArc" (.list (Arc.docs parts))
  | .tuple parts => .variant "Tuple" (.list (Arc.docs parts))
  | .test inner => .variant "Test" inner.doc
  | .inhibitor inner condition =>
    .variantRecord "Inhibitor" [("inner", inner.doc), ("condition", .str condition.source)]
  | .flush inner => .variant "Flush" inner.doc

def Arc.docs : List Arc → List Doc
  | [] => []
  | a :: l => a.doc :: Arc.docs l

end

def Binding.doc (b : Binding) : Doc := .map (b.entries.map fun e => (e.1, e.2.doc))

def Marking.doc (m : Marking) : Doc := .map (m.entries.map fun e => (e.1, e.2.doc))

def Binding.recordDoc (b : Binding) : Doc := .record [("bindings", b.doc)]

def PlaceDescription.doc (d : PlaceDescription) : Doc :=
  .record [("name", .str d.name), ("tokens", d.tokens.doc), ("token_type", d.type.doc)]

def arcsDoc (arcs : List (String × Arc)) : Doc :=
  .list (arcs.map fun e => .tuple [.str e.1, e.2.doc])

def TransitionDescription.doc (d : TransitionDescription) : Doc :=
  .record [("name", .str d.name), ("guard", .str d.guard.source), ("inputs", arcsDoc d.inputs),
    ("outputs", arcsDoc d.outputs)]

def NetDescription.doc (d : NetDescription) : Doc :=
  .record [("name", .str d.name), ("globals", d.globals.doc),
    ("places", .list (d.places.map PlaceDescription.doc)),
    ("transitions", .list (d.transitions.map TransitionDescription.doc))]

def Firing.doc (f : Firing) : Doc :=
  .record [("transition", .str f.transition), ("mode", f.mode.recordDoc)]

def GraphStats.doc (s : GraphStats) : Doc :=
  .record [("state_count", .int s.stateCount), ("edge_count", .int s.edgeCount),
    ("pending", .int s.pending), ("deadlock_count", .int s.deadlockCount),
    ("truncated", .bool s.truncated)]

def StateRecord.doc (r : StateRecord) : Doc :=
  .record [("id", .int r.id), ("marking", r.marking.doc),
    ("successors", .list (r.successors.map fun e => .tuple [.int e.1, e.2.doc]))]

def GraphSummary.doc (s : GraphSummary) : Doc :=
  .record [("net", .str s.net), ("stats", s.stats.doc),
    ("states", .list (s.states.map StateRecord.doc))]

end ColouredPetri
