import ColouredPetri.Description
import ColouredPetri.Document.View

namespace ColouredPetri

namespace Decode

variable {τ : Type} (V : View τ)

def int64? (d : τ) : Option Int64 :=
  match V.int? "i64" d with
  | some n =>
    if Int64.minValue.toInt ≤ n ∧ n ≤ Int64.maxValue.toInt then some (Int64.ofInt n) else none
  | none => none

def count? (d : τ) : Option Nat :=
  match V.int? "u64" d with
  | some n => if 0 ≤ n ∧ n < UInt64.size then some n.toNat else none
  | none => none

def pair? {α β : Type} (first : τ → Option α) (second : τ → Option β) (d : τ) :
    Option (α × β) :=
  match V.tuple? d with
  | some [a, b] =>
    match first a, second b with
    | some a, some b => some (a, b)
    | _, _ => none
  | _ => none

def listOf? {α : Type} (item : τ → Option α) (d : τ) : Option (List α) :=
  match V.list? d with
  | some items => items.mapM item
  | none => none

def plain (body : Option τ) : Bool :=
  match body with
  | none => true
  | some b => V.isNothing b

def content? {α : Type} (item : τ → Option α) (body : Option τ) : Option α :=
  match body with
  | none => none
  | some b =>
    match V.content? b with
    | none => none
    | some d => item d

def value? : Nat → τ → Option Value
  | 0, _ => none
  | n + 1, d =>
    match V.variant? d with
    | some ("Dot", body) => if plain V body then some .dot else none
    | some ("Bool", body) => (content? V V.bool? body).map .bool
    | some ("Int", body) => (content? V (int64? V) body).map .int
    | some ("Str", body) => (content? V V.str? body).map .str
    | some ("Tuple", body) => (content? V (listOf? V (value? n)) body).map .tuple
    | some ("Bag", body) =>
      (content? V (listOf? V (pair? V (value? n) (count? V))) body).map fun l =>
        (Bag.ofPairs l).toValue
    | _ => none

def kind? (d : τ) : Option Kind :=
  match V.variant? d with
  | some (tag, body) => if plain V body then Kind.ofTag? tag else none
  | none => none

def maxDepth : Nat := 128

def token? (d : τ) : Option Value := value? V maxDepth d

def bag? (d : τ) : Option Bag := (listOf? V (pair? V (token? V) (count? V)) d).map Bag.ofPairs

def type? (d : τ) : Option TypeSpec :=
  match V.variant? d with
  | some ("Any", body) => if plain V body then some .any else none
  | some ("Kind", body) => (content? V (kind? V) body).map .kind
  | some ("OneOf", body) => (content? V (listOf? V (token? V)) body).map .oneOf
  | _ => none

def formula? (d : τ) : Option Formula := (V.str? d).map Formula.mk

def inhibitor? (inner : τ → Option Arc) (body : Option τ) : Option Arc :=
  match body.bind (V.record? "" ["inner", "condition"]) with
  | some [some i, some c] =>
    match inner i, formula? V c with
    | some i, some c => some (.inhibitor i c)
    | _, _ => none
  | _ => none

def arcUpTo? : Nat → τ → Option Arc
  | 0, _ => none
  | n + 1, d =>
    match V.variant? d with
    | some ("Value", body) => (content? V (token? V) body).map .value
    | some ("Variable", body) => (content? V V.str? body).map .var
    | some ("Expression", body) => (content? V (formula? V) body).map .formula
    | some ("MultiArc", body) => (content? V (listOf? V (arcUpTo? n)) body).map .multi
    | some ("Tuple", body) => (content? V (listOf? V (arcUpTo? n)) body).map .tuple
    | some ("Test", body) => (content? V (arcUpTo? n) body).map .test
    | some ("Inhibitor", body) => inhibitor? V (arcUpTo? n) body
    | some ("Flush", body) => (content? V (arcUpTo? n) body).map .flush
    | _ => none

def arc? (d : τ) : Option Arc := arcUpTo? V maxDepth d

/-- The bindings of a map; the last of several values of one name counts. -/
def binding? (d : τ) : Option Binding :=
  match V.map? d with
  | some members =>
    (members.mapM fun e => (token? V e.2).map (e.1, ·)).map Table.ofList
  | none => none

def marking? (d : τ) : Option Marking :=
  match V.map? d with
  | some members =>
    (members.mapM fun e => (bag? V e.2).map (e.1, ·)).map fun l =>
      Marking.ofList (Table.ofList l).entries
  | none => none

def optional {α : Type} (item : τ → Option α) (default : α) (d : Option τ) : Option α :=
  match d with
  | none => some default
  | some d => item d

def place? (d : τ) : Option PlaceDescription := do
  match ← V.record? "PlaceDescription" ["name", "tokens", "token_type"] d with
  | [some name, tokens, type] =>
    return ⟨← V.str? name, ← optional (bag? V) Bag.empty tokens,
      ← optional (type? V) .any type⟩
  | _ => none

def arcs? (d : τ) : Option (List (String × Arc)) := listOf? V (pair? V V.str? (arc? V)) d

def transition? (d : τ) : Option TransitionDescription := do
  match ← V.record? "TransitionDescription" ["name", "guard", "inputs", "outputs"] d with
  | [some name, guard, inputs, outputs] =>
    return ⟨← V.str? name, ← optional (formula? V) Formula.truth guard,
      ← optional (arcs? V) [] inputs, ← optional (arcs? V) [] outputs⟩
  | _ => none

def net? (d : τ) : Option NetDescription := do
  match ← V.record? "NetDescription" ["name", "globals", "places", "transitions"] d with
  | [some name, globals, places, transitions] =>
    return ⟨← V.str? name, ← optional (binding? V) Table.empty globals,
      ← optional (listOf? V (place? V)) [] places,
      ← optional (listOf? V (transition? V)) [] transitions⟩
  | _ => none

end Decode

end ColouredPetri
