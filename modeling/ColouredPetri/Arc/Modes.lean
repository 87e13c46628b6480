import ColouredPetri.Arc.Flow

namespace ColouredPetri

/-- Keeps the bindings that pass a check; a binding that leaves a variable open fails it. -/
def keepModes (check : Binding → Except Error Bool) : List Binding → Except Error (List Binding)
  | [] => return []
  | b :: l =>
    match check b with
    | .ok true => return b :: (← keepModes check l)
    | .ok false => keepModes check l
    | .error e => if e.isDomain then keepModes check l else throw e

namespace Arc

def tuplesOfLength (n : Nat) : List Value → List (List Value)
  | [] => []
  | .tuple items :: l =>
    if items.length = n then items :: tuplesOfLength n l else tuplesOfLength n l
  | _ :: l => tuplesOfLength n l

def matchTokens (matchParts : List Value → Except Error (Option (List (List Binding)))) :
    List (List Value) → Except Error (List Binding)
  | [] => return []
  | items :: l => do
    match ← matchParts items with
    | none => matchTokens matchParts l
    | some parts => return Binding.combine parts ++ (← matchTokens matchParts l)

def witness? (globals : Binding) (condition : Formula) :
    List Binding → Except Error (Option Binding)
  | [] => return none
  | b :: l => do
    if ← condition.holds ⟨b, globals⟩ then return some b
    else witness? globals condition l

mutual

def modes (globals : Binding) : Arc → Bag → Except Error (List Binding)
  | value v, available =>
    if available.contains v then return [Table.empty] else throw (.mode .noMatch)
  | var name, available =>
    if available.isEmpty then throw (.mode .noValue)
    else return available.toList.map fun v => Binding.single name v
  | formula f, _ => throw (.structural (.inputNotAllowed (formula f).kindName))
  | multi parts, available => do
    let found ← modesEach globals parts available
    keepModes (fun b => return (← flow ⟨b, globals⟩ (multi parts)).isSubset available)
      (Binding.combine found)
  | tuple parts, available => do
    let found ← matchTokens (fun items => matchItems globals parts items)
      (tuplesOfLength parts.length available.toList)
    if found.isEmpty then throw (.mode .noMode) else return found
  | test inner, available => modes globals inner available
  | inhibitor inner condition, available =>
    match modes globals inner available with
    | .error e => if e.isMode then return [Table.empty] else throw e
    | .ok found => do
      match ← witness? globals condition found with
      | some b => throw (.mode (.inhibited b))
      | none => return [Table.empty]
  | flush (var name), available => return [Binding.single name available.toValue]
  | flush inner, _ => throw (.structural (.inputNotAllowed inner.kindName))

def modesEach (globals : Binding) : List Arc → Bag → Except Error (List (List Binding))
  | [], _ => return []
  | a :: l, available => do
    let found ← modes globals a available
    return found :: (← modesEach globals l available)

def matchItems (globals : Binding) :
    List Arc → List Value → Except Error (Option (List (List Binding)))
  | [], _ => return some []
  | _ :: _, [] => return some []
  | a :: l, item :: items =>
    match modes globals a (Bag.ofList [item]) with
    | .error e => if e.isMode then return none else throw e
    | .ok found => return (← matchItems globals l items).map (found :: ·)

end

end Arc

end ColouredPetri
