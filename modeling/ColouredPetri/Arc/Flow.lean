import ColouredPetri.Arc.Basic

namespace ColouredPetri

namespace Arc

mutual

def bind (s : Scope) : Arc → Except Error Value
  | value v => return v
  | var name => do return ← s.binding.lookup name
  | formula f => do return ← f.eval s
  | multi parts => return .tuple (← bindAll s parts)
  | tuple parts => return .tuple (← bindAll s parts)
  | test inner => bind s inner
  | inhibitor _ condition => do
    if ← condition.holds s then return .tuple []
    else throw (.mode (.conditionFailed s.binding))
  | flush inner => return (Bag.ofList (← bind s inner).spread).toValue

def bindAll (s : Scope) : List Arc → Except Error (List Value)
  | [] => return []
  | a :: l => do
    let v ← bind s a
    return v :: (← bindAll s l)

end

mutual

/-- The tokens that a place on the other end of an arc must accept. -/
def tokens (s : Scope) : Arc → Except Error (List Value)
  | value v => return [v]
  | var name => return [← bind s (var name)]
  | formula f => return [← bind s (formula f)]
  | multi parts => tokensAll s parts
  | tuple parts => return [← bind s (tuple parts)]
  | test inner => tokens s inner
  | inhibitor _ _ => return []
  | flush inner => return (← bind s inner).spread

def tokensAll (s : Scope) : List Arc → Except Error (List Value)
  | [] => return []
  | a :: l => do
    let vs ← tokens s a
    return vs ++ (← tokensAll s l)

end

def tuples (flows : List Bag) : Bag :=
  Bag.ofList ((Binding.choices (flows.map Bag.toList)).map .tuple)

mutual

def flow (s : Scope) : Arc → Except Error Bag
  | value v => return Bag.ofList [v]
  | var name => return Bag.ofList [← bind s (var name)]
  | formula f => return Bag.ofList [← bind s (formula f)]
  | multi parts => return (← flowAll s parts).foldl (· + ·) Bag.empty
  | tuple parts => return tuples (← flowAll s parts)
  | test _ => return Bag.empty
  | inhibitor _ _ => return Bag.empty
  | flush inner => return Bag.ofList (← bind s inner).spread

def flowAll (s : Scope) : List Arc → Except Error (List Bag)
  | [] => return []
  | a :: l => do
    let f ← flow s a
    return f :: (← flowAll s l)

end

end Arc

end ColouredPetri
