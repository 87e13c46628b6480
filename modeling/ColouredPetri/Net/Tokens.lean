import ColouredPetri.Net.Edit

/-!
Changes of the marking of a net, all or nothing: when a place refuses, every place gets back the
tokens that it had.
-/

namespace ColouredPetri

namespace Net

/-- Puts the tokens of a marking on all places without asking their types. -/
def restore (net : Net) (m : Marking) : Net :=
  { net with
    placeMap := net.placeMap.map fun e => (e.1, { e.2 with tokens := m.tokens e.2.name }) }

def withRollback (act : Edit Unit) : Edit Unit := fun net =>
  match act net with
  | .ok a net' => .ok a net'
  | .error e net' => .error e (net'.restore net.marking)

def editTokens (name : String) (f : Place → Except TokenError Place) : Edit Unit :=
  changePlace name fun p => f p

def addTokens (name : String) (bag : Bag) : Edit Unit :=
  editTokens name fun p => p.add bag.toList

def removeTokens (name : String) (bag : Bag) : Edit Unit :=
  editTokens name fun p => p.remove bag.toList

def resetTokens (m : Marking) (name : String) : Edit Unit :=
  editTokens name fun p =>
    match m.get? p.name with
    | some bag => p.reset bag.toList
    | none => .ok p.clear

def resetAll (m : Marking) : Edit Unit := do
  let net ← get
  net.placeMap.forM fun e => resetTokens m e.1

def setMarking (m : Marking) : Edit Unit := withRollback (resetAll m)

def ifPlace (name : String) (act : Edit Unit) : Edit Unit := do
  if (← get).hasPlace name then act

def addMarking (m : Marking) : Edit Unit :=
  withRollback (m.entries.forM fun e => ifPlace e.1 (addTokens e.1 e.2))

def removeMarking (m : Marking) : Edit Unit :=
  withRollback (m.entries.forM fun e => ifPlace e.1 (removeTokens e.1 e.2))

end Net

end ColouredPetri
