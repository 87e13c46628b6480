namespace ColouredPetri

structure FileAccess (m : Type → Type) where
  exist : String → m Bool
  read? : String → m (Option String)
  write : String → String → m Bool
  makeParents : String → m Bool

def FileAccess.writeDeep {m : Type → Type} [Monad m] (fs : FileAccess m) (path text : String) :
    m Bool := do
  if ← fs.makeParents path then fs.write path text else return false

/-- Writes what there is to write; if there is nothing, the file is left empty and that failed. -/
def FileAccess.writeAny {m : Type → Type} [Monad m] (fs : FileAccess m) (path : String)
    (text : Option String) : m Bool := do
  let done ← fs.write path (text.getD "")
  return done && text.isSome

end ColouredPetri
