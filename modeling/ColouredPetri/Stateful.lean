import ColouredPetri.Error

/-!
Actions on a state that can fail. A failed action leaves the state that it had reached.
-/

namespace ColouredPetri

variable {σ α : Type}

def look (f : σ → Except Error α) : EStateM Error σ α := fun s =>
  match f s with
  | .ok a => .ok a s
  | .error e => .error e s

end ColouredPetri
