import ColouredPetri.Error

namespace ColouredPetri

namespace Binding

def lookup (f : Binding) (name : String) : Except DomainError Value :=
  match f.get? name with
  | some value => .ok value
  | none => .error (.unbound name)

def agree (f : Binding) (name : String) (value : Value) : Except DomainError Binding :=
  match f.get? name with
  | none => .ok (f.insert name value)
  | some known => if known = value then .ok f else .error (.conflict name)

/-- The union of two bindings; the least name on which they differ is reported. -/
def merge (f g : Binding) : Except DomainError Binding :=
  g.entries.foldlM (fun acc e => acc.agree e.1 e.2) f

def mergeAll (f : Binding) (l : List Binding) : Except DomainError Binding := l.foldlM merge f

/-- All ways to choose one element of each list, those that differ last coming first. -/
def choices {α : Type} : List (List α) → List (List α)
  | [] => [[]]
  | part :: parts => part.flatMap fun a => (choices parts).map (a :: ·)

def combineOnto (f : Binding) : List (List Binding) → List Binding
  | [] => [f]
  | part :: parts => part.flatMap fun g =>
    match f.merge g with
    | .ok h => combineOnto h parts
    | .error _ => []

def combine (parts : List (List Binding)) : List Binding := combineOnto Table.empty parts

theorem combineOnto_eq (f : Binding) (parts : List (List Binding)) :
    combineOnto f parts = (choices parts).filterMap fun l => (mergeAll f l).toOption := by
  induction parts generalizing f with
  | nil => rfl
  | cons part parts ih =>
    rw [combineOnto, choices, List.filterMap_flatMap]
    congr 1
    funext g
    rw [List.filterMap_map]
    cases hm : f.merge g with
    | ok h =>
      refine (ih h).trans ?_
      congr 1
      funext l
      simp [mergeAll, List.foldlM_cons, hm, bind, Except.bind]
    | error e =>
      symm
      rw [List.filterMap_eq_nil_iff]
      intro l _
      simp [mergeAll, List.foldlM_cons, hm, bind, Except.bind, Except.toOption]

theorem combine_eq (parts : List (List Binding)) :
    combine parts = (choices parts).filterMap fun l => (mergeAll Table.empty l).toOption :=
  combineOnto_eq _ parts

end Binding

end ColouredPetri
