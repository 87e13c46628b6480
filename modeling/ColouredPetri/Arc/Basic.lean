import ColouredPetri.Formula
import ColouredPetri.Binding.Merge

/-!
Arc inscriptions. An arc moves a fixed value, the value of a variable or of a formula, several
inscriptions at once, or tuples of them; a test arc reads without taking, an inhibitor arc forbids
tokens, and a flush arc takes or puts all members of a value.
-/

namespace ColouredPetri

inductive Arc where
  | value (value : Value)
  | var (name : String)
  | formula (formula : Formula)
  | multi (parts : List Arc)
  | tuple (parts : List Arc)
  | test (inner : Arc)
  | inhibitor (inner : Arc) (condition : Formula)
  | flush (inner : Arc)

instance : Inhabited Arc := ⟨.value .dot⟩

def isVariableName (name : String) : Bool :=
  match name.toList with
  | [] => false
  | c :: r => c.isAlpha && r.all Text.isWordChar && !keywords.contains name

namespace Arc

def kindName : Arc → String
  | value _ => "value"
  | var _ => "variable"
  | formula _ => "expression"
  | multi _ => "multiarc"
  | tuple _ => "tuple"
  | test _ => "test"
  | inhibitor _ _ => "inhibitor"
  | flush _ => "flush"

def rank : Arc → Nat
  | value _ => 0
  | var _ => 1
  | formula _ => 2
  | multi _ => 3
  | tuple _ => 4
  | test _ => 5
  | inhibitor _ _ => 6
  | flush _ => 7

mutual

def order : Arc → Arc → Ordering
  | value a, value b => compare a b
  | var a, var b => compare a b
  | formula a, formula b => compare a.source b.source
  | multi a, multi b => orderParts a b
  | tuple a, tuple b => orderParts a b
  | test a, test b => order a b
  | inhibitor a c, inhibitor b d => (order a b).then (compare c.source d.source)
  | flush a, flush b => order a b
  | a, b => compare a.rank b.rank

def orderParts : List Arc → List Arc → Ordering
  | [], [] => .eq
  | [], _ :: _ => .lt
  | _ :: _, [] => .gt
  | a :: l, b :: m => (order a b).then (orderParts l m)

end

theorem rank_eq_of_order {a b : Arc} (h : order a b = .eq) : a.rank = b.rank := by
  refine Decidable.byContradiction fun hr => ?_
  have : order a b = compare a.rank b.rank := by
    cases a <;> cases b <;> simp_all [order, rank]
  rw [this] at h
  exact hr (Std.LawfulEqCmp.eq_of_compare h)

theorem formula_eq_of_compare {f g : Formula} (h : compare f.source g.source = .eq) : f = g := by
  cases f
  cases g
  cases Std.LawfulEqCmp.eq_of_compare h
  rfl

mutual

theorem eq_of_order : ∀ {a b : Arc}, order a b = .eq → a = b
  | value a, b, h => by
    cases b with
    | value b =>
      exact congrArg value (Std.LawfulEqCmp.eq_of_compare (show compare a b = .eq from h))
    | _ => cases rank_eq_of_order h
  | var a, b, h => by
    cases b with
    | var b =>
      exact congrArg var (Std.LawfulEqCmp.eq_of_compare (show compare a b = .eq from h))
    | _ => cases rank_eq_of_order h
  | formula a, b, h => by
    cases b with
    | formula b => exact congrArg formula (formula_eq_of_compare h)
    | _ => cases rank_eq_of_order h
  | multi a, b, h => by
    cases b with
    | multi b => exact congrArg multi (eq_of_orderParts h)
    | _ => cases rank_eq_of_order h
  | tuple a, b, h => by
    cases b with
    | tuple b => exact congrArg tuple (eq_of_orderParts h)
    | _ => cases rank_eq_of_order h
  | test a, b, h => by
    cases b with
    | test b => exact congrArg test (eq_of_order (show order a b = .eq from h))
    | _ => cases rank_eq_of_order h
  | inhibitor a c, b, h => by
    cases b with
    | inhibitor b d =>
      obtain ⟨hab, hcd⟩ := Ordering.then_eq_eq.1 h
      rw [eq_of_order (show order a b = .eq from hab), formula_eq_of_compare hcd]
    | _ => cases rank_eq_of_order h
  | flush a, b, h => by
    cases b with
    | flush b => exact congrArg flush (eq_of_order (show order a b = .eq from h))
    | _ => cases rank_eq_of_order h

theorem eq_of_orderParts : ∀ {l m : List Arc}, orderParts l m = .eq → l = m
  | [], [], _ => rfl
  | a :: l, b :: m, h => by
    rw [orderParts, Ordering.then_eq_eq] at h
    rw [eq_of_order h.1, eq_of_orderParts h.2]

end

mutual

theorem order_self : ∀ a : Arc, order a a = .eq
  | value a => show compare a a = .eq from Std.ReflCmp.compare_self
  | var a => show compare a a = .eq from Std.ReflCmp.compare_self
  | formula a => show compare a.source a.source = .eq from Std.ReflCmp.compare_self
  | multi a => orderParts_self a
  | tuple a => orderParts_self a
  | test a => order_self a
  | inhibitor a c => by
    rw [order, order_self a, show compare c.source c.source = .eq from Std.ReflCmp.compare_self]
    rfl
  | flush a => order_self a

theorem orderParts_self : ∀ l : List Arc, orderParts l l = .eq
  | [] => rfl
  | a :: l => by
    rw [orderParts, order_self a, orderParts_self l]
    rfl

end

instance : DecidableEq Arc := fun a b =>
  decidable_of_iff (order a b = .eq) ⟨eq_of_order, fun h => h ▸ order_self a⟩

def named (name : String) : Except StructuralError Arc :=
  if isVariableName name then .ok (var name) else .error (.invalidVariable name)

def several (parts : List Arc) : Except StructuralError Arc :=
  if parts.isEmpty then .error (.missingComponents "multiarc") else .ok (multi parts)

def tupled (parts : List Arc) : Except StructuralError Arc :=
  if parts.isEmpty then .error (.missingComponents "tuple") else .ok (tuple parts)

def flushOf (text : String) : Arc :=
  let source := Text.trimText text
  flush (if isVariableName source then var source else formula (Formula.ofText source))

mutual

def validate : Arc → Except StructuralError Unit
  | value _ => .ok ()
  | var name => if isVariableName name then .ok () else .error (.invalidVariable name)
  | formula _ => .ok ()
  | multi [] => .error (.missingComponents "multiarc")
  | multi parts => validateAll parts
  | tuple [] => .error (.missingComponents "tuple")
  | tuple parts => validateAll parts
  | test inner => validate inner
  | inhibitor inner _ => validate inner
  | flush inner => validate inner

def validateAll : List Arc → Except StructuralError Unit
  | [] => .ok ()
  | a :: l =>
    match validate a with
    | .error e => .error e
    | .ok _ => validateAll l

end

mutual

/-- Formulas cannot be solved for their variables, so no input arc moves one. -/
def inputAllowed : Arc → Bool
  | value _ => true
  | var _ => true
  | formula _ => false
  | multi parts => allInputAllowed parts
  | tuple parts => allInputAllowed parts
  | test _ => true
  | inhibitor _ _ => true
  | flush inner => inputAllowed inner

def allInputAllowed : List Arc → Bool
  | [] => true
  | a :: l => inputAllowed a && allInputAllowed l

end

mutual

def vars : Arc → KeySet String
  | value _ => Table.empty
  | var name => KeySet.ofList [name]
  | formula f => f.knownVars
  | multi parts => varsAll parts
  | tuple parts => varsAll parts
  | test inner => vars inner
  | inhibitor inner condition => (vars inner).union condition.knownVars
  | flush inner => vars inner

def varsAll : List Arc → KeySet String
  | [] => Table.empty
  | a :: l => (vars a).union (varsAll l)

end

mutual

def rename (r : Binding) : Arc → Except Error Arc
  | value v => return value v
  | var name => do return ← named (r.rename name)
  | formula f => return formula (← f.rename r)
  | multi parts => return multi (← renameAll r parts)
  | tuple parts => return tuple (← renameAll r parts)
  | test inner => return test (← rename r inner)
  | inhibitor inner condition => do
    let inner ← rename r inner
    return inhibitor inner (← condition.rename r)
  | flush inner => return flush (← rename r inner)

def renameAll (r : Binding) : List Arc → Except Error (List Arc)
  | [] => return []
  | a :: l => do
    let a ← rename r a
    return a :: (← renameAll r l)

end

def replaceCondition (old new : Arc) (condition : Formula) : Formula :=
  match old, new with
  | formula f, formula g => if f = condition then g else condition
  | _, _ => condition

mutual

def replace (old new : Arc) : Arc → Arc
  | value v => if value v = old then new else value v
  | var name => if var name = old then new else var name
  | formula f => if formula f = old then new else formula f
  | multi parts => if multi parts = old then new else multi (replaceAll old new parts)
  | tuple parts => if tuple parts = old then new else tuple (replaceAll old new parts)
  | test inner => if test inner = old then new else test (replace old new inner)
  | inhibitor inner condition =>
    if inhibitor inner condition = old then new
    else inhibitor (replace old new inner) (replaceCondition old new condition)
  | flush inner => if flush inner = old then new else flush (replace old new inner)

def replaceAll (old new : Arc) : List Arc → List Arc
  | [] => []
  | a :: l => replace old new a :: replaceAll old new l

end

def suffixed (text mark : String) : String :=
  if text.length == 1 || (text.startsWith "(" && text.endsWith ")") then text ++ mark
  else "(" ++ text ++ ")" ++ mark

mutual

def text : Arc → String
  | value v => v.text
  | var name => name
  | formula f => f.source
  | multi parts => partsText parts
  | tuple parts => partsText parts
  | test inner => suffixed (text inner) "?"
  | inhibitor inner condition =>
    if condition.isTrue then "\x7bno " ++ text inner ++ "\x7d"
    else "\x7bno " ++ text inner ++ " if " ++ condition.source ++ "\x7d"
  | flush inner => suffixed (text inner) "!"

def partsText : List Arc → String
  | [] => "()"
  | [a] => "(" ++ text a ++ ",)"
  | a :: l => "(" ++ text a ++ restText l ++ ")"

def restText : List Arc → String
  | [] => ""
  | a :: l => ", " ++ text a ++ restText l

end

def debugText (a : Arc) : String := a.kindName ++ "(" ++ a.text ++ ")"

end Arc

end ColouredPetri
