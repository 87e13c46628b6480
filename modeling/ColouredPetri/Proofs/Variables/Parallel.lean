import Mathlib.Data.List.Forall2
import ColouredPetri.Arc.Modes

/-! Calls that go the same way: both succeed, with results that belong together, or both fail, with
errors that are caught alike. -/

namespace ColouredPetri

variable {δ ε α β α' β' : Type} {D : δ → δ → Prop} {E : ε → ε → Prop} {R : α → β → Prop}
  {S : α' → β' → Prop} {x : Except ε α} {y : Except ε β}

inductive Parallel (E : ε → ε → Prop) (R : α → β → Prop) : Except ε α → Except ε β → Prop
  | ok {a : α} {b : β} (h : R a b) : Parallel E R (.ok a) (.ok b)
  | error {d e : ε} (h : E d e) : Parallel E R (.error d) (.error e)

namespace Parallel

lemma cases (h : Parallel E R x y) : (∃ a b, x = .ok a ∧ y = .ok b ∧ R a b) ∨
    ∃ d e, x = .error d ∧ y = .error e ∧ E d e := by
  cases h with
  | ok h => exact .inl ⟨_, _, rfl, rfl, h⟩
  | error h => exact .inr ⟨_, _, rfl, rfl, h⟩

lemma bind {g : α → Except ε α'} {k : β → Except ε β'} (h : Parallel E R x y)
    (hg : ∀ a b, R a b → Parallel E S (g a) (k b)) : Parallel E S (x >>= g) (y >>= k) := by
  cases h with
  | ok h => exact hg _ _ h
  | error h => exact .error h

lemma bind_pure {g : α → α'} {k : β → β'} (h : Parallel E R x y) (hg : ∀ a b, R a b → S (g a) (k b)) :
    Parallel E S (x >>= fun a => pure (g a)) (y >>= fun b => pure (k b)) :=
  h.bind fun a b hab => .ok (hg a b hab)

lemma mapError {u : Except δ α} {v : Except δ β} {w : δ → ε} (h : Parallel D R u v)
    (hw : ∀ d e, D d e → E (w d) (w e)) : Parallel E R (u.mapError w) (v.mapError w) := by
  cases h with
  | ok h => exact .ok h
  | error h => exact .error (hw _ _ h)

lemma toOption_eq {g : α → β} (h : Parallel E R x y) (hg : ∀ a b, R a b → b = g a) :
    y.toOption = x.toOption.map g := by
  cases h with
  | ok h => exact congrArg some (hg _ _ h)
  | error h => rfl

lemma toOption_eq_self {z : Except ε α} (h : Parallel E Eq x z) : z.toOption = x.toOption := by
  rw [h.toOption_eq (g := id) fun _ _ hab => hab.symm, Option.map_id_fun, id]

end Parallel

def Error.SameKind (d e : Error) : Prop := d.isMode = e.isMode ∧ d.isDomain = e.isDomain

abbrev SameOutcome (x y : Except Error α) : Prop := Parallel Error.SameKind Eq x y

lemma sameOutcome_self (x : Except Error α) : SameOutcome x x := by
  cases x with
  | ok a => exact .ok rfl
  | error e => exact .error ⟨rfl, rfl⟩

lemma keepModes_parallel {Q : Binding → Binding → Prop} {check check' : Binding → Except Error Bool}
    {l l' : List Binding} (hl : List.Forall₂ Q l l')
    (hc : ∀ b b', Q b b' → SameOutcome (check b) (check' b')) :
    Parallel Error.SameKind (List.Forall₂ Q) (keepModes check l) (keepModes check' l') := by
  induction hl with
  | nil => exact .ok .nil
  | @cons b b' l l' hb _ ih =>
    rw [keepModes, keepModes]
    obtain ⟨keep, _, hx, hy, rfl⟩ | ⟨d, e, hx, hy, hde⟩ := (hc b b' hb).cases
    · rw [hx, hy]
      cases keep with
      | true => exact ih.bind_pure fun _ _ h => .cons hb h
      | false => exact ih
    · rw [hx, hy]
      simp only [hde.2]
      split
      · exact ih
      · exact .error hde

end ColouredPetri
