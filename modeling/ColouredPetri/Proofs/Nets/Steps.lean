import ColouredPetri.Net.Tokens
import ColouredPetri.Proofs.Outcomes

/-! Edits of single nodes as steps. They look first and write last, and where there are two writes
nothing can fail between them, so that each of them happens at once or not at all. -/

namespace ColouredPetri

namespace Net

variable {α : Type} {name place trans : String}

lemma changePlace_eq_step {f : Place → Except Error Place} :
    changePlace name f = step fun net => do
      let p ← net.place name
      let p ← f p
      return ((), net.mapPlace name fun _ => p) := by
  rw [← look_bind_step, changePlace]
  simp only [← look_bind_step (fun _ => f _)]
  rfl

lemma changeTransition_eq_step {f : Transition → Except Error (α × Transition)} :
    changeTransition name f = step fun net => do
      let t ← net.transition name
      let (a, t) ← f t
      return (a, net.mapTransition name fun _ => t) := by
  rw [← look_bind_step, changeTransition]
  simp only [← look_bind_step (fun _ => f _)]
  rfl

lemma updatePlace_of_ok {g : Place → Place} {net : Net} {p : Place} (h : net.place name = .ok p) :
    updatePlace g name net = .ok () (net.mapPlace name fun _ => g p) := by
  rw [updatePlace, changePlace_eq_step, step_eq_ok_iff, h]
  rfl

lemma editTokens_eq_step {f : Place → Except TokenError Place} :
    editTokens name f = step fun net => do
      let p ← net.place name
      let p ← f p
      return ((), net.mapPlace name fun _ => p) := changePlace_eq_step

lemma atomic_editTokens {f : Place → Except TokenError Place} :
    Atomic (editTokens name f) := by
  rw [editTokens_eq_step]
  exact atomic_step _

lemma change_eq_step {f : Transition → Except Error (α × Transition)} {g : Place → Place} :
    (do
      let _ ← look fun net => net.place place
      let a ← changeTransition trans f
      updatePlace g place
      return a : Edit α) = step fun net => do
      let p ← net.place place
      let t ← net.transition trans
      let (a, t) ← f t
      return (a, (net.mapTransition trans fun _ => t).mapPlace place fun _ => g p) := by
  rw [← look_bind_step]
  funext net
  cases hp : net.place place with
  | error e =>
    have hlook : look (fun net => net.place place) net = .error e net :=
      look_eq_error_iff.2 ⟨hp, rfl⟩
    rw [bind_of_error _ hlook, bind_of_error _ hlook]
  | ok p =>
    have hlook : look (fun net => net.place place) net = .ok p net := look_eq_ok_iff.2 ⟨hp, rfl⟩
    rw [bind_of_ok _ hlook, bind_of_ok _ hlook, changeTransition_eq_step]
    refine (step_bind_of_ok (fun a net => (a, net.mapPlace place fun _ => g p)) ?_).trans ?_
    · intro a net₁ h
      obtain ⟨t, -, h⟩ := except_bind_eq_ok.1 h
      obtain ⟨⟨a, t⟩, -, h⟩ := except_bind_eq_ok.1 h
      cases h
      exact bind_of_ok _ (updatePlace_of_ok hp)
    · simp only [step, map_bind]
      rfl

end Net

end ColouredPetri
