import ColouredPetri.Proofs.StateGraph.Operations
import ColouredPetri.Proofs.StateGraph.Runs

/-! Operations that succeed. All their steps do, so that what relates the two sides of each move and
each processed state relates the graphs before and after the whole operation. -/

namespace ColouredPetri

namespace StateGraph

variable {g g' : StateGraph} {s : Nat} {rest : List Nat} {u : Unit}

section Visits

variable {ν α : Type} {visitor : Nat → Net → EStateM Error ν Unit} {v v' : StateGraph × ν}
variable {a : α} {fuel : Nat}

lemma onGraph_eq_ok {act : Explore α} :
    onGraph act v = .ok a v' ↔ act v.1 = .ok a v'.1 ∧ v'.2 = v.2 := by
  obtain ⟨g, n⟩ := v
  obtain ⟨g', n'⟩ := v'
  rw [onGraph]
  cases act g with
  | ok b t =>
    refine ⟨fun h => by cases h; exact ⟨rfl, rfl⟩, ?_⟩
    rintro ⟨h, rfl⟩
    cases h
    rfl
  | error e t => exact ⟨fun h => (by cases h), fun h => by cases h.1⟩

lemma onNotes_eq_ok {act : EStateM Error ν α} :
    onNotes act v = .ok a v' ↔ act v.2 = .ok a v'.2 ∧ v'.1 = v.1 := by
  obtain ⟨g, n⟩ := v
  obtain ⟨g', n'⟩ := v'
  rw [onNotes]
  cases act n with
  | ok b t =>
    refine ⟨fun h => by cases h; exact ⟨rfl, rfl⟩, ?_⟩
    rintro ⟨h, rfl⟩
    cases h
    rfl
  | error e t => exact ⟨fun h => (by cases h), fun h => by cases h.1⟩

lemma visitState_eq_ok : visitState visitor s v = .ok u v' ↔
    goto s v.1 = .ok () v'.1 ∧ visitor s v'.1.net v.2 = .ok () v'.2 := by
  rw [visitState, bind_eq_ok]
  constructor
  · rintro ⟨_, v₁, hgoto, h⟩
    obtain ⟨_, v₂, hget, hnote⟩ := bind_eq_ok.1 h
    cases hget
    obtain ⟨hgoto, hnotes⟩ := onGraph_eq_ok.1 hgoto
    obtain ⟨hnote, hgraph⟩ := onNotes_eq_ok.1 hnote
    rw [hgraph, ← hnotes]
    exact ⟨hgoto, hnote⟩
  · rintro ⟨hgoto, hnote⟩
    refine ⟨(), (v'.1, v.2), onGraph_eq_ok.2 ⟨hgoto, rfl⟩, ?_⟩
    exact bind_eq_ok.2 ⟨_, _, rfl, onNotes_eq_ok.2 ⟨hnote, rfl⟩⟩

lemma visitQueue_of_nil (hq : v.1.todo = []) : visitQueue visitor (fuel + 1) v = .ok () v := by
  rw [visitQueue, bind_of_ok (x := get) (t := v) _ rfl]
  simp only [hq]
  rfl

lemma visitQueue_of_cons (hq : v.1.todo = s :: rest) :
    visitQueue visitor (fuel + 1) v = .ok u v' ↔ ∃ g v₁,
      compute s { v.1 with todo := rest } = .ok () g ∧
      visitState visitor s (g, v.2) = .ok () v₁ ∧ visitQueue visitor fuel v₁ = .ok u v' := by
  obtain ⟨g, n⟩ := v
  rw [visitQueue, bind_of_ok (x := get) (t := (g, n)) _ rfl]
  simp only [show g.todo = s :: rest from hq]
  have htake : onGraph (modify fun g : StateGraph => { g with todo := rest }) (g, n) =
      .ok () ({ g with todo := rest }, n) := rfl
  rw [bind_of_ok _ htake, bind_eq_ok]
  simp only [bind_eq_ok, onGraph_eq_ok]
  constructor
  · rintro ⟨_, ⟨g₁, n₁⟩, ⟨hone, rfl⟩, _, v₁, hvisit, h⟩
    exact ⟨g₁, v₁, hone, hvisit, h⟩
  · rintro ⟨g₁, v₁, hone, hvisit, h⟩
    exact ⟨(), (g₁, n), ⟨hone, rfl⟩, (), v₁, hvisit, h⟩

lemma visit_eq_ok : visit visitor v = .ok u v' ↔ ∃ current v₁ v₂,
    v.1.currentState = .ok current ∧ v.1.done.keys.forM (visitState visitor) v = .ok () v₁ ∧
      visitQueue visitor (maxStates + 1) v₁ = .ok () v₂ ∧
      goto current v₂.1 = .ok () v'.1 ∧ v'.2 = v₂.2 := by
  rw [visit, bind_eq_ok]
  simp only [onGraph_eq_ok, look_eq_ok_iff]
  constructor
  · rintro ⟨current, v₀, ⟨⟨hcurrent, hgraph⟩, hnotes⟩, h⟩
    obtain rfl : v₀ = v := Prod.ext hgraph hnotes
    obtain ⟨_, _, hget, h⟩ := bind_eq_ok.1 h
    cases hget
    obtain ⟨_, v₁, hdone, h⟩ := bind_eq_ok.1 h
    obtain ⟨_, v₂, hqueue, hgoto⟩ := bind_eq_ok.1 h
    exact ⟨current, v₁, v₂, hcurrent, hdone, hqueue, onGraph_eq_ok.1 hgoto⟩
  · rintro ⟨current, v₁, v₂, hcurrent, hdone, hqueue, hgoto⟩
    refine ⟨current, v, ⟨⟨hcurrent, rfl⟩, rfl⟩, bind_eq_ok.2 ⟨_, _, rfl, ?_⟩⟩
    exact bind_eq_ok.2 ⟨_, v₁, hdone, bind_eq_ok.2 ⟨_, v₂, hqueue, onGraph_eq_ok.2 hgoto⟩⟩

lemma visitWith_eq_ok {notes : ν} : visitWith visitor notes g = .ok u g' ↔
    ∃ n, visit visitor (g, notes) = .ok () (g', n) := by
  rw [visitWith]
  cases hv : visit visitor (g, notes) with
  | ok w v =>
    obtain ⟨g₁, n⟩ := v
    refine ⟨fun h => by cases h; exact ⟨n, rfl⟩, ?_⟩
    rintro ⟨_, h⟩
    cases h
    rfl
  | error e v =>
    refine ⟨fun h => (by cases h), fun h => ?_⟩
    obtain ⟨_, h⟩ := h
    cases h

end Visits

structure Followed (R : StateGraph → StateGraph → Prop) : Prop where
  refl : ∀ g, R g g
  trans : ∀ {g₁ g₂ g₃}, R g₁ g₂ → R g₂ g₃ → R g₁ g₃
  goto : ∀ {s u g g'}, goto s g = .ok u g' → R g g'
  compute : ∀ {s rest u g g'}, g.todo = s :: rest →
    compute s { g with todo := rest } = .ok u g' → R g g'

namespace Followed

variable {R : StateGraph → StateGraph → Prop}

lemma explore (h : Followed R) {k : Nat} (hs : explore k g = .ok k g') : R g g' := by
  induction k generalizing g with
  | zero =>
    obtain ⟨-, rfl⟩ := explore_zero hs
    exact h.refl g'
  | succ k ih =>
    obtain ⟨s, rest, g₁, hq, hone, hrest⟩ := explore_succ_eq_ok_iff.1 hs
    exact h.trans (h.compute hq hone) (ih hrest)

lemma processWhile (h : Followed R) {go : Nat → Bool} {fuel : Nat}
    (hs : processWhile go fuel g = .ok u g') : R g g' := by
  obtain ⟨k, -, hk, -⟩ := processWhile_explores hs
  exact h.explore hk

lemma successors (h : Followed R) {found : List (Nat × Firing)}
    (hs : successors s g = .ok found g') : R g g' := by
  simp only [StateGraph.successors, bind_eq_ok, look_eq_ok_iff] at hs
  obtain ⟨_, _, ⟨-, rfl⟩, current, _, ⟨-, rfl⟩, _, g₁, hbuild, _, g₂, hgoto, _, _, hget, hs⟩ := hs
  cases hget
  cases hs
  exact h.trans (h.processWhile hbuild) (h.goto hgoto)

section Visits

variable {ν : Type} {visitor : Nat → Net → EStateM Error ν Unit} {v v' : StateGraph × ν}

lemma visitStates (h : Followed R) {l : List Nat}
    (hs : l.forM (visitState visitor) v = .ok u v') : R v.1 v'.1 := by
  induction l generalizing v with
  | nil =>
    cases hs
    exact h.refl _
  | cons s l ih =>
    obtain ⟨v₁, hone, hrest⟩ := forM_cons_eq_ok.1 hs
    exact h.trans (h.goto (visitState_eq_ok.1 hone).1) (ih hrest)

lemma visitQueue (h : Followed R) {fuel : Nat} (hs : visitQueue visitor fuel v = .ok u v') :
    R v.1 v'.1 := by
  induction fuel generalizing v with
  | zero => cases hs
  | succ fuel ih =>
    cases hq : v.1.todo with
    | nil =>
      rw [visitQueue_of_nil hq] at hs
      cases hs
      exact h.refl _
    | cons s rest =>
      obtain ⟨g, v₁, hone, hvisit, hrest⟩ := (visitQueue_of_cons hq).1 hs
      have hmove : R g v₁.1 := h.goto (visitState_eq_ok.1 hvisit).1
      exact h.trans (h.compute hq hone) (h.trans hmove (ih hrest))

lemma visit (h : Followed R) (hs : visit visitor v = .ok u v') : R v.1 v'.1 := by
  obtain ⟨current, v₁, v₂, -, hdone, hqueue, hgoto, -⟩ := visit_eq_ok.1 hs
  exact h.trans (h.visitStates hdone) (h.trans (h.visitQueue hqueue) (h.goto hgoto))

end Visits

lemma run (h : Followed R) : ∀ op : Operation,
    (∀ s, op = .remove s → op.run g = .ok () g' → R g g') → op.run g = .ok () g' → R g g'
  | .goto _, _, hs => h.goto hs
  | .explore _, _, hs => by
    obtain ⟨k, g₁, hexplore, hs⟩ := bind_eq_ok.1 hs
    cases hs
    exact h.explore (explore_of_ok hexplore)
  | .build, _, hs => h.processWhile hs
  | .buildUntil _, _, hs => h.processWhile hs
  | .successors _, _, hs => by
    obtain ⟨found, g₁, hsucc, hs⟩ := bind_eq_ok.1 hs
    cases hs
    exact h.successors hsucc
  | .predecessors _, _, hs => by
    obtain ⟨found, g₁, hl, hs⟩ := bind_eq_ok.1 hs
    cases hs
    rw [(look_eq_ok_iff.1 hl).2]
    exact h.refl g
  | .visit _ _, _, hs => by
    obtain ⟨n, hv⟩ := visitWith_eq_ok.1 hs
    exact h.visit hv
  | .remove s, hr, hs => hr s rfl hs

end Followed

end StateGraph

end ColouredPetri
