import ColouredPetri.Proofs.Outcomes
import ColouredPetri.StateGraph.Explore

namespace ColouredPetri

namespace StateGraph

variable {g g' : StateGraph} {s : Nat} {rest : List Nat} {u : Unit}
variable {go : Nat → Bool} {fuel j k : Nat}

lemma explore_zero (h : explore 0 g = .ok k g') : k = 0 ∧ g' = g := by
  cases h
  exact ⟨rfl, rfl⟩

lemma explore_of_nil (hq : g.todo = []) (limit : Nat) : explore limit g = .ok 0 g := by
  cases limit with
  | zero => rfl
  | succ limit =>
    rw [explore, bind_of_ok (x := get) (t := g) _ rfl, hq]
    rfl

lemma explore_of_cons (hq : g.todo = s :: rest) (limit : Nat) : explore (limit + 1) g = (do
    compute s
    return (← explore limit) + 1 : Explore Nat) { g with todo := rest } := by
  rw [explore, bind_of_ok (x := get) (t := g) _ rfl, hq]
  rfl

lemma explore_succ_eq_ok_iff : explore (j + 1) g = .ok (k + 1) g' ↔
    ∃ s rest g₁, g.todo = s :: rest ∧ compute s { g with todo := rest } = .ok () g₁ ∧
      explore j g₁ = .ok k g' := by
  cases hq : g.todo with
  | nil =>
    rw [explore_of_nil hq]
    exact iff_of_false (fun h => by cases h) fun ⟨_, _, _, h, _⟩ => by cases h
  | cons s rest =>
    rw [explore_of_cons hq, bind_eq_ok]
    simp only [bind_eq_ok]
    constructor
    · rintro ⟨_, g₁, hone, n, g₂, hrest, hlast⟩
      cases hlast
      exact ⟨s, rest, g₁, rfl, hone, hrest⟩
    · rintro ⟨_, _, g₁, hcons, hone, hrest⟩
      cases hcons
      exact ⟨(), g₁, hone, k, g', hrest, rfl⟩

lemma explore_zero_eq_ok_iff (h : explore (j + 1) g = .ok 0 g') : g.todo = [] ∧ g' = g := by
  cases hq : g.todo with
  | nil =>
    rw [explore_of_nil hq] at h
    cases h
    exact ⟨rfl, rfl⟩
  | cons s rest =>
    rw [explore_of_cons hq, bind_eq_ok] at h
    obtain ⟨-, g₁, -, h⟩ := h
    obtain ⟨n, g₂, -, h⟩ := bind_eq_ok.1 h
    cases h

lemma explore_of_ok {limit : Nat} (h : explore limit g = .ok k g') : explore k g = .ok k g' := by
  induction limit generalizing g k with
  | zero =>
    obtain ⟨rfl, rfl⟩ := explore_zero h
    rfl
  | succ limit ih =>
    cases k with
    | zero =>
      obtain ⟨-, rfl⟩ := explore_zero_eq_ok_iff h
      rfl
    | succ k =>
      obtain ⟨s, rest, g₁, hq, hone, hrest⟩ := explore_succ_eq_ok_iff.1 h
      exact explore_succ_eq_ok_iff.2 ⟨s, rest, g₁, hq, hone, ih hrest⟩

lemma explore_add : explore (j + k) g = .ok (j + k) g' ↔
    ∃ g₁, explore j g = .ok j g₁ ∧ explore k g₁ = .ok k g' := by
  induction j generalizing g with
  | zero =>
    rw [Nat.zero_add]
    exact ⟨fun h => ⟨g, rfl, h⟩, fun ⟨g₁, h, hk⟩ => (explore_zero h).2 ▸ hk⟩
  | succ j ih =>
    rw [Nat.add_right_comm]
    simp only [explore_succ_eq_ok_iff, ih]
    constructor
    · rintro ⟨s, rest, g₂, hq, hone, g₁, hj, hk⟩
      exact ⟨g₁, ⟨s, rest, g₂, hq, hone, hj⟩, hk⟩
    · rintro ⟨g₁, ⟨s, rest, g₂, hq, hone, hj⟩, hk⟩
      exact ⟨s, rest, g₂, hq, hone, g₁, hj, hk⟩

lemma processWhile_of_nil (hq : g.todo = []) : processWhile go (fuel + 1) g = .ok () g := by
  rw [processWhile, bind_of_ok (x := get) (t := g) _ rfl, hq]
  rfl

lemma processWhile_of_cons (hq : g.todo = s :: rest) : processWhile go (fuel + 1) g =
    if go s then (do compute s; processWhile go fuel : Explore Unit) { g with todo := rest }
    else .ok () g := by
  rw [processWhile, bind_of_ok (x := get) (t := g) _ rfl, hq]
  dsimp only
  split <;> rfl

lemma processWhile_explores (h : processWhile go fuel g = .ok u g') :
    ∃ k < fuel, explore k g = .ok k g' ∧ ∀ s ∈ g'.todo.head?, go s = false := by
  induction fuel generalizing g with
  | zero => cases h
  | succ fuel ih =>
    cases hq : g.todo with
    | nil =>
      rw [processWhile_of_nil hq] at h
      cases h
      exact ⟨0, Nat.succ_pos fuel, rfl, by simp [hq]⟩
    | cons s rest =>
      rw [processWhile_of_cons hq] at h
      split at h
      · obtain ⟨_, g₁, hone, hrest⟩ := bind_eq_ok.1 h
        obtain ⟨k, hk, hexplore, hstop⟩ := ih hrest
        exact ⟨k + 1, Nat.succ_lt_succ hk,
          explore_succ_eq_ok_iff.2 ⟨s, rest, g₁, hq, hone, hexplore⟩, hstop⟩
      · next hgo =>
        cases h
        refine ⟨0, Nat.succ_pos fuel, rfl, fun t ht => ?_⟩
        rw [hq] at ht
        cases ht
        simpa using hgo

lemma processWhile_fails {e : Error} (h : processWhile go fuel g = .error e g') :
    e = .structural .stateNumbersExhausted ∨ ∃ k s rest g₁, explore k g = .ok k g₁ ∧
      g₁.todo = s :: rest ∧ compute s { g₁ with todo := rest } = .error e g' := by
  induction fuel generalizing g with
  | zero =>
    cases h
    exact .inl rfl
  | succ fuel ih =>
    cases hq : g.todo with
    | nil =>
      rw [processWhile_of_nil hq] at h
      cases h
    | cons s rest =>
      rw [processWhile_of_cons hq] at h
      split at h
      · rcases bind_eq_error.1 h with hone | ⟨_, g₂, hone, hrest⟩
        · exact .inr ⟨0, s, rest, g, rfl, hq, hone⟩
        · refine (ih hrest).imp_right ?_
          rintro ⟨k, t, rest', g₁, hk, hq', hfails⟩
          exact ⟨k + 1, t, rest', g₁, explore_succ_eq_ok_iff.2 ⟨s, rest, g₂, hq, hone, hk⟩, hq',
            hfails⟩
      · cases h

lemma build_of_fails {e : Error} (hq : g.todo = s :: rest)
    (h : compute s { g with todo := rest } = .error e g') : build g = .error e g' := by
  rw [build, processWhile_of_cons hq]
  exact bind_of_error _ h

lemma processWhile_of_explore (go : Nat → Bool) (h : explore k g = .ok k g') (hend : g'.todo = [])
    (hk : k < fuel) :
    ∃ j g₁, processWhile go fuel g = .ok () g₁ ∧ explore j g = .ok j g₁ ∧
      explore (k - j) g₁ = .ok (k - j) g' ∧ ∀ s ∈ g₁.todo.head?, go s = false := by
  induction k generalizing g fuel with
  | zero =>
    obtain ⟨-, rfl⟩ := explore_zero h
    obtain ⟨fuel, rfl⟩ := Nat.exists_eq_succ_of_ne_zero (Nat.ne_of_gt hk)
    exact ⟨0, g', processWhile_of_nil hend, rfl, rfl, by simp [hend]⟩
  | succ k ih =>
    obtain ⟨fuel, rfl⟩ := Nat.exists_eq_succ_of_ne_zero (Nat.ne_zero_of_lt hk)
    obtain ⟨s, rest, g₂, hq, hone, hrest⟩ := explore_succ_eq_ok_iff.1 h
    rw [processWhile_of_cons hq]
    by_cases hgo : go s = true
    · obtain ⟨j, g₁, hrun, hj, hkj, hstop⟩ := ih hrest (Nat.lt_of_succ_lt_succ hk)
      refine ⟨j + 1, g₁, ?_, explore_succ_eq_ok_iff.2 ⟨s, rest, g₂, hq, hone, hj⟩, ?_, hstop⟩
      · rw [if_pos hgo]
        exact (bind_of_ok _ hone).trans hrun
      · rwa [Nat.succ_sub_succ]
    · refine ⟨0, g, if_neg hgo, rfl, h, fun t ht => ?_⟩
      rw [hq] at ht
      cases ht
      simpa using hgo

lemma processAll_of_explore (h : explore k g = .ok k g') (hend : g'.todo = []) (hk : k < fuel) :
    processWhile (fun _ => true) fuel g = .ok () g' := by
  obtain ⟨j, g₁, hrun, -, hrest, hstop⟩ :=
    processWhile_of_explore (fun _ => true) h hend hk
  have hq : g₁.todo = [] := by
    cases hq : g₁.todo with
    | nil => rfl
    | cons s rest => cases hstop s (by simp [hq])
  rw [explore_of_nil hq] at hrest
  injection hrest with _ hg
  exact hg ▸ hrun

lemma todo_of_build (h : build g = .ok u g') : g'.todo = [] := by
  obtain ⟨-, -, -, hstop⟩ := processWhile_explores h
  cases hq : g'.todo with
  | nil => rfl
  | cons s rest => cases hstop s (by simp [hq])

end StateGraph

end ColouredPetri
