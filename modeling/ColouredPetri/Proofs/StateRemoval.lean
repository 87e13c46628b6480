import ColouredPetri.Proofs.GraphCollections
import ColouredPetri.Proofs.GraphPosition
import ColouredPetri.Proofs.StateGraph.Removal

namespace ColouredPetri

namespace StateGraph

variable {net : Net} {config : ExploreConfig} {g g' : StateGraph} {m : Marking} {s : Nat}

def heir (g : StateGraph) (s : Nat) : Option Nat := (g.todo ++ g.done.keys).find? (· != s)

lemma Without.heir (h : Without s m g g') : g'.substitute = g.heir s := by
  rw [substitute, h.todo, h.done, ← List.filter_append, List.head?_filter, StateGraph.heir]

lemma Without.contains (h : Without s m g g') : g'.contains m = false := by
  rw [StateGraph.contains, h.stateOf?, if_pos rfl]
  rfl

lemma heir_live (hc : g.Consistent config []) {t : Nat} (ht : g.heir s = some t) :
    t ≠ s ∧ g.Live t := by
  have hne : t ≠ s := by simpa using List.find?_some ht
  have hmem := List.mem_append.1 (List.mem_of_find?_eq_some ht)
  exact ⟨hne, (hc.scheduled.live_iff t).2 hmem.symm⟩

lemma heir_of_live (hc : g.Consistent config []) {t : Nat} (hne : t ≠ s) (ht : g.Live t) :
    ∃ t', g.heir s = some t' := by
  rw [← Option.isSome_iff_exists, heir, List.find?_isSome]
  have hmem := List.mem_append.2 ((hc.scheduled.live_iff t).1 ht).symm
  exact ⟨t, hmem, by simpa using hne⟩

section Leaving

variable (h : net.WellFormed) (hc : g.Consistent config []) (hg : Standing net g)

include h hc hg

lemma leave_forgotten (hm : g.marking? g.current = some m) :
    ((∃ g', goto g.current (g.forget g.current m) = .ok () g') ↔
      ∃ t n, g.heir g.current = some t ∧ g.marking? t = some n ∧ net.Accepts n) ∧
    ∀ e g', goto g.current (g.forget g.current m) = .error e g' →
      g.heir g.current = none ∧ e = .structural .noStates ∨
        ∃ t n, g.heir g.current = some t ∧ g.marking? t = some n ∧ net.Refuses n e := by
  have hwithout := without_forget (s := g.current) hc.linked m
  have hremoved : (g.forget g.current m).isRemoved g.current = true :=
    (hwithout.removed _).2 (.inr rfl)
  have hmarking : ∀ {t}, g.heir g.current = some t →
      (g.forget g.current m).marking? t = g.marking? t := fun {t} ht => by
    rw [hwithout.marking?, if_neg (heir_live hc ht).1]
  have hc' := hc.forget hm
  constructor
  · constructor
    · rintro ⟨g', hs⟩
      obtain ⟨t, n, ht, hn, ha, -⟩ :=
        (leave_eq_ok_iff (g := g.forget g.current m) h hc' hg.placed hremoved).1 hs
      rw [hwithout.heir] at ht
      exact ⟨t, n, ht, hmarking ht ▸ hn, ha⟩
    · rintro ⟨t, n, ht, hn, ha⟩
      exact ⟨_, (leave_eq_ok_iff (g := g.forget g.current m) h hc' hg.placed hremoved).2
        ⟨t, n, hwithout.heir.trans ht, (hmarking ht).trans hn, ha, rfl⟩⟩
  · intro e g' he
    refine (leave_error (g := g.forget g.current m) h hc' hg.placed hremoved he).imp ?_ ?_
    · exact fun hnone => ⟨hwithout.heir ▸ hnone.1, hnone.2⟩
    · rintro ⟨t, n, ht, hn, hrefuses⟩
      rw [hwithout.heir] at ht
      exact ⟨t, n, ht, hmarking ht ▸ hn, hrefuses⟩

lemma remove_eq_ok_iff (hm : g.marking? s = some m) {r : Marking} :
    remove s g = .ok r g' ↔ r = m ∧ g' = after (remove s) g ∧ (g.current = s →
      ∃ t n, g.heir s = some t ∧ g.marking? t = some n ∧ net.Accepts n) := by
  -- only the last step of a removal can fail, that away from the state
  have hrun := remove_of_known (known_eq_ok_iff.2 hm)
  by_cases hs : g.current = s
  · subst hs
    rw [if_pos rfl] at hrun
    have hleave := (leave_forgotten h hc hg hm).1
    constructor
    · intro hok
      rw [after_of_ok hok]
      rw [hrun, bind_eq_ok] at hok
      obtain ⟨_, g₁, hgoto, hlast⟩ := hok
      cases hlast
      exact ⟨rfl, rfl, fun _ => hleave.1 ⟨g', hgoto⟩⟩
    · rintro ⟨rfl, rfl, hheir⟩
      obtain ⟨g₁, hgoto⟩ := hleave.2 (hheir rfl)
      have hok : remove g.current g = .ok r g₁ := hrun.trans (bind_of_ok _ hgoto)
      rw [after_of_ok hok, hok]
  · rw [if_neg hs] at hrun
    have hok : remove s g = .ok m (g.forget s m) := hrun
    rw [after_of_ok hok, hok]
    constructor
    · intro h
      cases h
      exact ⟨rfl, rfl, fun hcur => absurd hcur hs⟩
    · rintro ⟨rfl, rfl, -⟩
      rfl

lemma remove_error (hm : g.marking? s = some m) {e : Error}
    (he : remove s g = .error e g') : g.current = s ∧
      (g.heir s = none ∧ e = .structural .noStates ∨
        ∃ t n, g.heir s = some t ∧ g.marking? t = some n ∧ net.Refuses n e) := by
  rw [remove_of_known (known_eq_ok_iff.2 hm)] at he
  split at he
  · next hs =>
    subst hs
    rcases bind_eq_error.1 he with hgoto | ⟨_, _, -, hlast⟩
    · exact ⟨rfl, (leave_forgotten h hc hg hm).2 e g' hgoto⟩
    · cases hlast
  · cases he

end Leaving

/-- A state that is known goes in any case, and the removal gives its marking unless the net has to
leave the state and cannot move to another one. -/
theorem state_removed (h : net.Built) (hr : Reached net config g) :
    (∀ s, g.marking? s = none → remove s g = .error (.structural (.unknownState s)) g) ∧
    ∀ s m, g.marking? s = some m →
      Without s m g (after (remove s) g) ∧
      (∀ r g', remove s g = .ok r g' ↔ r = m ∧ g' = after (remove s) g ∧ (g.current = s →
        ∃ t n, g.heir s = some t ∧ g.marking? t = some n ∧ net.Accepts n)) ∧
      (∀ e g', remove s g = .error e g' → g.current = s ∧
        (g.heir s = none ∧ e = .structural .noStates ∨
          ∃ t n, g.heir s = some t ∧ g.marking? t = some n ∧ net.Refuses n e)) ∧
      (net.ScalarOutputs → (∃ t, t ≠ s ∧ g.Live t) →
        remove s g = .ok m (after (remove s) g)) := by
  have hw := h.wellFormed
  obtain ⟨hc, hg⟩ := hr.standing h
  refine ⟨fun s hs => remove_of_unknown (by rw [known, hs]), fun s m hm => ?_⟩
  refine ⟨without_remove hc.linked hm, fun r g' => remove_eq_ok_iff hw hc hg hm,
    fun e g' => remove_error hw hc hg hm, ?_⟩
  rintro hscalar ⟨t, hne, ht⟩
  refine (remove_eq_ok_iff hw hc hg hm).2 ⟨rfl, rfl, fun _ => ?_⟩
  obtain ⟨t', ht'⟩ := heir_of_live hc hne ht
  obtain ⟨-, n, hn⟩ := heir_live hc ht'
  exact ⟨t', n, ht', hn, (hg.admits t' n hn).2 hscalar⟩

def settledDown : StateGraph := after Operation.build.run (ofNet returning ⟨none, false⟩)

theorem state_removed_returning : Reached returning ⟨none, false⟩ settledDown ∧
    settledDown.current = 1 ∧ ∃ m, settledDown.marking? 1 = some m ∧
      remove 1 settledDown = .ok m (after (remove 1) settledDown) ∧
      (after (remove 1) settledDown).contains m = false ∧
      (after (remove 1) settledDown).marking? 0 = some returning.marking := by
  have hbuilt : returning.Built := .described (d := .ofNet returning) rfl
  have hr : Reached returning ⟨none, false⟩ settledDown := .next .build .start
  have hscalar : returning.ScalarOutputs :=
    show ∀ t ∈ returning.transitions, ∀ e ∈ t.outputs, e.2.scalarTuples = true by decide
  obtain ⟨m, hm⟩ : ∃ m, settledDown.marking? 1 = some m := ⟨_, rfl⟩
  obtain ⟨-, hall⟩ := state_removed hbuilt hr
  obtain ⟨hwithout, -, -, hok⟩ := hall 1 m hm
  refine ⟨hr, rfl, m, hm, hok hscalar ⟨0, by decide, returning.marking, rfl⟩,
    hwithout.contains, ?_⟩
  rw [hwithout.marking?, if_neg (by decide)]
  rfl

def motionless : Net :=
  .ofNodes "motionless"
    [⟨"p", Bag.empty, .any, [], []⟩]
    [] Table.empty

/-- The removal of the last state fails, and the state is gone. -/
theorem last_state_removed : motionless.Built ∧
    Reached motionless ⟨none, false⟩ (ofNet motionless ⟨none, false⟩) ∧
    (ofNet motionless ⟨none, false⟩).marking? 0 = some motionless.marking ∧
    ∃ g', remove 0 (ofNet motionless ⟨none, false⟩) = .error (.structural .noStates) g' ∧
      g'.marking? 0 = none :=
  ⟨.described (d := .ofNet motionless) rfl, .start, rfl, _, rfl, rfl⟩

end StateGraph

end ColouredPetri
