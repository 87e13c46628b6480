import ColouredPetri.Proofs.FiringOutcome
import ColouredPetri.Proofs.Reachability
import ColouredPetri.Proofs.StateGraph.Position

/-! The live net of a state graph stands at the current state whenever its places accept the marking
of that state. They accept all markings if tuples on output arcs have scalar parts; otherwise the
position can be taken without the net. -/

namespace ColouredPetri

namespace StateGraph

variable {net : Net} {config : ExploreConfig} {g g' : StateGraph} {m : Marking} {s : Nat}

lemma Reached.standing (h : net.Built) (hr : Reached net config g) :
    g.Consistent config [] ∧ Standing net g :=
  (Standing.kept h.wellFormed config).reached
    ⟨.ofNet net config, .ofNet h.wellFormed⟩ hr

lemma currentState_of_live (hl : g.Linked) (h : g.Live g.current) :
    g.currentState = .ok g.current :=
  if_neg (hl.not_removed h)

lemma Standing.marking_iff (h : net.WellFormed) (hg : Standing net g)
    (hm : g.marking? g.current = some m) :
    (g.net.marking = m ↔ net.Accepts m) ∧ (net.ScalarOutputs → g.net.marking = m) := by
  have hadmits := hg.admits _ m hm
  have hiff : g.net.marking = m ↔ net.Accepts m := by
    constructor
    · rintro rfl
      obtain ⟨n, hn, hnet⟩ := hg.placed
      have := Net.accepts_marking (hg.placed.wellFormed h)
      rwa [hnet, Net.accepts_restore, ← hnet] at this
    · intro ha
      rw [hg.current m hm ha, Net.marking_restore h hadmits.1]
  exact ⟨hiff, fun hs => hiff.2 (hadmits.2 hs)⟩

lemma current_of_goto (hl : g.Linked) (hm : g.marking? s = some m)
    (hs : goto s g = .ok () g') : g'.current = s := by
  have hrun := goto_eq (if_neg (hl.not_removed ⟨m, hm⟩)) (known_eq_ok_iff.2 hm)
  rw [hs] at hrun
  split at hrun
  · rw [editNet] at hrun
    split at hrun <;> cases hrun
    rfl
  · next hc =>
    cases hrun
    exact not_not.1 hc

theorem position_kept (h : net.Built) (hr : Reached net config g)
    (hleft : ∃ s m, g.marking? s = some m) :
    (∃ s m, g.currentState = .ok s ∧ g.marking? s = some m ∧
      (g.net.marking = m ↔ net.Accepts m) ∧ (net.ScalarOutputs → g.net.marking = m)) ∧
    ∀ s m g', g.marking? s = some m → goto s g = .ok () g' → g'.currentState = .ok s ∧
      (g'.net.marking = m ↔ net.Accepts m) ∧ (net.ScalarOutputs → g'.net.marking = m) := by
  have hw := h.wellFormed
  constructor
  · obtain ⟨hc, hg⟩ := hr.standing h
    obtain ⟨m, hm⟩ := hg.live hleft
    exact ⟨g.current, m, currentState_of_live hc.linked ⟨m, hm⟩, hm, hg.marking_iff hw hm⟩
  · intro s m g' hm hs
    -- the graph behind the move is reached as well, and has the same markings
    have hcur := current_of_goto (hr.standing h).1.linked hm hs
    have hnext := (Reached.next (.goto s) hr).standing h
    have hmoved := moved_goto s g (.refl g)
    rw [show after (Operation.goto s).run g = g' from after_of_ok hs] at hnext
    rw [after_of_ok hs] at hmoved
    have hm' : g'.marking? g'.current = some m := by
      obtain ⟨_, _, rfl⟩ := hmoved
      exact hcur ▸ hm
    refine ⟨?_, hnext.2.marking_iff hw hm'⟩
    rw [← hcur]
    exact currentState_of_live hnext.1.linked ⟨m, hm'⟩

def retreated : StateGraph :=
  after (Operation.remove 1).run (after Operation.build.run (ofNet moving ⟨none, false⟩))

theorem position_kept_retreated : retreated.removed.keys = [1] ∧ retreated.currentState = .ok 0 ∧
    ∃ m, retreated.marking? 0 = some m ∧ retreated.net.marking = m := by
  have hb : moving.Built := .described (d := .ofNet moving) rfl
  have hr : Reached moving ⟨none, false⟩ retreated := .next (.remove 1) (.next .build .start)
  have hscalar : moving.ScalarOutputs :=
    show ∀ t ∈ moving.transitions, ∀ e ∈ t.outputs, e.2.scalarTuples = true by decide
  obtain ⟨⟨s, m, hs, hm, -, hstands⟩, -⟩ := position_kept hb hr ⟨0, moving.marking, rfl⟩
  cases hs.symm.trans (show retreated.currentState = .ok 0 from rfl)
  exact ⟨rfl, rfl, m, hm, hstands hscalar⟩

def stranded : StateGraph := after Operation.build.run (ofNet Net.packing ⟨none, false⟩)

/-- The position is taken although the net stays behind, and a move there then succeeds. -/
theorem position_lost : Net.packing.Built ∧ Reached Net.packing ⟨none, false⟩ stranded ∧
    stranded.currentState = .ok 1 ∧ goto 1 stranded = .ok () stranded ∧
    ∃ m, stranded.marking? 1 = some m ∧ stranded.net.marking ≠ m :=
  ⟨.described (d := .ofNet Net.packing) rfl, .next .build .start, rfl, rfl, _, rfl, by decide⟩

end StateGraph

end ColouredPetri
