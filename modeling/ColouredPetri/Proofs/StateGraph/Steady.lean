import ColouredPetri.Proofs.StateGraph.Processing
import ColouredPetri.Proofs.StateGraph.Removal
import ColouredPetri.Proofs.StateGraph.Successes

namespace ColouredPetri

namespace StateGraph

variable {net : Net} {config : ExploreConfig} {g g' : StateGraph} {m : Marking} {s : Nat}
variable {u : Unit}

def Succeeds (g g' : StateGraph) : Prop := ∃ op : Operation, op.run g = .ok () g'

namespace Steady

lemma current_live (hp : Steady net config g) : g.Live g.current := by
  obtain ⟨m, hm, -⟩ := hp.settled
  exact ⟨m, hm⟩

lemma currentState (hp : Steady net config g) : g.currentState = .ok g.current :=
  if_neg (hp.consistent.linked.not_removed hp.current_live)

lemma remarked (hp : Steady net config g) : net.Remarked g.net := by
  obtain ⟨m, -, ha, hnet⟩ := hp.settled
  exact ⟨m, ha, hnet⟩

lemma goto_eq_ok_iff (h : net.WellFormed) (hp : Steady net config g) (hs : g.Live s) :
    goto s g = .ok u g' ↔ ∃ m, g.marking? s = some m ∧ net.Accepts m ∧
      g' = { g with current := s, net := net.restore m } :=
  StateGraph.goto_eq_ok_iff h hp.settled (hp.consistent.not_removed hs)

lemma moved (hp : Steady net config g) (hm : g.marking? s = some m) (ha : net.Accepts m) :
    Steady net config { g with current := s, net := net.restore m } :=
  ⟨hp.consistent.moved ⟨_, _, rfl⟩, m, hm, ha, rfl⟩

lemma goto (h : net.WellFormed) (hp : Steady net config g) (hs : goto s g = .ok u g') :
    Steady net config g' := by
  by_cases hr : g.isRemoved s = true
  · have hland : landing s g = .ok g.current := (if_pos hr).trans hp.currentState
    obtain ⟨m, hm⟩ := hp.current_live
    rw [goto_eq hland (known_eq_ok_iff.2 hm), if_neg (not_not.2 rfl)] at hs
    cases hs
    exact hp
  · obtain ⟨m, hm, ha, rfl⟩ :=
      (StateGraph.goto_eq_ok_iff h hp.settled (Bool.eq_false_iff.2 hr)).1 hs
    exact hp.moved hm ha

lemma remove (h : net.WellFormed) (hp : Steady net config g) (hs : remove s g = .ok m g') :
    Steady net config g' := by
  cases hk : g.known s with
  | error e => cases (remove_of_unknown hk).symm.trans hs
  | ok n =>
    have hn := known_eq_ok_iff.1 hk
    have hforget := hp.consistent.forget hn
    have hwithout := without_forget (s := s) hp.consistent.linked n
    rw [remove_of_known hk] at hs
    split at hs
    · next hcur =>
      subst hcur
      obtain ⟨_, g₁, hgoto, hlast⟩ := bind_eq_ok.1 hs
      cases hlast
      have hremoved := (hwithout.removed g.current).2 (.inr rfl)
      obtain ⟨t, k, -, hk, ha, rfl⟩ := (leave_eq_ok_iff (g := g.forget g.current m) h hforget
        hp.remarked hremoved).1 hgoto
      exact ⟨hforget.moved ⟨_, _, rfl⟩, k, hk, ha, rfl⟩
    · next hcur =>
      cases hs
      obtain ⟨k, hk, ha, hnet⟩ := hp.settled
      exact ⟨hforget, k, (hwithout.marking? g.current).trans (by rw [if_neg hcur, hk]), ha, hnet⟩

lemma followed (h : net.WellFormed) :
    Followed fun g g' => Steady net config g → Steady net config g' where
  refl _ := id
  trans h₁ h₂ hp := h₂ (h₁ hp)
  goto hs hp := hp.goto h hs
  compute hq hs hp := (hp.compute h hq hs).1

lemma of_succeeds (h : net.WellFormed) (hr : Relation.ReflTransGen Succeeds g g')
    (hp : Steady net config g) : Steady net config g' := by
  induction hr with
  | refl => exact hp
  | tail _ hstep ih =>
    obtain ⟨op, hs⟩ := hstep
    refine (followed h).run op ?_ hs ih
    rintro s rfl hs hp
    obtain ⟨m, g₁, hremove, hlast⟩ := bind_eq_ok.1 hs
    cases hlast
    exact hp.remove h hremove

end Steady

end StateGraph

end ColouredPetri
