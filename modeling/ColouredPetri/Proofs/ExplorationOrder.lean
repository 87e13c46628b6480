import ColouredPetri.Proofs.GraphCollections
import ColouredPetri.Proofs.Reachability
import ColouredPetri.Proofs.StateGraph.Processing
import ColouredPetri.Proofs.StateGraph.Successes

namespace ColouredPetri

namespace StateGraph

variable {net : Net} {config : ExploreConfig} {g g' : StateGraph} {m : Marking} {s k : Nat}

def Drives (g g' : StateGraph) : Prop :=
  ∃ op : Operation, (∀ s, op ≠ .remove s) ∧ op.run g = .ok () g'

def Advances (net : Net) (config : ExploreConfig) (g g' : StateGraph) : Prop :=
  Placed net config g → Placed net config g' ∧ ∃ k g₁, explore k g = .ok k g₁ ∧ Moved g₁ g'

namespace Advances

lemma refl (g : StateGraph) : Advances net config g g := fun hp => ⟨hp, 0, g, rfl, .refl g⟩

lemma trans (h : net.WellFormed) {g₁ g₂ g₃ : StateGraph} (h₁ : Advances net config g₁ g₂)
    (h₂ : Advances net config g₂ g₃) : Advances net config g₁ g₃ := by
  intro hp
  obtain ⟨hp₂, j, u, hj, hu⟩ := h₁ hp
  obtain ⟨hp₃, k, v, hk, hv⟩ := h₂ hp₂
  obtain ⟨w, hw, hvw⟩ := explore_moved h hp₂ (hp.explore h hj).1 hu.symm hk
  exact ⟨hp₃, j + k, w, explore_add.2 ⟨u, hj, hw⟩, hvw.symm.trans hv⟩

lemma of_explore (h : net.WellFormed) (hs : explore k g = .ok k g') :
    Advances net config g g' :=
  fun hp => ⟨(hp.explore h hs).1, k, g', hs, .refl g'⟩

lemma of_goto (h : net.WellFormed) {u : Unit} (hs : goto s g = .ok u g') :
    Advances net config g g' := by
  intro hp
  obtain ⟨m, hm, ha, rfl⟩ := (goto_eq_ok_iff h hp.settled (hp.whole s)).1 hs
  have hmoved : Moved g { g with current := s, net := net.restore m } := ⟨_, _, rfl⟩
  exact ⟨⟨hp.consistent.moved hmoved, hp.whole, m, hm, ha, rfl⟩, 0, g, rfl, hmoved⟩

lemma followed (h : net.WellFormed) : Followed (Advances net config) where
  refl := refl
  trans := trans h
  goto hs := of_goto h hs
  compute hq hs := of_explore h (k := 1) (explore_succ_eq_ok_iff.2 ⟨_, _, _, hq, hs, rfl⟩)

lemma of_drives (h : net.WellFormed) (hr : Relation.ReflTransGen Drives g g') :
    Advances net config g g' := by
  induction hr with
  | refl => exact refl g
  | tail _ hstep ih =>
    obtain ⟨op, hno, hs⟩ := hstep
    exact ih.trans h ((followed h).run op (fun s hremove => absurd hremove (hno s)) hs)

end Advances

lemma Advances.ends (h : net.WellFormed) (ha : Advances net config g g') (hp : Placed net config g)
    (hnil : g'.todo = []) : ∃ k g₀, k ≤ g'.size ∧ explore k g = .ok k g₀ ∧ g₀.todo = [] ∧
      Placed net config g₀ ∧ Moved g₀ g' := by
  obtain ⟨-, k, g₀, hk, hmoved⟩ := ha hp
  obtain ⟨hp₀, -, hcount⟩ := hp.explore h hk
  have hsame : g₀.todo = g'.todo ∧ g₀.done = g'.done := by
    obtain ⟨_, _, rfl⟩ := hmoved
    exact ⟨rfl, rfl⟩
  refine ⟨k, g₀, ?_, hk, hsame.1.trans hnil, hp₀, hmoved⟩
  rw [size, hnil, ← hsame.2, hcount]
  omega

lemma Placed.net_name (hp : Placed net config g) : g.net.name = net.name := by
  obtain ⟨m, -, -, hnet⟩ := hp.settled
  rw [hnet]
  rfl

lemma Moved.summary_eq (hm : Moved g g') (hn : g'.net.name = g.net.name) :
    g'.summary = g.summary := by
  obtain ⟨net', current, rfl⟩ := hm
  rw [summary, summary, hn]
  rfl

lemma Placed.currentState (hp : Placed net config g) : g.currentState = .ok g.current := by
  rw [StateGraph.currentState, hp.whole]
  rfl

lemma successors_of_explore (h : net.WellFormed) (hp : Placed net config g)
    (hs : g.marking? s = some m) (he : explore k g = .ok k g') (hend : g'.todo = [])
    (hk : k ≤ maxStates) : ∃ g₂, successors s g = .ok (g'.successorsOf s) g₂ ∧
      Placed net config g₂ ∧ g₂.current = g.current := by
  obtain ⟨j, g₁, hbuild, hj, hrest, hstop⟩ :=
    processWhile_of_explore (· ≤ s) he hend (Nat.lt_succ_of_le hk)
  obtain ⟨hp₁, honward, -⟩ := hp.explore h hj
  obtain ⟨n, hn, ha, -⟩ := hp.settled
  have hgoto : goto g.current g₁ =
      .ok () { g₁ with current := g.current, net := net.restore n } :=
    (goto_eq_ok_iff h hp₁.settled (hp₁.whole _)).2 ⟨n, honward.marking? _ n hn, ha, rfl⟩
  have hlive : g₁.Live s := ⟨m, honward.marking? s m hs⟩
  have hdone : s ∈ g₁.done.keys :=
    hp₁.consistent.scheduled.mem_done hlive fun t ht => by simpa using hstop t ht
  have hfinal : g'.successorsOf s = g₁.successorsOf s :=
    ((hp₁.explore h hrest).2.1.done s hdone).2
  have hknown : look (fun g => g.known s) g = .ok m g :=
    look_eq_ok_iff.2 ⟨known_eq_ok_iff.2 hs, rfl⟩
  have hcurrent : look currentState g = .ok g.current g :=
    look_eq_ok_iff.2 ⟨hp.currentState, rfl⟩
  refine ⟨_, ?_, (Advances.of_goto h hgoto hp₁).1, rfl⟩
  rw [hfinal, successors]
  refine (bind_of_ok _ hknown).trans ((bind_of_ok _ hcurrent).trans ?_)
  exact (bind_of_ok _ hbuild).trans (bind_of_ok _ hgoto)

/-- However the calls before it went, a build that ends gives the graph of a single build, except
for where the net stands. At each moment before it the successors of a state were already final.
No graph has more states than there are numbers for them. -/
theorem build_after_calls (h : net.Built) {G : StateGraph}
    (hrun : Relation.ReflTransGen Drives (ofNet net config) g) (hb : build g = .ok () G)
    (hfits : G.size ≤ maxStates) :
    (∃ g₀, build (ofNet net config) = .ok () g₀ ∧
      G = { g₀ with net := G.net, current := G.current } ∧ G.summary = g₀.summary ∧
      ∀ labels, G.dot labels = g₀.dot labels) ∧
    ∀ g₁, Relation.ReflTransGen Drives (ofNet net config) g₁ → Relation.ReflTransGen Drives g₁ g →
      ∀ s m, g₁.marking? s = some m → ∃ g₂, successors s g₁ = .ok (G.successorsOf s) g₂ ∧
        g₂.currentState = g₁.currentState := by
  have hw := h.wellFormed
  have hfresh := placed_ofNet hw config
  have hlast : Advances net config g G := (Advances.followed hw).processWhile hb
  have hnil : G.todo = [] := todo_of_build hb
  constructor
  · have hadvances := (Advances.of_drives hw hrun).trans hw hlast
    obtain ⟨k, g₀, hle, hk, hend, hp₀, hmoved⟩ := hadvances.ends hw hfresh hnil
    have hname : G.net.name = g₀.net.name := by
      rw [(hadvances hfresh).1.net_name, hp₀.net_name]
    refine ⟨g₀, processAll_of_explore hk hend (by omega), ?_, hmoved.summary_eq hname, ?_⟩
    · obtain ⟨_, _, rfl⟩ := hmoved
      rfl
    · obtain ⟨_, _, rfl⟩ := hmoved
      exact fun _ => rfl
  · intro g₁ hrun₁ hrun₂ s m hs
    obtain ⟨hp₁, -⟩ := Advances.of_drives hw hrun₁ hfresh
    have hadvances := (Advances.of_drives hw hrun₂).trans hw hlast
    obtain ⟨k, g₀, hle, hk, hend, -, hmoved⟩ := hadvances.ends hw hp₁ hnil
    obtain ⟨g₂, hsucc, hp₂, hcurrent⟩ :=
      successors_of_explore hw hp₁ hs hk hend (hle.trans hfits)
    refine ⟨g₂, ?_, ?_⟩
    · obtain ⟨_, _, rfl⟩ := hmoved
      exact hsucc
    · rw [hp₂.currentState, hp₁.currentState, hcurrent]

def toured : StateGraph :=
  after (Operation.goto 1).run
    (after (Operation.explore 1).run (ofNet returning ⟨some 2, false⟩))

theorem build_after_calls_toured :
    Relation.ReflTransGen Drives (ofNet returning ⟨some 2, false⟩) toured ∧ ∃ G g₀ g₂,
      build toured = .ok () G ∧ build (ofNet returning ⟨some 2, false⟩) = .ok () g₀ ∧
      G.current = 1 ∧ G.summary = g₀.summary ∧
      successors 0 toured = .ok (G.successorsOf 0) g₂ ∧ g₂.currentState = .ok 1 := by
  have hbuilt : returning.Built := .described (d := .ofNet returning) rfl
  have hexplore : Drives (ofNet returning ⟨some 2, false⟩)
      (after (Operation.explore 1).run (ofNet returning ⟨some 2, false⟩)) :=
    ⟨.explore 1, nofun, rfl⟩
  have hrun : Relation.ReflTransGen Drives (ofNet returning ⟨some 2, false⟩) toured :=
    .tail (.tail .refl hexplore) ⟨.goto 1, nofun, rfl⟩
  obtain ⟨⟨g₀, hg₀, -, hsummary, -⟩, hsucc⟩ :=
    build_after_calls hbuilt hrun (show build toured = .ok () _ from rfl)
      (show 2 ≤ maxStates by decide)
  obtain ⟨g₂, hg₂, hcurrent⟩ := hsucc toured hrun .refl 0 returning.marking rfl
  exact ⟨hrun, _, g₀, g₂, rfl, hg₀, rfl, hsummary, hg₂, hcurrent⟩

end StateGraph

end ColouredPetri
