import ColouredPetri.Proofs.StateGraph.Exploration
import ColouredPetri.Proofs.StateGraph.Schedule

/-! Processing of waiting states. What is recorded for a state depends on its marking and not on
where the net stood, and a state that is done keeps its successors. So whatever drives the
exploration, it leads to what exploring some number of states leads to. -/

namespace ColouredPetri

namespace StateGraph

variable {net : Net} {config : ExploreConfig} {g g' : StateGraph} {m : Marking} {s : Nat}
variable {rest : List Nat} {u : Unit} {k : Nat}

structure Grows (s : Nat) (g g' : StateGraph) : Prop where
  net : g'.net = g.net
  current : g'.current = g.current
  removed : g'.removed = g.removed
  done : g'.done = g.done
  next : g.forward.next ≤ g'.forward.next
  marking? : ∀ t m, g.marking? t = some m → g'.marking? t = some m
  forward : ∀ t, t ≠ s → t < g.forward.next → g'.forward.get? t = g.forward.get? t

namespace Grows

lemma refl (s : Nat) (g : StateGraph) : Grows s g g :=
  ⟨rfl, rfl, rfl, rfl, Nat.le_refl _, fun _ _ h => h, fun _ _ _ => rfl⟩

lemma trans {g₁ g₂ g₃ : StateGraph} (h₁ : Grows s g₁ g₂) (h₂ : Grows s g₂ g₃) :
    Grows s g₁ g₃ where
  net := h₂.net.trans h₁.net
  current := h₂.current.trans h₁.current
  removed := h₂.removed.trans h₁.removed
  done := h₂.done.trans h₁.done
  next := Nat.le_trans h₁.next h₂.next
  marking? t m hm := h₂.marking? t m (h₁.marking? t m hm)
  forward t hne ht :=
    (h₂.forward t hne (Nat.lt_of_lt_of_le ht h₁.next)).trans (h₁.forward t hne ht)

lemma addEdge (g : StateGraph) (s target : Nat) (label : Firing) :
    Grows s g (g.addEdge s target label) where
  net := rfl
  current := rfl
  removed := rfl
  done := rfl
  next := by simp [StateGraph.addEdge]
  marking? _ _ h := h
  forward t hne _ := by
    change (g.forward.modify s _).get? t = _
    rw [Numbered.get?_modify, if_neg hne]

lemma addState (g : StateGraph) (m : Marking) : Grows s g (g.addState m) where
  net := rfl
  current := rfl
  removed := rfl
  done := rfl
  next := by simp [StateGraph.addState]
  marking? t n hn := by rw [marking?_addState, if_neg (Nat.ne_of_lt (lt_of_live ⟨n, hn⟩)), hn]
  forward t _ ht := Numbered.get?_push_of_lt ht _

lemma record (s : Nat) (g : StateGraph) (r : Firing × Marking) : Grows s g (record s g r) := by
  rw [StateGraph.record]
  split
  · exact addEdge g s _ _
  · split
    · exact ⟨rfl, rfl, rfl, rfl, Nat.le_refl _, fun _ _ h => h, fun _ _ _ => rfl⟩
    · exact (addState g _).trans (addEdge _ s _ _)

lemma foldl_record (found : List (Firing × Marking)) :
    Grows s g (found.foldl (StateGraph.record s) g) := by
  induction found generalizing g with
  | nil => exact refl s g
  | cons r found ih => exact (record s g r).trans ih

lemma recordAll (s : Nat) (found : List (Firing × Marking)) (g : StateGraph) :
    ∃ g₁, Grows s g g₁ ∧ recordAll s found g = { g₁ with done := KeySet.add g₁.done s } := by
  have hnoted : Grows s g (noteDeadlock s found g) := by
    rw [noteDeadlock]
    split
    · exact ⟨rfl, rfl, rfl, rfl, Nat.le_refl _, fun _ _ h => h, fun _ _ _ => rfl⟩
    · exact refl s g
  exact ⟨_, hnoted.trans (foldl_record found), rfl⟩

end Grows

structure Placed (net : Net) (config : ExploreConfig) (g : StateGraph) : Prop where
  consistent : g.Consistent config []
  whole : ∀ s, g.isRemoved s = false
  settled : Settled net g

lemma placed_ofNet (h : net.WellFormed) (config : ExploreConfig) :
    Placed net config (ofNet net config) where
  consistent := .ofNet net config
  whole _ := rfl
  settled := ⟨net.marking, rfl, Net.accepts_marking h, (Net.restore_marking h).symm⟩

structure Onward (g g' : StateGraph) : Prop where
  marking? : ∀ t m, g.marking? t = some m → g'.marking? t = some m
  done : ∀ t ∈ g.done.keys, t ∈ g'.done.keys ∧ g'.successorsOf t = g.successorsOf t

lemma Onward.refl (g : StateGraph) : Onward g g := ⟨fun _ _ h => h, fun _ h => ⟨h, rfl⟩⟩

lemma Onward.trans {g₁ g₂ g₃ : StateGraph} (h₁ : Onward g₁ g₂) (h₂ : Onward g₂ g₃) :
    Onward g₁ g₃ where
  marking? t m hm := h₂.marking? t m (h₁.marking? t m hm)
  done t ht := by
    obtain ⟨hd₁, hs₁⟩ := h₁.done t ht
    obtain ⟨hd₂, hs₂⟩ := h₂.done t hd₁
    exact ⟨hd₂, hs₂.trans hs₁⟩

lemma compute_ok_iff (h : net.WellFormed) (hp : Settled net g) (hr : g.isRemoved s = false) :
    compute s { g with todo := rest } = .ok u g' ↔
      ∃ m found, g.marking? s = some m ∧ net.Accepts m ∧ firingsAt net m = .ok found ∧
        g' = recordAll s found { g with todo := rest, current := s, net := net.restore m } := by
  have hsettled : Settled net { g with todo := rest } := hp
  simp only [compute_eq_ok, firings_eq_ok_iff h hsettled hr]
  constructor
  · rintro ⟨found, _, ⟨m, hm, ha, hfound, rfl⟩, rfl⟩
    exact ⟨m, found, hm, ha, hfound, rfl⟩
  · rintro ⟨m, found, hm, ha, hfound, rfl⟩
    exact ⟨found, _, ⟨m, hm, ha, hfound, rfl⟩, rfl⟩

lemma compute_eq_ok_iff (h : net.WellFormed) (hp : Placed net config g) :
    compute s { g with todo := rest } = .ok u g' ↔
      ∃ m found, g.marking? s = some m ∧ net.Accepts m ∧ firingsAt net m = .ok found ∧
        g' = recordAll s found { g with todo := rest, current := s, net := net.restore m } :=
  compute_ok_iff h hp.settled (hp.whole s)

lemma compute_error_iff (h : net.WellFormed) (hp : Settled net g) (hr : g.isRemoved s = false)
    {cause : EvalError} : compute s { g with todo := rest } = .error (.eval cause) g' ↔
      ∃ m, g.marking? s = some m ∧ net.Accepts m ∧ firingsAt net m = .error (.eval cause) ∧
        g' = { g with todo := s :: rest, current := s, net := net.restore m } := by
  have hsettled : Settled net { g with todo := rest } := hp
  simp only [compute_eq_error, firings_eq_error_iff h hsettled hr]
  constructor
  · rintro ⟨_, ⟨m, hm, ha, hfails, rfl⟩, rfl⟩
    exact ⟨m, hm, ha, hfails, rfl⟩
  · rintro ⟨m, hm, ha, hfails, rfl⟩
    exact ⟨_, ⟨m, hm, ha, hfails, rfl⟩, rfl⟩

lemma Consistent.head_notMem (h : g.Consistent config []) (hq : g.todo = s :: rest) :
    s ∉ g.done.keys := fun hd =>
  Nat.lt_irrefl s (h.scheduled.below s hd s (by rw [hq]; exact List.mem_cons_self))

structure Steady (net : Net) (config : ExploreConfig) (g : StateGraph) : Prop where
  consistent : g.Consistent config []
  settled : Settled net g

lemma Placed.steady (hp : Placed net config g) : Steady net config g :=
  ⟨hp.consistent, hp.settled⟩

lemma Consistent.not_removed (h : g.Consistent config []) (hs : g.Live s) :
    g.isRemoved s = false :=
  Bool.eq_false_iff.2 (h.linked.not_removed hs)

lemma Consistent.head_live (h : g.Consistent config []) (hq : g.todo = s :: rest) : g.Live s :=
  (h.scheduled.live_iff s).2 (.inr (by rw [hq]; exact List.mem_cons_self))

lemma Steady.compute (h : net.WellFormed) (hp : Steady net config g) (hq : g.todo = s :: rest)
    (hs : compute s { g with todo := rest } = .ok u g') :
    Steady net config g' ∧ Onward g g' ∧ g'.done = KeySet.add g.done s ∧
      g'.removed = g.removed := by
  have hlive := hp.consistent.not_removed (hp.consistent.head_live hq)
  obtain ⟨m, found, hm, ha, -, rfl⟩ := (compute_ok_iff h hp.settled hlive).1 hs
  have hconsistent : Consistent config [s]
      { g with todo := rest, current := s, net := net.restore m } :=
    (hp.consistent.start hq).moved ⟨_, _, rfl⟩
  obtain ⟨g₁, hgrows, hg₁⟩ := Grows.recordAll s found
    { g with todo := rest, current := s, net := net.restore m }
  refine ⟨⟨hconsistent.recordAll found, m, ?_, ha, ?_⟩, ⟨fun t n hn => ?_, ?_⟩, ?_, ?_⟩
  · rw [hg₁]
    exact hgrows.marking? _ m (by rw [hgrows.current]; exact hm)
  · rw [hg₁]
    exact hgrows.net
  · rw [hg₁]
    exact hgrows.marking? t n hn
  · intro t ht
    have hne : t ≠ s := by
      rintro rfl
      exact hp.consistent.head_notMem hq ht
    have hlt : t < g.forward.next := by
      rw [hp.consistent.linked.forward_next]
      exact lt_of_live ((hp.consistent.scheduled.live_iff t).2 (.inl ht))
    rw [hg₁]
    refine ⟨KeySet.mem_keys_add.2 (.inl (hgrows.done ▸ ht)), ?_⟩
    have hsame := hgrows.forward t hne hlt
    rw [successorsOf, successorsOf, neighbours, neighbours]
    exact congrArg (fun n => Neighbours.toList (n.getD Table.empty)) hsame
  · rw [hg₁, hgrows.done]
  · rw [hg₁, hgrows.removed]

lemma Placed.compute (h : net.WellFormed) (hp : Placed net config g) (hq : g.todo = s :: rest)
    (hs : compute s { g with todo := rest } = .ok u g') :
    Placed net config g' ∧ Onward g g' ∧ g'.done = KeySet.add g.done s := by
  obtain ⟨⟨hconsistent, hsettled⟩, honward, hdone, hremoved⟩ := hp.steady.compute h hq hs
  refine ⟨⟨hconsistent, fun t => ?_, hsettled⟩, honward, hdone⟩
  rw [isRemoved, hremoved]
  exact hp.whole t

lemma Placed.explore (h : net.WellFormed) (hp : Placed net config g)
    (hs : explore k g = .ok k g') : Placed net config g' ∧ Onward g g' ∧
      g'.done.size = g.done.size + k := by
  induction k generalizing g with
  | zero =>
    obtain ⟨-, rfl⟩ := explore_zero hs
    exact ⟨hp, .refl g', rfl⟩
  | succ k ih =>
    obtain ⟨s, rest, g₁, hq, hone, hrest⟩ := explore_succ_eq_ok_iff.1 hs
    obtain ⟨hp₁, ho₁, hd₁⟩ := hp.compute h hq hone
    obtain ⟨hp', ho, hd⟩ := ih hp₁ hrest
    refine ⟨hp', ho₁.trans ho, ?_⟩
    have hadd := KeySet.length_keys_add (hp.consistent.head_notMem hq)
    rw [hd, hd₁, Table.size_eq_length_keys, hadd, Table.size_eq_length_keys]
    omega

lemma explore_moved (h : net.WellFormed) (hp : Placed net config g) {h₀ : StateGraph}
    (hp₀ : Placed net config h₀) (hm : Moved g h₀) (hs : explore k g = .ok k g') :
    ∃ h', explore k h₀ = .ok k h' ∧ Moved g' h' := by
  cases k with
  | zero =>
    obtain ⟨-, rfl⟩ := explore_zero hs
    exact ⟨h₀, rfl, hm⟩
  | succ k =>
    obtain ⟨s, rest, g₁, hq, hone, hrest⟩ := explore_succ_eq_ok_iff.1 hs
    refine ⟨g', explore_succ_eq_ok_iff.2 ⟨s, rest, g₁, ?_, ?_, hrest⟩, .refl g'⟩
    · obtain ⟨_, _, rfl⟩ := hm
      exact hq
    · obtain ⟨m, found, hmark, ha, hfound, rfl⟩ := (compute_eq_ok_iff h hp).1 hone
      refine (compute_eq_ok_iff h hp₀).2 ⟨m, found, ?_, ha, hfound, ?_⟩
      · obtain ⟨_, _, rfl⟩ := hm
        exact hmark
      · obtain ⟨_, _, rfl⟩ := hm
        rfl

end StateGraph

end ColouredPetri
