import ColouredPetri.Proofs.ExplorationOrder
import ColouredPetri.Proofs.StateGraph.Distances

namespace ColouredPetri

namespace StateGraph

variable {net : Net} {config : ExploreConfig} {g u : StateGraph} {ms : List Marking}
variable {level : Nat → Nat} {m n : Marking} {i j k : Nat}

structure BreadthFirst (net : Net) (g : StateGraph) : Prop where
  sorted : ∀ i j m n, i < j → g.marking? i = some m → g.marking? j = some n →
    net.distance Net.Counts m ≤ net.distance Net.Counts n ∧
    (net.distance Net.Step m ≤ net.distance Net.Step n ↔ (net.Accepts n → net.Accepts m))
  edge : ∀ i j f, (j, f) ∈ g.successorsOf i → ∃ m n,
    g.marking? i = some m ∧ g.marking? j = some n ∧
    net.distance Net.Counts n ≤ net.distance Net.Counts m + 1 ∧
    (net.distance Net.Step n ≤ net.distance Net.Step m + 1 ↔ net.Accepts n)
  finite : ∀ i m, g.marking? i = some m → net.distance Net.Counts m ≠ ⊤
  fired : ∀ i m, g.marking? i = some m → net.Accepts m →
    net.distance Net.Step m = net.distance Net.Counts m
  refused : ∀ i m, g.marking? i = some m → ¬ net.Accepts m → net.distance Net.Step m = ⊤
  accepted : ∀ i m, g.marking? i = some m → i ∈ g.done.keys ∨ net.ScalarOutputs → net.Accepts m

namespace Ranked

lemma distance_counts (h : net.WellFormed) (hr : Ranked net g u k ms level)
    (hm : g.marking? i = some m) : net.distance Net.Counts m = level i :=
  hr.leveled.distance_counts h hr.explored (hr.marking? i m hm)

lemma distance_step (h : net.WellFormed) (hr : Ranked net g u k ms level)
    (hm : g.marking? i = some m) (ha : net.Accepts m) : net.distance Net.Step m = level i :=
  hr.leveled.distance_step h hr.explored (hr.marking? i m hm) ha

lemma level_le (hr : Ranked net g u k ms level) (hij : i < j) (hn : g.marking? j = some n) :
    level i ≤ level j :=
  hr.leveled.mono i j (Nat.le_of_lt hij) (List.getElem?_eq_some_iff.1 (hr.marking? j n hn)).1

lemma sorted (h : net.WellFormed) (hr : Ranked net g u k ms level) (hij : i < j)
    (hm : g.marking? i = some m) (hn : g.marking? j = some n) :
    net.distance Net.Step m ≤ net.distance Net.Step n ↔ (net.Accepts n → net.Accepts m) := by
  by_cases hacc : net.Accepts n
  · rw [hr.distance_step h hn hacc]
    by_cases ha : net.Accepts m
    · rw [hr.distance_step h hm ha]
      exact iff_of_true (Nat.cast_le.2 (hr.level_le hij hn)) fun _ => ha
    · rw [Net.distance_step_of_refused h ha]
      exact iff_of_false (by simp) fun himp => ha (himp hacc)
  · rw [Net.distance_step_of_refused h hacc]
    exact iff_of_true le_top fun hn => absurd hn hacc

lemma edge (h : net.WellFormed) (hr : Ranked net g u k ms level) {f : Firing}
    (he : (j, f) ∈ g.successorsOf i) (hm : g.marking? i = some m) (hn : g.marking? j = some n) :
    level j ≤ level i + 1 ∧
      (net.distance Net.Step n ≤ net.distance Net.Step m + 1 ↔ net.Accepts n) := by
  have hstep := hr.leveled.edge i j f (hr.edges i j f he)
  have hi : i < k := ((hr.explored.edges i j f).1 (hr.edges i j f he)).1
  rw [hr.distance_step h hm (hr.explored.accepted i m hi (hr.marking? i m hm))]
  refine ⟨hstep, ?_⟩
  by_cases hacc : net.Accepts n
  · rw [hr.distance_step h hn hacc]
    exact iff_of_true (by exact_mod_cast hstep) hacc
  · rw [Net.distance_step_of_refused h hacc]
    refine iff_of_false (fun hle => ?_) hacc
    exact ENat.natCast_ne_top (level i + 1) (by exact_mod_cast top_le_iff.1 hle)

end Ranked

lemma Ranked.breadthFirst (h : net.WellFormed) (hr : Ranked net g u k ms level)
    (hp : Placed net config g) : BreadthFirst net g where
  sorted i j m n hij hm hn := by
    rw [hr.distance_counts h hm, hr.distance_counts h hn]
    exact ⟨Nat.cast_le.2 (hr.level_le hij hn), hr.sorted h hij hm hn⟩
  edge i j f he := by
    obtain ⟨⟨m, hm⟩, ⟨n, hn⟩⟩ := hp.consistent.linked.ends i j f he
    obtain ⟨hlevel, hstep⟩ := hr.edge h he hm hn
    refine ⟨m, n, hm, hn, ?_, hstep⟩
    rw [hr.distance_counts h hm, hr.distance_counts h hn]
    exact_mod_cast hlevel
  finite i m hm := by
    rw [hr.distance_counts h hm]
    exact ENat.natCast_ne_top _
  fired i m hm ha := by rw [hr.distance_step h hm ha, hr.distance_counts h hm]
  refused _ _ _ ha := Net.distance_step_of_refused h ha
  accepted i m hm := by
    rintro (hdone | hs)
    · have hi : i < k := by
        by_contra hi
        -- a state that waits is not done
        have hwaits : i ∈ g.todo := hr.waiting i m hm (Nat.not_lt.1 hi)
        exact Nat.lt_irrefl i (hp.consistent.scheduled.below i hdone i hwaits)
      exact hr.explored.accepted i m hi (hr.marking? i m hm)
    · exact hr.explored.accepts_of_scalar h hs (hr.marking? i m hm)

/-- However a graph is explored without removing states, its states come in the order of their
distances, and its edges lead at most one step away. In firings this holds up to what waits and is
refused, which no firing reaches. -/
theorem breadth_first (h : net.Built) (hrun : Relation.ReflTransGen Drives (ofNet net config) g) :
    BreadthFirst net g := by
  have hw := h.wellFormed
  obtain ⟨hp, k, g₁, hk, hmoved⟩ := Advances.of_drives hw hrun (placed_ofNet hw config)
  obtain ⟨u, ms, level, hr⟩ := exists_ranked hw hk
  obtain ⟨_, _, rfl⟩ := hmoved
  exact Ranked.breadthFirst (u := u) hw
    ⟨hr.explored, hr.leveled, hr.marking?, hr.edges, hr.waiting⟩ hp

def detouring : Net :=
  .ofNodes "detouring"
    [⟨"p", Bag.ofList [.int 1], .any, [], ["s", "t"]⟩, ⟨"q", Bag.empty, .any, ["s"], ["u"]⟩,
      ⟨"r", Bag.empty, .any, ["t", "u"], []⟩]
    [⟨"s", .truth, [("p", .var "x")], [("q", .var "x")]⟩,
      ⟨"t", .truth, [("p", .var "x")], [("r", .var "x")]⟩,
      ⟨"u", .truth, [("q", .var "x")], [("r", .var "x")]⟩] Table.empty

theorem breadth_first_detouring : ∃ g m n f,
    Relation.ReflTransGen Drives (ofNet detouring ⟨none, false⟩) g ∧ g.current = 1 ∧
    g.marking? 1 = some m ∧ g.marking? 2 = some n ∧ g.done.keys = [0, 1] ∧
    g.successorsOf 1 = [(2, f)] ∧
    detouring.distance Net.Step m ≤ detouring.distance Net.Step n ∧
    detouring.distance Net.Step n ≤ detouring.distance Net.Step m + 1 := by
  have hbuilt : detouring.Built := .described (d := .ofNet detouring) rfl
  have hexplore : Drives (ofNet detouring ⟨none, false⟩)
      (after (Operation.explore 2).run (ofNet detouring ⟨none, false⟩)) :=
    ⟨.explore 2, nofun, rfl⟩
  have hrun := Relation.ReflTransGen.single hexplore
  have hb := breadth_first hbuilt hrun
  have hscalar : detouring.ScalarOutputs :=
    show ∀ t ∈ detouring.transitions, ∀ e ∈ t.outputs, e.2.scalarTuples = true by decide
  have hn := hb.accepted 2 _ rfl (.inr hscalar)
  refine ⟨_, _, _, ⟨"u", Binding.single "x" (.int 1)⟩, hrun, rfl, rfl, rfl, rfl, rfl, ?_, ?_⟩
  · exact (hb.sorted 1 2 _ _ (by decide) rfl rfl).2.2 fun _ => hb.accepted 1 _ rfl (.inr hscalar)
  · obtain ⟨m, n, hm, hn', -, hstep⟩ :=
      hb.edge 1 2 ⟨"u", Binding.single "x" (.int 1)⟩ (List.mem_singleton.2 rfl)
    cases hm
    cases hn'
    exact hstep.2 hn

def refusing : Net :=
  .ofNodes "refusing"
    [⟨"q", Bag.empty, .oneOf (KeySet.ofList [.tuple [.tuple [.int 1]]]), ["pack"], []⟩,
      ⟨"r", Bag.empty, .any, ["put"], []⟩]
    [⟨"pack", .truth, [], [("q", .tuple [.multi [.value (.int 1)]])]⟩,
      ⟨"put", .truth, [], [("r", .value .dot)]⟩] Table.empty

/-- The first state that is found is refused and so no firing reaches it, but the second one is
reached by a firing. -/
theorem refused_before_reached : refusing.Built ∧ ∃ g m₀ m n f,
    Relation.ReflTransGen Drives (ofNet refusing ⟨none, false⟩) g ∧
    g.marking? 0 = some m₀ ∧ g.marking? 1 = some m ∧ g.marking? 2 = some n ∧
    (1, f) ∈ g.successorsOf 0 ∧
    ¬ refusing.distance Net.Step m ≤ refusing.distance Net.Step n ∧
    ¬ refusing.distance Net.Step m ≤ refusing.distance Net.Step m₀ + 1 := by
  have hbuilt : refusing.Built := .described (d := .ofNet refusing) rfl
  have hexplore : Drives (ofNet refusing ⟨none, false⟩)
      (after (Operation.explore 1).run (ofNet refusing ⟨none, false⟩)) :=
    ⟨.explore 1, nofun, rfl⟩
  have hrefused : ¬ refusing.Accepts (Marking.single "q" (Bag.ofList [.tuple [.int 1]])) :=
    fun ha => nomatch ha _ List.mem_cons_self (.tuple [.int 1]) List.mem_cons_self
  have hput : Net.Step refusing (refusing.restore (Marking.single "r" (Bag.ofList [.dot]))) :=
    ⟨⟨"put", Table.empty⟩, ⟨_, rfl, List.mem_cons_self⟩, rfl⟩
  have htop := Net.distance_step_of_refused hbuilt.wellFormed hrefused
  refine ⟨hbuilt, _, _, _, _, ⟨"pack", Table.empty⟩, .single hexplore, rfl, rfl, rfl,
    List.mem_cons_self, ?_, ?_⟩
  · intro hle
    have hone := Net.distance_le (.succ .zero hput) rfl
    exact ENat.natCast_ne_top 1 (top_le_iff.1 ((htop.symm.le.trans hle).trans hone))
  · intro hle
    have hzero : refusing.distance Net.Step refusing.marking ≤ (0 : Nat) :=
      Net.distance_le .zero rfl
    have hone := hle.trans (add_le_add_left hzero 1)
    exact ENat.natCast_ne_top 1 (top_le_iff.1 (htop.symm.le.trans hone))

end StateGraph

end ColouredPetri
