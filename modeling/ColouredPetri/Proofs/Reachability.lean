import ColouredPetri.Proofs.Nets.Built
import ColouredPetri.Proofs.StateGraph.Exploration
import Mathlib.Logic.Relation

/-! The graph that is built is the reachability graph of the net: its states are the markings that
firings of modes reach, and its edges are these firings. -/

namespace ColouredPetri

def Net.Step (net net' : Net) : Prop := ∃ f, net.Fires f net'

namespace StateGraph

variable {net : Net} {g : StateGraph} {ms : List Marking} {m m' : Marking}

lemma Explored.reachable (h : net.WellFormed) {k : Nat} (hx : Explored net g k ms)
    (haccepts : ∀ n, Relation.ReflTransGen Net.Step net (net.restore n) → net.Accepts n →
      ∀ f m, (net.restore n).Leads f m → m ∈ ms → net.Accepts m)
    {i : Nat} (hm : ms[i]? = some m) :
    net.Accepts m ∧ Relation.ReflTransGen Net.Step net (net.restore m) := by
  -- A state was found from one with a smaller number, which is reached before it.
  induction i using Nat.strongRecOn generalizing m with
  | ind i ih =>
    rcases Nat.eq_zero_or_pos i with rfl | hpos
    · cases hx.first.symm.trans hm
      rw [Net.restore_marking h]
      exact ⟨Net.accepts_marking h, .refl⟩
    · obtain ⟨j, f, he, hlt⟩ := hx.origin i hpos (List.getElem?_eq_some_iff.1 hm).1
      obtain ⟨-, n, n', hn, hn', hl⟩ := (hx.edges j i f).1 he
      cases hm.symm.trans hn'
      obtain ⟨ha, hr⟩ := ih j hlt hn
      have ham := haccepts n hr ha f m hl (List.mem_of_getElem? hm)
      refine ⟨ham, hr.tail ⟨f, (Net.fires_iff (h.restore ha)).2 ?_⟩⟩
      exact ⟨m, hl, Net.accepts_restore.2 ham, Net.restore_restore.symm⟩

abbrev Complete (net : Net) (g : StateGraph) (ms : List Marking) : Prop :=
  Explored net g ms.length ms

namespace Complete

lemma accepts (hx : Complete net g ms) (hm : m ∈ ms) : net.Accepts m := by
  obtain ⟨i, hi⟩ := List.mem_iff_getElem?.1 hm
  exact hx.accepted i m (List.getElem?_eq_some_iff.1 hi).1 hi

lemma fires_iff (h : net.WellFormed) (hx : Complete net g ms) (hm : m ∈ ms) {f : Firing}
    {net' : Net} : (net.restore m).Fires f net' ↔
      ∃ m' ∈ ms, (net.restore m).Leads f m' ∧ net' = net.restore m' := by
  rw [Net.fires_iff (h.restore (hx.accepts hm))]
  simp only [Net.accepts_restore, Net.restore_restore]
  constructor
  · rintro ⟨m', hl, -, rfl⟩
    obtain ⟨i, hi⟩ := List.mem_iff_getElem?.1 hm
    exact ⟨m', hx.closed i m f m' (List.getElem?_eq_some_iff.1 hi).1 hi hl, hl, rfl⟩
  · rintro ⟨m', hm', hl, rfl⟩
    exact ⟨m', hl, hx.accepts hm', rfl⟩

lemma mem_of_reachable (h : net.WellFormed) (hx : Complete net g ms) {net' : Net}
    (hr : Relation.ReflTransGen Net.Step net net') : ∃ m ∈ ms, net' = net.restore m := by
  induction hr with
  | refl => exact ⟨net.marking, List.mem_of_getElem? hx.first, (Net.restore_marking h).symm⟩
  | tail _ hstep ih =>
    obtain ⟨m, hm, rfl⟩ := ih
    obtain ⟨f, hf⟩ := hstep
    obtain ⟨m', hm', -, rfl⟩ := (hx.fires_iff h hm).1 hf
    exact ⟨m', hm', rfl⟩

lemma reachable (h : net.WellFormed) (hx : Complete net g ms) {i : Nat} (hm : ms[i]? = some m) :
    Relation.ReflTransGen Net.Step net (net.restore m) :=
  (Explored.reachable h hx (fun _ _ _ _ _ _ hmem => hx.accepts hmem) hm).2

lemma edge_iff (h : net.WellFormed) (hx : Complete net g ms) {i j : Nat} {f : Firing} :
    (j, f) ∈ g.successorsOf i ↔ ∃ m m', ms[i]? = some m ∧ ms[j]? = some m' ∧
      ∃ net', (net.restore m).Fires f net' ∧ net'.marking = m' := by
  have hmarking : ∀ {m}, m ∈ ms → (net.restore m).marking = m :=
    fun hm => Net.marking_restore h (hx.covers _ hm)
  rw [hx.edges]
  constructor
  · rintro ⟨-, m, m', hm, hm', hl⟩
    have hmem' := List.mem_of_getElem? hm'
    exact ⟨m, m', hm, hm', net.restore m',
      (hx.fires_iff h (List.mem_of_getElem? hm)).2 ⟨m', hmem', hl, rfl⟩, hmarking hmem'⟩
  · rintro ⟨m, m', hm, hm', net', hf, hn⟩
    obtain ⟨n, hn', hl, rfl⟩ := (hx.fires_iff h (List.mem_of_getElem? hm)).1 hf
    obtain rfl := (hmarking hn').symm.trans hn
    exact ⟨(List.getElem?_eq_some_iff.1 hm).1, m, n, hm, hm', hl⟩

end Complete

lemma build_complete (h : net.WellFormed) {config : ExploreConfig}
    (hl : config.stateLimit = none) (hb : build (ofNet net config) = .ok () g) :
    ∃ ms, Complete net g ms := by
  obtain ⟨k, -, hk, -⟩ := processWhile_explores hb
  obtain ⟨ms, hx⟩ := explore_explored h (explored_ofNet h hl) hk
  have hqueue := hx.queue
  rw [todo_of_build hb, eq_comm, List.range'_eq_nil_iff] at hqueue
  have hall : 0 + k = ms.length := by
    have hle := hx.le
    omega
  rw [hall] at hx
  exact ⟨ms, hx⟩

theorem build_exact {net : Net} (h : net.Built) (config : ExploreConfig)
    (hl : config.stateLimit = none) {g : StateGraph}
    (hb : build (ofNet net config) = .ok () g) :
    (g.states.map Prod.snd).Nodup ∧ g.marking? 0 = some net.marking ∧
    (∀ m, g.contains m = true ↔
      ∃ net', Relation.ReflTransGen Net.Step net net' ∧ net'.marking = m) ∧
    (∀ i j f, (j, f) ∈ g.successorsOf i ↔ ∃ m m', g.marking? i = some m ∧
      g.marking? j = some m' ∧ ∃ net', (net.restore m).Fires f net' ∧ net'.marking = m') ∧
    ∀ i, i ∈ g.deadlocks.keys ↔ ∃ m, g.marking? i = some m ∧
      ∀ t ∈ net.transitions, (net.restore m).modes t.name = .ok [] := by
  have hw := h.wellFormed
  obtain ⟨ms, hx⟩ := build_complete hw hl hb
  refine ⟨?_, ?_, fun m => ?_, fun i j f => ?_, fun i => ?_⟩
  · rw [hx.listing.states_markings]
    exact hx.listing.nodup
  · rw [hx.listing.marking?, hx.first]
  · rw [hx.listing.contains_iff]
    constructor
    · intro hm
      obtain ⟨i, hi⟩ := List.mem_iff_getElem?.1 hm
      exact ⟨_, Complete.reachable hw hx hi, Net.marking_restore hw (hx.covers m hm)⟩
    · rintro ⟨net', hr, rfl⟩
      obtain ⟨m, hm, rfl⟩ := Complete.mem_of_reachable hw hx hr
      rwa [Net.marking_restore hw (hx.covers m hm)]
  · simp only [hx.listing.marking?]
    exact Complete.edge_iff hw hx
  · rw [hx.deadlocks]
    simp only [hx.listing.marking?]
    constructor
    · rintro ⟨-, m, hm, hd⟩
      exact ⟨m, hm, hd⟩
    · rintro ⟨m, hm, hd⟩
      exact ⟨(List.getElem?_eq_some_iff.1 hm).1, m, hm, hd⟩

def moving : Net :=
  .ofNodes "moving"
    [⟨"p", Bag.ofList [.int 1], .any, [], ["t"]⟩, ⟨"q", Bag.empty, .kind .int, ["t"], []⟩]
    [⟨"t", .truth, [("p", .var "x")], [("q", .var "x")]⟩] Table.empty

theorem build_exact_moving : ∃ g, build (ofNet moving ⟨none, false⟩) = .ok () g ∧
    g.states.length = 2 ∧ g.deadlocks.keys = [1] ∧ (g.states.map Prod.snd).Nodup ∧
    ∀ m, g.contains m = true ↔
      ∃ net', Relation.ReflTransGen Net.Step moving net' ∧ net'.marking = m := by
  refine ⟨_, rfl, rfl, rfl, ?_⟩
  obtain ⟨hnodup, -, hreach, -⟩ :=
    build_exact (.described (d := .ofNet moving) rfl) ⟨none, false⟩ rfl rfl
  exact ⟨hnodup, hreach⟩

end StateGraph

end ColouredPetri
