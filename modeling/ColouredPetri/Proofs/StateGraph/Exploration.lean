import ColouredPetri.Proofs.StateGraph.Firings
import ColouredPetri.Proofs.StateGraph.Recording
import ColouredPetri.Proofs.StateGraph.Runs

namespace ColouredPetri

def Net.Dead (net : Net) : Prop := ∀ t ∈ net.transitions, net.modes t.name = .ok []

namespace StateGraph

variable {net : Net} {g g' : StateGraph} {ms : List Marking} {m : Marking} {s k : Nat} {u : Unit}

def Positioned (net : Net) (g : StateGraph) (ms : List Marking) : Prop :=
  ∃ m, ms[g.current]? = some m ∧ net.Accepts m ∧ g.net = net.restore m

structure Explored (net : Net) (g : StateGraph) (k : Nat) (ms : List Marking) : Prop where
  listing : Listing g ms
  first : ms[0]? = some net.marking
  covers : ∀ m ∈ ms, net.Covers m
  le : k ≤ ms.length
  queue : g.todo = List.range' k (ms.length - k)
  positioned : Positioned net g ms
  accepted : ∀ i m, i < k → ms[i]? = some m → net.Accepts m
  edges : ∀ i j f, (j, f) ∈ g.successorsOf i ↔ i < k ∧ ∃ m m', ms[i]? = some m ∧
    ms[j]? = some m' ∧ (net.restore m).Leads f m'
  closed : ∀ i m f m', i < k → ms[i]? = some m → (net.restore m).Leads f m' → m' ∈ ms
  deadlocks : ∀ i, i ∈ g.deadlocks.keys ↔ i < k ∧ ∃ m, ms[i]? = some m ∧ (net.restore m).Dead
  origin : ∀ j, 0 < j → j < ms.length → ∃ i f, (j, f) ∈ g.successorsOf i ∧ i < j

lemma explored_ofNet (h : net.WellFormed) {config : ExploreConfig}
    (hl : config.stateLimit = none) : Explored net (ofNet net config) 0 [net.marking] where
  listing := ⟨(Linked.blank net config).addState rfl, rfl, hl⟩
  first := rfl
  covers _ hm := List.mem_singleton.1 hm ▸ Net.covers_marking
  le := Nat.zero_le _
  queue := rfl
  positioned := ⟨net.marking, rfl, Net.accepts_marking h, (Net.restore_marking h).symm⟩
  accepted i m hi := absurd hi i.not_lt_zero
  edges i j f := by
    constructor
    · intro he
      have hblank : (j, f) ∈ (blank net config).successorsOf i := mem_successorsOf_addState.1 he
      simp [blank, successorsOf, neighbours, Numbered.get?, Numbered.empty, Neighbours.toList]
        at hblank
    · exact fun h => absurd h.1 i.not_lt_zero
  closed i m f m' hi := absurd hi i.not_lt_zero
  deadlocks i := ⟨nofun, fun h => absurd h.1 i.not_lt_zero⟩
  origin j hj hlt := by
    simp at hlt
    omega

lemma Listing.not_removed (h : Listing g ms) : g.isRemoved s = false := by
  rw [isRemoved, Bool.eq_false_iff, Ne, Table.contains_iff, h.linked.removed_iff, h.get?]
  cases ms[s]? <;> simp

lemma Positioned.settled (hp : Positioned net g ms) (hl : Listing g ms) : Settled net g := by
  obtain ⟨m, hm, h⟩ := hp
  exact ⟨m, hl.marking?.trans hm, h⟩

lemma firings_ok (h : net.WellFormed) (hl : Listing g ms) (hp : Positioned net g ms)
    (hc : ∀ m ∈ ms, net.Covers m) {found : List (Firing × Marking)}
    (hs : firings s g = .ok found g') : ∃ m, ms[s]? = some m ∧ net.Accepts m ∧
      g' = { g with current := s, net := net.restore m } ∧
      (∀ f m', (f, m') ∈ found ↔ (net.restore m).Leads f m') ∧
      (found = [] ↔ (net.restore m).Dead) := by
  obtain ⟨m, hm, ha, hfound, rfl⟩ := (firings_eq_ok_iff h (hp.settled hl) hl.not_removed).1 hs
  rw [hl.marking?] at hm
  obtain ⟨all, hall, hfound⟩ := except_bind_eq_ok.1 hfound
  have hmarking : (net.restore m).marking = m :=
    Net.marking_restore h (hc m (List.mem_of_getElem? hm))
  obtain ⟨hmem, hnil⟩ := firings_of_net (h.restore ha) hall (by rwa [hmarking])
  exact ⟨m, hm, ha, rfl, hmem, hnil⟩

def noteDeadlock (s : Nat) (found : List (Firing × Marking)) (g : StateGraph) : StateGraph :=
  if found.isEmpty then { g with deadlocks := KeySet.add g.deadlocks s } else g

lemma noteDeadlock_eq (s : Nat) (found : List (Firing × Marking)) (g : StateGraph) :
    ∃ deadlocks, noteDeadlock s found g = { g with deadlocks := deadlocks } ∧
      ∀ i, i ∈ deadlocks.keys ↔ i ∈ g.deadlocks.keys ∨ i = s ∧ found = [] := by
  rw [noteDeadlock]
  split
  · next hf => exact ⟨_, rfl, fun i => by rw [KeySet.mem_keys_add]; simp [List.isEmpty_iff.1 hf]⟩
  · next hf =>
    have hne : found ≠ [] := fun h => hf (List.isEmpty_iff.2 h)
    exact ⟨_, rfl, fun i => by simp [hne]⟩

section Recorded

variable {found : List (Firing × Marking)} {g₁ : StateGraph} {ms' : List Marking}

lemma Recorded.getElem?_old (hr : Recorded k found g₁ g' ms ms') {i : Nat} (hi : i < ms.length)
    (hm : ms'[i]? = some m) : ms[i]? = some m := by
  rw [List.getElem?_eq_getElem hi]
  have := getElem? hr.grows (List.getElem?_eq_getElem hi)
  rw [← this, hm]

lemma Recorded.origin (hr : Recorded k found g₁ g' ms ms') (hk : k < ms.length) {j : Nat}
    (hj : ms.length ≤ j) (hlt : j < ms'.length) :
    ∃ i f, (j, f) ∈ g'.successorsOf i ∧ i < j := by
  have hm' := List.getElem?_eq_getElem hlt
  rcases (hr.mem ms'[j]).1 (List.getElem_mem hlt) with hold | ⟨f, hf⟩
  · obtain ⟨i, hi⟩ := List.mem_iff_getElem?.1 hold
    have hij := (getElem?_eq_iff hr.listing.nodup (getElem? hr.grows hi)).1 hm'
    have := (List.getElem?_eq_some_iff.1 hi).1
    omega
  · exact ⟨k, f, (hr.edges _ _ _).2 (.inr ⟨rfl, _, hf, hm'⟩), Nat.lt_of_lt_of_le hk hj⟩

lemma Recorded.done_cases (hr : Recorded k found g₁ g' ms ms') (hm : ms[k]? = some m) {i : Nat}
    {n : Marking} (hi : i < k + 1) (hn : ms'[i]? = some n) :
    i < k ∧ ms[i]? = some n ∨ i = k ∧ n = m := by
  have hlt : k < ms.length := (List.getElem?_eq_some_iff.1 hm).1
  have hold := hr.getElem?_old ((Nat.le_of_lt_succ hi).trans_lt hlt) hn
  rcases Nat.lt_succ_iff_lt_or_eq.1 hi with hi | rfl
  · exact .inl ⟨hi, hold⟩
  · exact .inr ⟨rfl, Option.some.inj (hold.symm.trans hm)⟩

lemma Recorded.explored (hr : Recorded k found g₁ g' ms ms') (h : net.WellFormed)
    (hx : Explored net g k ms) (hm : ms[k]? = some m) (ha : net.Accepts m)
    (hmem : ∀ f m', (f, m') ∈ found ↔ (net.restore m).Leads f m')
    (hnil : found = [] ↔ (net.restore m).Dead) (hedges : g₁.forward = g.forward)
    (htodo : g₁.todo = List.range' (k + 1) (ms.length - (k + 1)))
    (hcurrent : g₁.current = k) (hnet : g₁.net = net.restore m)
    (hdead : ∀ i, i ∈ g₁.deadlocks.keys ↔ i ∈ g.deadlocks.keys ∨ i = k ∧ found = []) :
    Explored net g' (k + 1) ms' := by
  have hlt : k < ms.length := (List.getElem?_eq_some_iff.1 hm).1
  have hle := hr.grows.length_le
  -- recording keeps the numbers of the old states, so that what was known of them stays true
  have hgrow : ∀ {i n}, ms[i]? = some n → ms'[i]? = some n := fun hi => getElem? hr.grows hi
  exact
    { listing := hr.listing
      first := hgrow hx.first
      covers := fun n hn => by
        rcases (hr.mem n).1 hn with hn | ⟨f, hf⟩
        · exact hx.covers n hn
        · exact Net.covers_restore.1 (((hmem f n).1 hf).covers (h.restore ha))
      le := by omega
      queue := by
        rw [hr.queue, htodo, show ms'.length - (k + 1) =
          (ms.length - (k + 1)) + (ms'.length - ms.length) by omega, ← List.range'_append_1]
        congr 2
        omega
      positioned := ⟨m, by rw [hr.current, hcurrent, hgrow hm], ha, hr.net.trans hnet⟩
      accepted := fun i n hi hn => by
        rcases hr.done_cases hm hi hn with ⟨hi, hn⟩ | ⟨-, rfl⟩
        · exact hx.accepted i n hi hn
        · exact ha
      edges := fun i j f => by
        rw [hr.edges, successorsOf, hedges, ← successorsOf, hx.edges]
        constructor
        · rintro (⟨hi, n, n', hn, hn', hl⟩ | ⟨rfl, m', hf, hm'⟩)
          · exact ⟨by omega, n, n', hgrow hn, hgrow hn', hl⟩
          · exact ⟨by omega, m, m', hgrow hm, hm', (hmem _ _).1 hf⟩
        · rintro ⟨hi, n, n', hn, hn', hl⟩
          rcases hr.done_cases hm hi hn with ⟨hi, hn⟩ | ⟨rfl, rfl⟩
          · -- the end of an old edge was listed before, under the number that it still has
            obtain ⟨j', hj⟩ := List.mem_iff_getElem?.1 (hx.closed _ n _ n' hi hn hl)
            have htarget := (getElem?_eq_iff hr.listing.nodup (hgrow hj)).1 hn'
            exact .inl ⟨hi, n, n', hn, htarget ▸ hj, hl⟩
          · exact .inr ⟨rfl, n', (hmem _ _).2 hl, hn'⟩
      closed := fun i n f m' hi hn hl => by
        rcases hr.done_cases hm hi hn with ⟨hi, hn⟩ | ⟨-, rfl⟩
        · exact hr.grows.subset (hx.closed i n f m' hi hn hl)
        · exact (hr.mem m').2 (.inr ⟨f, (hmem f m').2 hl⟩)
      deadlocks := fun i => by
        rw [hr.deadlocks, hdead, hx.deadlocks, hnil]
        constructor
        · rintro (⟨hi, n, hn, hd⟩ | ⟨rfl, hd⟩)
          · exact ⟨by omega, n, hgrow hn, hd⟩
          · exact ⟨by omega, m, hgrow hm, hd⟩
        · rintro ⟨hi, n, hn, hd⟩
          rcases hr.done_cases hm hi hn with ⟨hi, hn⟩ | ⟨rfl, rfl⟩
          · exact .inl ⟨hi, n, hn, hd⟩
          · exact .inr ⟨rfl, hd⟩
      origin := fun j hj hlt' => by
        by_cases hj' : j < ms.length
        · obtain ⟨i, f, he, hi⟩ := hx.origin j hj hj'
          refine ⟨i, f, (hr.edges i j f).2 (.inl ?_), hi⟩
          rwa [successorsOf, hedges]
        · exact hr.origin hlt (by omega) hlt' }

end Recorded

lemma Explored.head (hx : Explored net g k ms) {rest : List Nat} (hq : g.todo = s :: rest) :
    s = k ∧ k < ms.length ∧ rest = List.range' (k + 1) (ms.length - (k + 1)) := by
  have hqueue := hx.queue
  rw [hq] at hqueue
  cases hn : ms.length - k with
  | zero =>
    rw [hn] at hqueue
    cases hqueue
  | succ n =>
    rw [hn, List.range'_succ] at hqueue
    obtain ⟨hs, hrest⟩ := List.cons.inj hqueue
    refine ⟨hs, by omega, ?_⟩
    rw [hrest, show ms.length - (k + 1) = n by omega]

lemma recordAll_explored (h : net.WellFormed) {rest : List Nat} (hx : Explored net g k ms)
    (hm : ms[k]? = some m) (ha : net.Accepts m) (hq : g.todo = k :: rest)
    {found : List (Firing × Marking)}
    (hmem : ∀ f m', (f, m') ∈ found ↔ (net.restore m).Leads f m')
    (hnil : found = [] ↔ (net.restore m).Dead) :
    ∃ ms', Explored net (recordAll k found
      { g with todo := rest, current := k, net := net.restore m }) (k + 1) ms' := by
  have hlt : k < ms.length := (List.getElem?_eq_some_iff.1 hm).1
  obtain ⟨-, -, hrest⟩ := hx.head hq
  obtain ⟨deadlocks, hnote, hdead⟩ := noteDeadlock_eq k found
    { g with todo := rest, current := k, net := net.restore m }
  change ∃ ms', Explored net { found.foldl (record k) (noteDeadlock k found _) with
    done := _ } (k + 1) ms'
  rw [hnote]
  obtain ⟨ms', hr⟩ := foldl_recorded (s := k)
    (g := { g with todo := rest, current := k, net := net.restore m, deadlocks := deadlocks })
    (hx.listing.of_eq rfl rfl rfl rfl rfl rfl) hlt found
  have hx' := hr.explored h hx hm ha hmem hnil rfl hrest rfl rfl hdead
  exact ⟨ms', { hx' with listing := hx'.listing.of_eq rfl rfl rfl rfl rfl rfl }⟩

lemma compute_eq_ok : compute s g = .ok u g' ↔
    ∃ found g₁, firings s g = .ok found g₁ ∧ g' = recordAll s found g₁ := by
  rw [compute]
  cases firings s g with
  | ok found g₁ =>
    refine ⟨fun hrun => by cases hrun; exact ⟨found, g₁, rfl, rfl⟩, ?_⟩
    rintro ⟨_, _, hf, rfl⟩
    cases hf
    rfl
  | error e g₁ => exact ⟨fun hrun => (by cases hrun), fun ⟨_, _, hf, _⟩ => by cases hf⟩

lemma compute_eq_error {e : Error} : compute s g = .error e g' ↔
    ∃ g₁, firings s g = .error e g₁ ∧ g' = { g₁ with todo := s :: g₁.todo } := by
  rw [compute]
  cases firings s g with
  | ok found g₁ => exact ⟨fun hrun => (by cases hrun), fun ⟨_, hf, _⟩ => by cases hf⟩
  | error d g₁ =>
    refine ⟨fun hrun => by cases hrun; exact ⟨g₁, rfl, rfl⟩, ?_⟩
    rintro ⟨_, hf, rfl⟩
    cases hf
    rfl

lemma compute_explored (h : net.WellFormed) {rest : List Nat} (hx : Explored net g k ms)
    (hq : g.todo = s :: rest) (hs : compute s { g with todo := rest } = .ok u g') :
    ∃ ms', Explored net g' (k + 1) ms' := by
  obtain ⟨rfl, -, -⟩ := hx.head hq
  obtain ⟨found, g₁, hf, rfl⟩ := compute_eq_ok.1 hs
  obtain ⟨m, hm, ha, rfl, hmem, hnil⟩ := firings_ok (g := { g with todo := rest }) h
    (hx.listing.of_eq rfl rfl rfl rfl rfl rfl) hx.positioned hx.covers hf
  exact recordAll_explored h hx hm ha hq hmem hnil

lemma explore_explored (h : net.WellFormed) {j : Nat} (hx : Explored net g k ms)
    (hs : explore j g = .ok j g') : ∃ ms', Explored net g' (k + j) ms' := by
  induction j generalizing g k ms with
  | zero =>
    obtain ⟨-, rfl⟩ := explore_zero hs
    exact ⟨ms, hx⟩
  | succ j ih =>
    obtain ⟨s, rest, g₁, hq, hone, hrest⟩ := explore_succ_eq_ok_iff.1 hs
    obtain ⟨ms₁, hx₁⟩ := compute_explored h hx hq hone
    rw [← Nat.add_assoc, Nat.add_right_comm]
    exact ih hx₁ hrest

end StateGraph

end ColouredPetri
