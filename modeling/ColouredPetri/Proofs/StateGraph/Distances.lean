import ColouredPetri.Proofs.StateLimit
import Mathlib.Data.ENat.Lattice

/-! Distances from the marking of a net, and the levels of an exploration. The states come level by
level, since those that wait are never more than one level apart; so the level of a state is its
distance. -/

namespace ColouredPetri

namespace Net

variable {R : Net → Net → Prop} {net net' : Net} {m : Marking} {n d : Nat}

inductive StepsTo (R : Net → Net → Prop) (net : Net) : Nat → Net → Prop where
  | zero : StepsTo R net 0 net
  | succ {n : Nat} {net₁ net₂ : Net} : StepsTo R net n net₁ → R net₁ net₂ →
      StepsTo R net (n + 1) net₂

def Counts (net net' : Net) : Prop := ∃ f m, net.Leads f m ∧ net' = net.restore m

noncomputable def distance (R : Net → Net → Prop) (net : Net) (m : Marking) : ℕ∞ :=
  ⨅ n : {n : Nat // ∃ net', StepsTo R net n net' ∧ net'.marking = m}, (n.1 : ℕ∞)

lemma StepsTo.reachable (h : StepsTo R net n net') : Relation.ReflTransGen R net net' := by
  induction h with
  | zero => exact .refl
  | succ _ hstep ih => exact ih.tail hstep

lemma distance_le (h : StepsTo R net n net') (hm : net'.marking = m) : net.distance R m ≤ n :=
  iInf_le_of_le ⟨n, net', h, hm⟩ le_rfl

lemma distance_eq (h : StepsTo R net d net') (hm : net'.marking = m)
    (hleast : ∀ n net₁, StepsTo R net n net₁ → net₁.marking = m → d ≤ n) :
    net.distance R m = d := by
  refine le_antisymm (distance_le h hm) (le_iInf ?_)
  rintro ⟨n, net₁, hn, hm₁⟩
  exact Nat.cast_le.2 (hleast n net₁ hn hm₁)

lemma distance_eq_top (h : ∀ n net', StepsTo R net n net' → net'.marking ≠ m) :
    net.distance R m = ⊤ := by
  refine iInf_eq_top.2 ?_
  rintro ⟨n, net', hn, hm⟩
  exact absurd hm (h n net' hn)

lemma StepsTo.counts (h : net.WellFormed) (hs : StepsTo Step net n net') :
    StepsTo Counts net n net' := by
  induction hs with
  | zero => exact .zero
  | succ hs hstep ih =>
    obtain ⟨f, hf⟩ := hstep
    obtain ⟨m, rfl, ha, -⟩ := exists_restore_of_reachable h hs.reachable
    obtain ⟨m', hl, -, rfl⟩ := (fires_iff (h.restore ha)).1 hf
    exact .succ ih ⟨f, m', hl, rfl⟩

lemma distance_step_of_refused (h : net.WellFormed) (hm : ¬ net.Accepts m) :
    net.distance Step m = ⊤ := by
  refine distance_eq_top fun n net' hs hm' => hm ?_
  obtain ⟨m', rfl, ha, hc⟩ := exists_restore_of_reachable h hs.reachable
  rwa [← hm', marking_restore h hc]

end Net

namespace StateGraph

variable {net : Net} {config : ExploreConfig} {g g' : StateGraph} {ms ms' : List Marking}
variable {level : Nat → Nat} {m : Marking} {i j k n : Nat}

/-- Levels of the states. They do not fall from one state to the next, an edge leads up by one level
at most, and each state but the first has an edge to it from the level below. -/
structure Leveled (g : StateGraph) (ms : List Marking) (level : Nat → Nat) : Prop where
  root : level 0 = 0
  mono : ∀ i j, i ≤ j → j < ms.length → level i ≤ level j
  edge : ∀ i j f, (j, f) ∈ g.successorsOf i → level j ≤ level i + 1
  parent : ∀ j, 0 < j → j < ms.length → ∃ i f, (j, f) ∈ g.successorsOf i ∧ level j = level i + 1

lemma leveled_ofNet (net : Net) (config : ExploreConfig) :
    Leveled (ofNet net config) [net.marking] fun _ => 0 where
  root := rfl
  mono _ _ _ _ := le_rfl
  edge _ _ _ _ := Nat.zero_le _
  parent j hj hlt := by
    rw [List.length_singleton] at hlt
    omega

namespace Leveled

lemma span (hl : Leveled g ms level) (hx : Explored net g k ms) (hi : k ≤ i) (hlt : i < ms.length)
    (hj : j < ms.length) : level j ≤ level i + 1 := by
  -- all states are at most one level above a waiting one
  rcases Nat.eq_zero_or_pos j with rfl | hpos
  · rw [hl.root]
    exact Nat.zero_le _
  · obtain ⟨p, f, he, hlevel⟩ := hl.parent j hpos hj
    have hp : p < k := ((hx.edges p j f).1 he).1
    have := hl.mono p i (by omega) hlt
    omega

def next (level : Nat → Nat) (len k : Nat) (i : Nat) : Nat :=
  if i < len then level i else level k + 1

lemma next_of_lt {len : Nat} (hi : i < len) : next level len k i = level i := if_pos hi

lemma next_of_le {len : Nat} (hi : len ≤ i) : next level len k i = level k + 1 :=
  if_neg (Nat.not_lt.2 hi)

section Step

variable (hx : Explored net g k ms) (hx' : Explored net g' (k + 1) ms')
variable (hgrow : ∀ (i : Nat) (m : Marking), ms[i]? = some m → ms'[i]? = some m)
include hx hx' hgrow

lemma edge_old (hlt : k < ms.length) (hj : j < ms.length) {f : Firing}
    (he : (j, f) ∈ g'.successorsOf i) : (j, f) ∈ g.successorsOf i ∨ i = k := by
  obtain ⟨hi, m, m', hm, hm', hl⟩ := (hx'.edges i j f).1 he
  rcases Nat.lt_succ_iff_lt_or_eq.1 hi with hi | rfl
  · have hold : ∀ {i n}, i < ms.length → ms'[i]? = some n → ms[i]? = some n := fun hi hn => by
      rw [← hn, hgrow _ _ (List.getElem?_eq_getElem hi), List.getElem?_eq_getElem hi]
    exact .inl ((hx.edges i j f).2 ⟨hi, m, m', hold (by omega) hm, hold hj hm', hl⟩)
  · exact .inr rfl

lemma edge_new (hlt : k < ms.length) (hj : ms.length ≤ j) {f : Firing}
    (he : (j, f) ∈ g'.successorsOf i) : i = k := by
  -- all that was found from the other states is old
  obtain ⟨hi, m, m', hm, hm', hl⟩ := (hx'.edges i j f).1 he
  refine (Nat.lt_succ_iff_lt_or_eq.1 hi).resolve_left fun hi => ?_
  have hilt : i < ms.length := by omega
  have hsame := hgrow i _ (List.getElem?_eq_getElem hilt)
  obtain rfl := Option.some.inj (hm.symm.trans hsame)
  obtain ⟨t, ht⟩ := List.mem_iff_getElem?.1
    (hx.closed i _ f m' hi (List.getElem?_eq_getElem hilt) hl)
  have htarget := (getElem?_eq_iff hx'.listing.nodup (hgrow t m' ht)).1 hm'
  have htlt := (List.getElem?_eq_some_iff.1 ht).1
  omega

lemma edge_kept {f : Firing} (he : (j, f) ∈ g.successorsOf i) : (j, f) ∈ g'.successorsOf i := by
  obtain ⟨hi, m, m', hm, hm', hl⟩ := (hx.edges i j f).1 he
  exact (hx'.edges i j f).2 ⟨by omega, m, m', hgrow i m hm, hgrow j m' hm', hl⟩

lemma step (hl : Leveled g ms level) (hlt : k < ms.length) :
    Leveled g' ms' (next level ms.length k) where
  root := (next_of_lt (by omega)).trans hl.root
  mono i j hij _ := by
    by_cases hj : j < ms.length
    · rw [next_of_lt hj, next_of_lt (by omega)]
      exact hl.mono i j hij hj
    · rw [next_of_le (i := j) (by omega)]
      by_cases hi : i < ms.length
      · rw [next_of_lt hi]
        exact hl.span hx le_rfl hlt hi
      · rw [next_of_le (by omega)]
  edge i j f he := by
    by_cases hj : j < ms.length
    · rw [next_of_lt hj]
      rcases edge_old hx hx' hgrow hlt hj he with he | rfl
      · have hi : i < k := ((hx.edges i j f).1 he).1
        rw [next_of_lt (by omega)]
        exact hl.edge i j f he
      · rw [next_of_lt hlt]
        exact hl.span hx le_rfl hlt hj
    · obtain rfl := edge_new hx hx' hgrow hlt (by omega) he
      rw [next_of_le (by omega), next_of_lt hlt]
  parent j hpos hj' := by
    by_cases hj : j < ms.length
    · obtain ⟨i, f, he, hlevel⟩ := hl.parent j hpos hj
      have hi : i < k := ((hx.edges i j f).1 he).1
      refine ⟨i, f, edge_kept hx hx' hgrow he, ?_⟩
      rw [next_of_lt hj, next_of_lt (by omega), hlevel]
    · obtain ⟨i, f, he, -⟩ := hx'.origin j hpos hj'
      obtain rfl := edge_new hx hx' hgrow hlt (by omega) he
      refine ⟨i, f, he, ?_⟩
      rw [next_of_le (by omega), next_of_lt hlt]

end Step

lemma explore (h : net.WellFormed) (hp : Placed net config g) (hx : Explored net g k ms)
    (hl : Leveled g ms level) (hs : explore n g = .ok n g') :
    ∃ ms' level', Explored net g' (k + n) ms' ∧ Leveled g' ms' level' := by
  induction n generalizing g k ms level with
  | zero =>
    obtain ⟨-, rfl⟩ := explore_zero hs
    exact ⟨ms, level, hx, hl⟩
  | succ n ih =>
    obtain ⟨s, rest, g₁, hq, hone, hrest⟩ := explore_succ_eq_ok_iff.1 hs
    obtain ⟨hp₁, honward, -⟩ := hp.compute h hq hone
    obtain ⟨ms₁, hx₁⟩ := compute_explored h hx hq hone
    have hgrow : ∀ i m, ms[i]? = some m → ms₁[i]? = some m := fun i m hm => by
      rw [← hx₁.listing.marking?]
      exact honward.marking? i m (hx.listing.marking?.trans hm)
    rw [← Nat.add_assoc, Nat.add_right_comm]
    exact ih hp₁ hx₁ (hl.step hx hx₁ hgrow (hx.head hq).2.1) hrest

lemma reached (h : net.WellFormed) (hl : Leveled g ms level) (hx : Explored net g k ms)
    (hm : ms[j]? = some m) : Net.StepsTo Net.Counts net (level j) (net.restore m) ∧
      (net.Accepts m → Net.StepsTo Net.Step net (level j) (net.restore m)) := by
  have hlt : ∀ {j m}, ms[j]? = some m → j < ms.length :=
    fun hm => (List.getElem?_eq_some_iff.1 hm).1
  induction hn : level j generalizing j m with
  | zero =>
    rcases Nat.eq_zero_or_pos j with rfl | hpos
    · cases hx.first.symm.trans hm
      rw [Net.restore_marking h]
      exact ⟨.zero, fun _ => .zero⟩
    · obtain ⟨i, f, -, hlevel⟩ := hl.parent j hpos (hlt hm)
      omega
  | succ n ih =>
    have hpos : 0 < j := Nat.pos_of_ne_zero fun hj => by
      rw [hj, hl.root] at hn
      cases hn
    obtain ⟨i, f, he, hlevel⟩ := hl.parent j hpos (hlt hm)
    obtain ⟨hi, p, m', hp, hm', hleads⟩ := (hx.edges i j f).1 he
    cases hm.symm.trans hm'
    have hacc : net.Accepts p := hx.accepted i p hi hp
    obtain ⟨hcounts, hsteps⟩ := ih hp (by omega)
    refine ⟨.succ hcounts ⟨f, m, hleads, Net.restore_restore.symm⟩, fun ha => ?_⟩
    refine .succ (hsteps hacc) ⟨f, (Net.fires_iff (h.restore hacc)).2 ?_⟩
    exact ⟨m, hleads, Net.accepts_restore.2 ha, Net.restore_restore.symm⟩

lemma of_steps (h : net.WellFormed) (hl : Leveled g ms level) (hx : Explored net g k ms)
    {net' : Net} (hs : Net.StepsTo Net.Counts net n net') :
    (∃ j m, ms[j]? = some m ∧ net' = net.restore m ∧ level j ≤ n) ∨
      ∀ j < ms.length, level j ≤ n := by
  induction hs with
  | zero =>
    refine .inl ⟨0, net.marking, hx.first, (Net.restore_marking h).symm, ?_⟩
    exact Nat.le_of_eq hl.root
  | @succ n net₁ net₂ hs hstep ih =>
    rcases ih with ⟨j, m, hm, rfl, hle⟩ | hall
    · have hlt : j < ms.length := (List.getElem?_eq_some_iff.1 hm).1
      obtain ⟨f, m', hleads, rfl⟩ := hstep
      by_cases hj : j < k
      · obtain ⟨t, ht⟩ := List.mem_iff_getElem?.1 (hx.closed j m f m' hj hm hleads)
        have hedge := hl.edge j t f ((hx.edges j t f).2 ⟨hj, m, m', hm, ht, hleads⟩)
        exact .inl ⟨t, m', ht, Net.restore_restore, by omega⟩
      · refine .inr fun i hi => ?_
        have := hl.span hx (Nat.not_lt.1 hj) hlt hi
        omega
    · exact .inr fun j hj => Nat.le_succ_of_le (hall j hj)

lemma level_le (h : net.WellFormed) (hl : Leveled g ms level) (hx : Explored net g k ms)
    (hm : ms[j]? = some m) {net' : Net} (hs : Net.StepsTo Net.Counts net n net')
    (hmarking : net'.marking = m) : level j ≤ n := by
  rcases hl.of_steps h hx hs with ⟨i, m', hm', rfl, hle⟩ | hall
  · rw [Net.marking_restore h (hx.covers m' (List.mem_of_getElem? hm'))] at hmarking
    subst hmarking
    rwa [(getElem?_eq_iff hx.listing.nodup hm').1 hm]
  · exact hall j (List.getElem?_eq_some_iff.1 hm).1

lemma distance_counts (h : net.WellFormed) (hl : Leveled g ms level) (hx : Explored net g k ms)
    (hm : ms[j]? = some m) : net.distance Net.Counts m = level j :=
  Net.distance_eq (hl.reached h hx hm).1
    (Net.marking_restore h (hx.covers m (List.mem_of_getElem? hm)))
    fun _ _ hs hmarking => hl.level_le h hx hm hs hmarking

lemma distance_step (h : net.WellFormed) (hl : Leveled g ms level) (hx : Explored net g k ms)
    (hm : ms[j]? = some m) (ha : net.Accepts m) : net.distance Net.Step m = level j :=
  Net.distance_eq ((hl.reached h hx hm).2 ha)
    (Net.marking_restore h (hx.covers m (List.mem_of_getElem? hm)))
    fun _ _ hs hmarking => hl.level_le h hx hm (hs.counts h) hmarking

end Leveled

lemma Explored.accepts_of_scalar (h : net.WellFormed) (hx : Explored net g k ms)
    (hs : net.ScalarOutputs) (hm : ms[j]? = some m) : net.Accepts m := by
  rcases Nat.eq_zero_or_pos j with rfl | hpos
  · cases hx.first.symm.trans hm
    exact Net.accepts_marking h
  · obtain ⟨i, f, he, -⟩ := hx.origin j hpos (List.getElem?_eq_some_iff.1 hm).1
    obtain ⟨hi, p, m', hp, hm', hl⟩ := (hx.edges i j f).1 he
    cases hm.symm.trans hm'
    have ha := hx.accepted i p hi hp
    have hc := hx.covers p (List.mem_of_getElem? hp)
    have hpays := hl.2
    rw [Net.marking_restore h hc] at hpays
    have hadmits := hpays.admits (h.restore ha) (Net.admits_restore.2 ⟨hc, fun _ => ha⟩)
    exact (Net.admits_restore.1 hadmits).2 hs

structure Ranked (net : Net) (g u : StateGraph) (k : Nat) (ms : List Marking)
    (level : Nat → Nat) : Prop where
  explored : Explored net u k ms
  leveled : Leveled u ms level
  marking? : ∀ i m, g.marking? i = some m → ms[i]? = some m
  edges : ∀ i j f, (j, f) ∈ g.successorsOf i → (j, f) ∈ u.successorsOf i
  waiting : ∀ i m, g.marking? i = some m → k ≤ i → i ∈ g.todo

lemma Explored.mem_todo (hx : Explored net g k ms) (hm : ms[i]? = some m) (hi : k ≤ i) :
    i ∈ g.todo := by
  rw [hx.queue, List.mem_range'_1]
  have := (List.getElem?_eq_some_iff.1 hm).1
  omega

lemma exists_leveled (h : net.WellFormed) {parallel : Bool}
    (hs : explore k (ofNet net ⟨none, parallel⟩) = .ok k g) :
    ∃ ms level, Explored net g k ms ∧ Leveled g ms level := by
  have hlevels := (leveled_ofNet net ⟨none, parallel⟩).explore h (placed_ofNet h _)
    (explored_ofNet h rfl) hs
  rwa [Nat.zero_add] at hlevels

lemma Explored.ranked (hx : Explored net g k ms) (hl : Leveled g ms level) :
    Ranked net g g k ms level where
  explored := hx
  leveled := hl
  marking? _ _ hm := hx.listing.marking?.symm.trans hm
  edges _ _ _ he := he
  waiting _ _ hm hi := hx.mem_todo (hx.listing.marking?.symm.trans hm) hi

lemma Cut.ranked {u : StateGraph} {bound : Nat} (hcut : Cut bound g u ms)
    (hx : Explored net u k ms) (hl : Leveled u ms level) : Ranked net g u k ms level := by
  have hpart : ∀ i m, g.marking? i = some m → i < bound ∧ ms[i]? = some m := by
    intro i m hm
    have htake : g.marking? i = (ms.take bound)[i]? := hcut.part.marking?
    rw [htake, List.getElem?_take] at hm
    split at hm
    · next hi => exact ⟨hi, hm⟩
    · cases hm
  refine ⟨hx, hl, fun i m hm => (hpart i m hm).2, fun i j f he => ((hcut.edges i j f).1 he).1,
    fun i m hm hi => ?_⟩
  obtain ⟨hsmall, hm⟩ := hpart i m hm
  rw [hcut.queue]
  exact List.mem_filter.2 ⟨hx.mem_todo hm hi, by simpa using hsmall⟩

lemma exists_ranked (h : net.WellFormed) (hs : explore k (ofNet net config) = .ok k g) :
    ∃ u ms level, Ranked net g u k ms level := by
  obtain ⟨stateLimit, parallel⟩ := config
  cases stateLimit with
  | none =>
    obtain ⟨ms, level, hx, hl⟩ := exists_leveled h hs
    exact ⟨g, ms, level, hx.ranked hl⟩
  | some limit =>
    obtain ⟨u, ms, hu, hx, hcut⟩ := explore_cut h hs
    obtain ⟨ms', level, hx', hl⟩ := exists_leveled h hu
    obtain rfl := hx.listing.unique hx'.listing
    exact ⟨u, ms, level, hcut.ranked hx hl⟩

end StateGraph

end ColouredPetri
