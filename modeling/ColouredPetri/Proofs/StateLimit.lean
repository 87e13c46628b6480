import ColouredPetri.Proofs.GraphPosition
import ColouredPetri.Proofs.StateGraph.Limit

namespace ColouredPetri

namespace Net

variable {net net' : Net}

/-- Wherever the net comes, its modes fire as far as the tokens are counted. -/
def NeverRefused (net : Net) : Prop :=
  ∀ net', Relation.ReflTransGen Net.Step net net' →
    ∀ f m, net'.Leads f m → ∃ net'', net'.Fires f net''

lemma exists_restore_of_reachable (h : net.WellFormed)
    (hr : Relation.ReflTransGen Net.Step net net') :
    ∃ m, net' = net.restore m ∧ net.Accepts m ∧ net.Covers m := by
  induction hr with
  | refl => exact ⟨net.marking, (restore_marking h).symm, accepts_marking h, covers_marking⟩
  | tail _ hstep ih =>
    obtain ⟨m, rfl, ha, -⟩ := ih
    obtain ⟨f, hf⟩ := hstep
    obtain ⟨m', hl, ha', rfl⟩ := (fires_iff (h.restore ha)).1 hf
    have hcovers := covers_restore.1 (hl.covers (h.restore ha))
    exact ⟨m', restore_restore, accepts_restore.1 ha', hcovers⟩

lemma ScalarOutputs.neverRefused (hs : net.ScalarOutputs) (h : net.WellFormed) :
    net.NeverRefused := by
  intro net' hr f m' hl
  obtain ⟨m, rfl, ha, hc⟩ := exists_restore_of_reachable h hr
  have hw := h.restore ha
  have hpays := hl.2
  rw [marking_restore h hc] at hpays
  have hadmits := hpays.admits hw (admits_restore.2 ⟨hc, fun _ => ha⟩)
  refine ⟨_, (fires_iff hw).2 ⟨m', hl, ?_, rfl⟩⟩
  exact accepts_restore.2 ((admits_restore.1 hadmits).2 hs)

lemma Leads.not_dead (h : net.Keyed) {f : Firing} {m : Marking} (hl : net.Leads f m) :
    ¬ net.Dead := by
  intro hdead
  obtain ⟨⟨modes, hmodes, hmem⟩, -⟩ := hl
  obtain ⟨t, ht, -⟩ := except_bind_eq_ok.1 hmodes
  obtain ⟨htm, hname⟩ := h.mem_of_transition? (transition_eq_ok_iff.1 ht)
  have hnone := hdead t htm
  rw [hname] at hnone
  cases hnone.symm.trans hmodes
  cases hmem

end Net

namespace StateGraph

variable {net : Net} {g g₁ : StateGraph} {ms : List Marking} {m : Marking} {k limit bound : Nat}

/-- After so many states nothing waits or the next state cannot be computed, and the run ends
whatever fuel is left. -/
def EndsAfter (k : Nat) (g : StateGraph) : Prop :=
  ∃ g', explore k g = .ok k g' ∧
    ((g'.todo = [] ∧ ∀ fuel, k < fuel → processWhile (fun _ => true) fuel g = .ok () g') ∨
      ∃ s rest e g'', g'.todo = s :: rest ∧
        compute s { g' with todo := rest } = .error e g'' ∧
        ∀ fuel, k < fuel → processWhile (fun _ => true) fuel g = .error e g'')

lemma endsAfter_zero_or (g : StateGraph) : EndsAfter 0 g ∨ ∃ g₁, explore 1 g = .ok 1 g₁ := by
  cases hq : g.todo with
  | nil =>
    refine .inl ⟨g, rfl, .inl ⟨hq, fun fuel hfuel => ?_⟩⟩
    obtain ⟨fuel, rfl⟩ := Nat.exists_eq_succ_of_ne_zero (Nat.ne_of_gt hfuel)
    exact processWhile_of_nil hq
  | cons s rest =>
    cases hone : compute s { g with todo := rest } with
    | ok u g₁ => exact .inr ⟨g₁, explore_succ_eq_ok_iff.2 ⟨s, rest, g₁, hq, hone, rfl⟩⟩
    | error e g' =>
      refine .inl ⟨g, rfl, .inr ⟨s, rest, e, g', hq, hone, fun fuel hfuel => ?_⟩⟩
      obtain ⟨fuel, rfl⟩ := Nat.exists_eq_succ_of_ne_zero (Nat.ne_of_gt hfuel)
      rw [processWhile_of_cons hq, if_pos rfl]
      exact bind_of_error _ hone

lemma EndsAfter.step (hone : explore 1 g = .ok 1 g₁) (h : EndsAfter k g₁) :
    EndsAfter (k + 1) g := by
  obtain ⟨s, rest, _, hq, hcompute, hzero⟩ := explore_succ_eq_ok_iff.1 hone
  obtain ⟨-, rfl⟩ := explore_zero hzero
  have hrun : ∀ fuel, k + 1 < fuel → ∃ fuel', k < fuel' ∧
      processWhile (fun _ => true) fuel g = processWhile (fun _ => true) fuel' g₁ := by
    intro fuel hfuel
    obtain ⟨fuel, rfl⟩ := Nat.exists_eq_succ_of_ne_zero (Nat.ne_zero_of_lt hfuel)
    refine ⟨fuel, Nat.lt_of_succ_lt_succ hfuel, ?_⟩
    rw [processWhile_of_cons hq, if_pos rfl]
    exact bind_of_ok _ hcompute
  obtain ⟨g', hk, hend⟩ := h
  refine ⟨g', explore_succ_eq_ok_iff.2 ⟨s, rest, g₁, hq, hcompute, hk⟩, ?_⟩
  rcases hend with ⟨hnil, hok⟩ | ⟨t, rest', e, g'', hq', herror, hfail⟩
  · refine .inl ⟨hnil, fun fuel hfuel => ?_⟩
    obtain ⟨fuel', hlt, hsame⟩ := hrun fuel hfuel
    rw [hsame, hok fuel' hlt]
  · refine .inr ⟨t, rest', e, g'', hq', herror, fun fuel hfuel => ?_⟩
    obtain ⟨fuel', hlt, hsame⟩ := hrun fuel hfuel
    rw [hsame, hfail fuel' hlt]

lemma exists_endsAfter (hb : ∀ k g', explore k g = .ok k g' → k ≤ bound) :
    ∃ k ≤ bound, EndsAfter k g := by
  induction bound generalizing g with
  | zero =>
    refine ⟨0, Nat.le_refl 0, (endsAfter_zero_or g).resolve_right ?_⟩
    rintro ⟨g₁, hone⟩
    exact Nat.not_succ_le_zero 0 (hb 1 g₁ hone)
  | succ bound ih =>
    rcases endsAfter_zero_or g with hend | ⟨g₁, hone⟩
    · exact ⟨0, Nat.zero_le _, hend⟩
    · obtain ⟨k, hk, hend⟩ := ih fun k g' hrest => by
        have := hb (1 + k) g' (explore_add.2 ⟨g₁, hone, hrest⟩)
        omega
      exact ⟨k + 1, Nat.succ_le_succ hk, hend.step hone⟩

lemma Placed.size_eq {config : ExploreConfig} (hp : Placed net config g) :
    g.size = g.index.size := by
  rw [hp.consistent.scheduled.size_eq, hp.consistent.linked.index_size]

lemma explore_le_limit (h : net.WellFormed) {parallel : Bool}
    (hk : explore k (ofNet net ⟨some limit, parallel⟩) = .ok k g) : k ≤ max limit 1 := by
  obtain ⟨hp, -, hdone⟩ := (placed_ofNet h ⟨some limit, parallel⟩).explore h hk
  have hbounded := hp.consistent.bounded limit rfl
  rw [← hp.size_eq, size, hdone] at hbounded
  omega

lemma build_cut (h : net.WellFormed) {parallel : Bool}
    (hb : build (ofNet net ⟨some limit, parallel⟩) = .ok () g) : ∃ u ms,
      g.todo = [] ∧ g.size ≤ maxStates ∧ g.size = min (max limit 1) ms.length ∧
      explore g.size (ofNet net ⟨none, parallel⟩) = .ok g.size u ∧
      Explored net u g.size ms ∧ Cut (max limit 1) g u ms := by
  obtain ⟨k, hfuel, hk, -⟩ := processWhile_explores hb
  have hnil : g.todo = [] := todo_of_build hb
  obtain ⟨hp, -, hdone⟩ := (placed_ofNet h ⟨some limit, parallel⟩).explore h hk
  obtain rfl : g.size = k := by
    rw [size, hnil, hdone]
    exact Nat.zero_add k
  obtain ⟨u, ms, hu, hx, hcut⟩ := explore_cut h hk
  exact ⟨u, ms, hnil, Nat.le_of_lt_succ hfuel, hp.size_eq.trans hcut.index_size, hu, hx, hcut⟩

namespace Cut

variable {u : StateGraph}

lemma contains_iff (hcut : Cut bound g u ms) : g.contains m = true ↔ m ∈ ms.take bound :=
  hcut.part.contains_iff

lemma truncated_eq_false_iff (hcut : Cut bound g u ms) :
    g.truncated = false ↔ ms.length ≤ bound := by
  rw [← Bool.not_eq_true, hcut.truncated, Nat.not_lt]

lemma untruncated (h : net.WellFormed) (hcut : Cut bound g u ms) (hx : Complete net u ms)
    (hle : ms.length ≤ bound) : (∀ net', Relation.ReflTransGen Net.Step net net' →
      g.contains net'.marking = true) ∧ net.NeverRefused := by
  constructor
  · intro net' hr
    obtain ⟨m, hm, rfl⟩ := hx.mem_of_reachable h hr
    rw [Net.marking_restore h (hx.covers m hm), hcut.contains_iff, List.take_of_length_le hle]
    exact hm
  · intro net' hr f m' hl
    obtain ⟨m, hm, rfl⟩ := hx.mem_of_reachable h hr
    obtain ⟨i, hi⟩ := List.mem_iff_getElem?.1 hm
    have hm' := hx.closed i m f m' (List.getElem?_eq_some_iff.1 hi).1 hi hl
    exact ⟨_, (hx.fires_iff h hm).2 ⟨m', hm', hl, rfl⟩⟩

lemma not_truncated (h : net.WellFormed) (hcut : Cut bound g u ms) (hx : Explored net u k ms)
    (hall : ∀ net', Relation.ReflTransGen Net.Step net net' → g.contains net'.marking = true)
    (hnever : net.NeverRefused) : ms.length ≤ bound := by
  by_contra hlt
  have hm : ms[bound]? = some ms[bound] := List.getElem?_eq_getElem (by omega)
  have haccepts : ∀ n, Relation.ReflTransGen Net.Step net (net.restore n) → net.Accepts n →
      ∀ f m, (net.restore n).Leads f m → m ∈ ms → net.Accepts m := by
    intro n hr ha f m hl _
    obtain ⟨net'', hf⟩ := hnever _ hr f m hl
    obtain ⟨m', hl', ha', -⟩ := (Net.fires_iff (h.restore ha)).1 hf
    rw [hl.2.unique hl'.2]
    exact Net.accepts_restore.1 ha'
  obtain ⟨-, hr⟩ := hx.reachable h haccepts hm
  have hmem := hall _ hr
  rw [Net.marking_restore h (hx.covers _ (List.mem_of_getElem? hm)), hcut.contains_iff] at hmem
  obtain ⟨i, hi⟩ := List.mem_iff_getElem?.1 hmem
  rw [List.getElem?_take] at hi
  split at hi
  · next hlt' =>
    have heq := (getElem?_eq_iff hcut.whole.nodup hm).1 hi
    omega
  · cases hi

lemma truncated_iff_missing (h : net.WellFormed) (hcut : Cut bound g u ms)
    (hx : Explored net u k ms) (hk : k = min bound ms.length) : g.truncated = false ↔
      (∀ net', Relation.ReflTransGen Net.Step net net' → g.contains net'.marking = true) ∧
        net.NeverRefused := by
  rw [hcut.truncated_eq_false_iff]
  constructor
  · intro hle
    rw [hk, Nat.min_eq_right hle] at hx
    exact hcut.untruncated h hx hle
  · rintro ⟨hall, hnever⟩
    exact hcut.not_truncated h hx hall hnever

lemma mem_deadlocks_iff (hcut : Cut bound g u ms) (hx : Explored net u k ms)
    (hk : k = min bound ms.length) {i : Nat} : i ∈ g.deadlocks.keys ↔
      ∃ m, g.marking? i = some m ∧ ∀ t ∈ net.transitions, (net.restore m).modes t.name = .ok [] := by
  have hmarking : g.marking? i = (ms.take bound)[i]? := hcut.part.marking?
  rw [hcut.deadlocks, hx.deadlocks, hmarking, List.getElem?_take]
  constructor
  · rintro ⟨hi, m, hm, hdead⟩
    exact ⟨m, by rw [if_pos (by omega), hm], hdead⟩
  · rintro ⟨m, hm, hdead⟩
    split at hm
    · next hi =>
      have hlt := (List.getElem?_eq_some_iff.1 hm).1
      exact ⟨by omega, m, hm, hdead⟩
    · cases hm

lemma mem_successorsOf_iff (hcut : Cut bound g u ms) (hx : Explored net u k ms)
    (hk : k = min bound ms.length) {i j : Nat} {f : Firing} : (j, f) ∈ g.successorsOf i ↔
      (j, f) ∈ u.successorsOf i ∧ i < k ∧ j < k := by
  rw [hcut.edges]
  refine and_congr_right fun he => ?_
  obtain ⟨hi, m, m', hm, hm', -⟩ := (hx.edges i j f).1 he
  have hlt := (List.getElem?_eq_some_iff.1 hm').1
  omega

lemma unlimited_build (h : net.WellFormed) {parallel : Bool} (hcut : Cut bound g u ms)
    (hle : ms.length ≤ bound) (hu : explore k (ofNet net ⟨none, parallel⟩) = .ok k u)
    (hk : k ≤ maxStates) (hnil : g.todo = []) :
    build (ofNet net ⟨none, parallel⟩) = .ok () { g with config := ⟨none, parallel⟩ } := by
  have hsame := hcut.same hle
  have hconfig : u.config = ⟨none, parallel⟩ :=
    ((placed_ofNet h ⟨none, parallel⟩).explore h hu).1.consistent.configured
  rw [hconfig] at hsame
  have hend : u.todo = [] := by rw [hsame, hnil]
  rw [← hsame]
  exact processAll_of_explore hu hend (Nat.lt_succ_of_le hk)

end Cut

structure Faithful (net : Net) (limit : Nat) (parallel : Bool) (g : StateGraph) : Prop where
  size_le : g.size ≤ max limit 1
  initial : ∃ u, explore g.size (ofNet net ⟨none, parallel⟩) = .ok g.size u ∧
    g.states.map Prod.snd <+: u.states.map Prod.snd ∧
    ∀ i j f, (j, f) ∈ g.successorsOf i ↔
      (j, f) ∈ u.successorsOf i ∧ i < g.size ∧ j < g.size
  untruncated_iff : g.truncated = false ↔ (∀ net', Relation.ReflTransGen Net.Step net net' →
    g.contains net'.marking = true) ∧ net.NeverRefused
  untruncated_of_scalar : net.ScalarOutputs → (g.truncated = false ↔
    ∀ net', Relation.ReflTransGen Net.Step net net' → g.contains net'.marking = true)
  complete : g.truncated = false →
    build (ofNet net ⟨none, parallel⟩) = .ok () { g with config := ⟨none, parallel⟩ }
  full : g.truncated = true → g.size = max limit 1
  deadlock_iff : ∀ i, i ∈ g.deadlocks.keys ↔ ∃ m, g.marking? i = some m ∧
    ∀ t ∈ net.transitions, (net.restore m).modes t.name = .ok []
  cut_alive : ∀ i m f m', g.marking? i = some m → (net.restore m).Leads f m' →
    g.contains m' = false → i ∉ g.deadlocks.keys

lemma Cut.faithful (h : net.WellFormed) {parallel : Bool} {u : StateGraph}
    (hcut : Cut (max limit 1) g u ms) (hx : Explored net u g.size ms) (hnil : g.todo = [])
    (hfits : g.size ≤ maxStates) (hsize : g.size = min (max limit 1) ms.length)
    (hu : explore g.size (ofNet net ⟨none, parallel⟩) = .ok g.size u) :
    Faithful net limit parallel g where
  size_le := by omega
  initial := by
    have hstates : g.states.map Prod.snd = ms.take (max limit 1) := hcut.part.states_markings
    refine ⟨u, hu, ?_, fun i j f => hcut.mem_successorsOf_iff hx hsize⟩
    rw [hstates, hcut.whole.states_markings]
    exact List.take_prefix _ ms
  untruncated_iff := hcut.truncated_iff_missing h hx hsize
  untruncated_of_scalar hs :=
    (hcut.truncated_iff_missing h hx hsize).trans (and_iff_left (hs.neverRefused h))
  complete ht := hcut.unlimited_build h (hcut.truncated_eq_false_iff.1 ht) hu hfits hnil
  full ht := by
    have hlt := hcut.truncated.1 ht
    omega
  deadlock_iff i := hcut.mem_deadlocks_iff hx hsize
  cut_alive i m f m' hm hl _ hi := by
    obtain ⟨n, hn, hdead⟩ := (hcut.mem_deadlocks_iff hx hsize).1 hi
    cases hm.symm.trans hn
    exact hl.not_dead h.keyed.restore hdead

/-- Building up to a limit ends after at most as many states as the limit allows, one at least, and
what it builds is the first part of the unlimited graph. -/
theorem limited_build (h : net.Built) (limit : Nat) (parallel : Bool) :
    (∃ k ≤ max limit 1, EndsAfter k (ofNet net ⟨some limit, parallel⟩)) ∧
    ∀ g, build (ofNet net ⟨some limit, parallel⟩) = .ok () g →
      Faithful net limit parallel g := by
  have hw := h.wellFormed
  constructor
  · exact exists_endsAfter fun k g hk => explore_le_limit hw hk
  · intro g hb
    obtain ⟨u, ms, hnil, hfits, hsize, hu, hx, hcut⟩ := build_cut hw hb
    exact hcut.faithful hw hx hnil hfits hsize hu

def growing : Net :=
  .ofNodes "growing"
    [⟨"p", Bag.empty, .any, ["t"], []⟩]
    [⟨"t", .truth, [], [("p", .value .dot)]⟩] Table.empty

theorem limited_build_growing : growing.Built ∧
    (∃ k ≤ 2, EndsAfter k (ofNet growing ⟨some 2, false⟩)) ∧
    ∃ g, build (ofNet growing ⟨some 2, false⟩) = .ok () g ∧ Faithful growing 2 false g ∧
      g.truncated = true ∧ g.size = 2 ∧ g.deadlocks.keys = [] ∧
      ∃ net', Relation.ReflTransGen Net.Step growing net' ∧ g.contains net'.marking = false := by
  have hb : growing.Built := .described (d := .ofNet growing) rfl
  obtain ⟨hends, hfaithful⟩ := limited_build hb 2 false
  have hg := hfaithful _ (show build (ofNet growing ⟨some 2, false⟩) = .ok () _ from rfl)
  refine ⟨hb, hends, _, rfl, hg, rfl, hg.full rfl, rfl, ?_⟩
  have hscalar : growing.ScalarOutputs :=
    show ∀ t ∈ growing.transitions, ∀ e ∈ t.outputs, e.2.scalarTuples = true by decide
  by_contra hall
  simp only [not_exists, not_and, Bool.not_eq_false] at hall
  cases (hg.untruncated_of_scalar hscalar).2 hall

/-- The one state that is reached is there, and still the graph is marked as truncated: what was cut
off is a marking that a firing does not lead to, because the place refuses it. -/
theorem truncated_in_vain : Net.packing.Built ∧
    ∃ g, build (ofNet Net.packing ⟨some 1, false⟩) = .ok () g ∧ g.truncated = true ∧
      ∀ net', Relation.ReflTransGen Net.Step Net.packing net' →
        g.contains net'.marking = true := by
  refine ⟨.described (d := .ofNet Net.packing) rfl, _, rfl, rfl, fun net' hr => ?_⟩
  have hkeyed : Net.packing.Keyed := Net.keyed_ofNodes _ _ _ _
  have hstuck : ∀ net', ¬ Net.Step Net.packing net' := by
    rintro net' ⟨⟨trans, mode⟩, ⟨modes, hmodes, hmem⟩, hfire⟩
    obtain ⟨t, ht, -⟩ := except_bind_eq_ok.1 hmodes
    obtain ⟨htm, hname⟩ := hkeyed.mem_of_transition? (Net.transition_eq_ok_iff.1 ht)
    obtain rfl := List.mem_singleton.1 htm
    obtain rfl : "t" = trans := hname
    cases hmodes
    obtain rfl : mode = Table.empty := List.mem_singleton.1 hmem
    cases hfire
  rcases Relation.ReflTransGen.cases_head hr with rfl | ⟨net₁, hstep, -⟩
  · rfl
  · exact absurd hstep (hstuck net₁)

end StateGraph

end ColouredPetri
