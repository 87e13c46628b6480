import ColouredPetri.Proofs.GraphCollections
import ColouredPetri.Proofs.StateGraph.Processing

/-! Exploration up to a limit, next to exploration without one. Both process the same states, and at
each moment the first graph is the second one cut down to its first states. -/

namespace ColouredPetri

namespace StateGraph

variable {net : Net} {config : ExploreConfig} {g g' u : StateGraph} {ms : List Marking}
variable {m : Marking} {s k limit bound : Nat}

lemma Listing.index_size (h : Listing g ms) : g.index.size = ms.length := by
  rw [h.linked.index_size, length_nodes, ← h.states_markings, List.length_map]

structure Cut (bound : Nat) (g u : StateGraph) (ms : List Marking) : Prop where
  whole : Listing u ms
  part : Listing { g with config := u.config } (ms.take bound)
  nonempty : ms ≠ []
  limited : ∃ limit, g.config.stateLimit = some limit ∧ bound = max limit 1
  queue : g.todo = u.todo.filter (· < bound)
  edges : ∀ i j f, (j, f) ∈ g.successorsOf i ↔ (j, f) ∈ u.successorsOf i ∧ j < bound
  deadlocks : g.deadlocks = u.deadlocks
  truncated : g.truncated = true ↔ bound < ms.length
  same : ms.length ≤ bound → u = { g with config := u.config }

namespace Cut

lemma length_pos (h : Cut bound g u ms) : 0 < ms.length := List.length_pos_iff.2 h.nonempty

lemma index_size (h : Cut bound g u ms) : g.index.size = min bound ms.length :=
  (Listing.index_size h.part).trans List.length_take

lemma limitReached_iff (h : Cut bound g u ms) : g.limitReached = true ↔ bound ≤ ms.length := by
  obtain ⟨limit, hlimit, hbound⟩ := h.limited
  have hpos := h.length_pos
  rw [limitReached, hlimit, h.index_size]
  simp only [decide_eq_true_eq]
  omega

lemma stateOf?_eq_some (h : Cut bound g u ms) (hm : ms[s]? = some m) (hs : s < bound) :
    g.stateOf? m = some s := by
  have hpart : (ms.take bound)[s]? = some m := by rw [List.getElem?_take_of_lt hs, hm]
  exact h.part.stateOf?_eq_some_iff.2 hpart

lemma stateOf?_eq_none (h : Cut bound g u ms) (hm : ∀ i < bound, ms[i]? ≠ some m) :
    g.stateOf? m = none := by
  refine h.part.stateOf?_eq_none_iff.2 fun hmem => ?_
  obtain ⟨i, hi⟩ := List.mem_iff_getElem?.1 hmem
  rw [List.getElem?_take] at hi
  split at hi
  · next hlt => exact hm i hlt hi
  · cases hi

lemma truncate (h : Cut bound g u ms) (hs : s < ms.length) {t : Nat} {r : Firing × Marking}
    (ht : ms[t]? = some r.2) (hbound : bound ≤ t) :
    Cut bound { g with truncated := true } (u.addEdge s t r.1) ms where
  whole := (h.whole.addEdge hs ht).1
  part := h.part.of_eq rfl rfl rfl rfl rfl rfl
  nonempty := h.nonempty
  limited := h.limited
  queue := h.queue
  edges i j f := by
    have hnext : s < u.forward.next := by rwa [h.whole.linked.forward_next, h.whole.next]
    refine (h.edges i j f).trans ?_
    rw [mem_successorsOf_addEdge hnext, or_and_right]
    refine (or_iff_left ?_).symm
    rintro ⟨⟨-, rfl, -⟩, hj⟩
    omega
  deadlocks := h.deadlocks
  truncated := by
    have hlt := (List.getElem?_eq_some_iff.1 ht).1
    exact iff_of_true rfl (by omega)
  same hle := by
    have hlt := (List.getElem?_eq_some_iff.1 ht).1
    omega

lemma addEdge (h : Cut bound g u ms) (hs : s < min bound ms.length) {t : Nat}
    {r : Firing × Marking} (ht : ms[t]? = some r.2) (hbound : t < bound) :
    Cut bound (g.addEdge s t r.1) (u.addEdge s t r.1) ms where
  whole := (h.whole.addEdge (by omega) ht).1
  part := by
    have hpart : (ms.take bound)[t]? = some r.2 := by rw [List.getElem?_take_of_lt hbound, ht]
    exact (h.part.addEdge (by rwa [List.length_take]) hpart).1
  nonempty := h.nonempty
  limited := h.limited
  queue := h.queue
  edges i j f := by
    have hwhole : s < u.forward.next := by
      rw [h.whole.linked.forward_next, h.whole.next]
      omega
    have hpart : s < g.forward.next := by
      have hnext : g.forward.next = (ms.take bound).length :=
        h.part.linked.forward_next.trans h.part.next
      rwa [hnext, List.length_take]
    rw [mem_successorsOf_addEdge hpart, mem_successorsOf_addEdge hwhole, h.edges, or_and_right]
    refine or_congr_right (iff_self_and.2 ?_)
    rintro ⟨-, rfl, -⟩
    exact hbound
  deadlocks := h.deadlocks
  truncated := h.truncated
  same hle := congrArg (StateGraph.addEdge · s t r.1) (h.same hle)

lemma addState (h : Cut bound g u ms) (hg : g.stateOf? m = none) (hu : u.stateOf? m = none)
    (hbound : ms.length < bound) : Cut bound (g.addState m) (u.addState m) (ms ++ [m]) where
  whole := h.whole.addState hu
  part := by
    have htake : (ms ++ [m]).take bound = ms.take bound ++ [m] := by
      rw [List.take_of_length_le (by simp; omega), List.take_of_length_le (by omega)]
    rw [htake]
    exact h.part.addState hg
  nonempty := by simp
  limited := h.limited
  queue := by
    have hnext : g.markings.next = ms.length := by
      rw [show g.markings.next = (ms.take bound).length from h.part.next, List.length_take]
      omega
    simp only [StateGraph.addState, h.queue, hnext, h.whole.next, List.filter_append]
    simp [hbound]
  edges i j f := by
    rw [mem_successorsOf_addState, mem_successorsOf_addState]
    exact h.edges i j f
  deadlocks := h.deadlocks
  truncated := by
    rw [List.length_append, List.length_singleton]
    refine h.truncated.trans ?_
    omega
  same hle := congrArg (StateGraph.addState · m) (h.same (by omega))

lemma addBeyond (h : Cut bound g u ms) (hu : u.stateOf? m = none) (hbound : bound ≤ ms.length) :
    Cut bound { g with truncated := true } (u.addState m) (ms ++ [m]) where
  whole := h.whole.addState hu
  part := by
    rw [List.take_append_of_le_length hbound]
    exact h.part.of_eq rfl rfl rfl rfl rfl rfl
  nonempty := by simp
  limited := h.limited
  queue := by
    simp only [StateGraph.addState, h.queue, h.whole.next, List.filter_append]
    simp [hbound]
  edges i j f := by
    rw [mem_successorsOf_addState]
    exact h.edges i j f
  deadlocks := h.deadlocks
  truncated := iff_of_true rfl (by simp; omega)
  same hle := by
    rw [List.length_append, List.length_singleton] at hle
    omega

lemma record (h : Cut bound g u ms) (hs : s < min bound ms.length) (r : Firing × Marking) :
    ∃ ms', ms.length ≤ ms'.length ∧ Cut bound (record s g r) (record s u r) ms' := by
  obtain ⟨f, m⟩ := r
  have hlimit := h.limitReached_iff
  cases hu : u.stateOf? m with
  | some t =>
    have ht := h.whole.stateOf?_eq_some_iff.1 hu
    have hlt := (List.getElem?_eq_some_iff.1 ht).1
    refine ⟨ms, Nat.le_refl _, ?_⟩
    by_cases hbound : t < bound
    · simp only [StateGraph.record, hu, h.stateOf?_eq_some ht hbound]
      exact h.addEdge hs (r := (f, m)) ht hbound
    · have hg : g.stateOf? m = none := h.stateOf?_eq_none fun i hi hm =>
        hbound ((getElem?_eq_iff h.whole.nodup ht).1 hm ▸ hi)
      simp only [StateGraph.record, hu, hg, hlimit.2 (by omega), if_true]
      exact h.truncate (r := (f, m)) (by omega) ht (by omega)
  | none =>
    have hg : g.stateOf? m = none := h.stateOf?_eq_none fun i _ hm =>
      h.whole.stateOf?_eq_none_iff.1 hu (List.mem_of_getElem? hm)
    have hlast : (ms ++ [m])[ms.length]? = some m := by simp
    have hunlimited : u.limitReached = false := by
      rw [StateGraph.limitReached, h.whole.unlimited]
    refine ⟨ms ++ [m], by simp, ?_⟩
    by_cases hbound : ms.length < bound
    · have hopen : g.limitReached = false := Bool.eq_false_iff.2 fun hc => by
        have := hlimit.1 hc
        omega
      have hnext : g.markings.next = ms.length := by
        rw [show g.markings.next = (ms.take bound).length from h.part.next, List.length_take]
        omega
      simp only [StateGraph.record, hu, hg, hopen, hunlimited, hnext, h.whole.next]
      refine (h.addState hg hu hbound).addEdge (r := (f, m)) ?_ hlast hbound
      simp only [List.length_append, List.length_singleton]
      omega
    · simp only [StateGraph.record, hu, hg, hlimit.2 (by omega), hunlimited, h.whole.next, if_true]
      refine (h.addBeyond hu (by omega)).truncate (r := (f, m)) ?_ hlast (by omega)
      simp only [List.length_append, List.length_singleton]
      omega

lemma foldl_record (h : Cut bound g u ms) (hs : s < min bound ms.length)
    (found : List (Firing × Marking)) : ∃ ms', Cut bound
      (found.foldl (StateGraph.record s) g) (found.foldl (StateGraph.record s) u) ms' := by
  induction found generalizing g u ms with
  | nil => exact ⟨ms, h⟩
  | cons r found ih =>
    obtain ⟨ms₁, hle, h₁⟩ := h.record hs r
    exact ih h₁ (by omega)

lemma start (h : Cut bound g u ms) {rest rest' : List Nat} (hg : g.todo = s :: rest)
    (hu : u.todo = s :: rest') (hs : s < bound) (net : Net) :
    Cut bound { g with todo := rest, current := s, net := net }
      { u with todo := rest', current := s, net := net } ms where
  whole := h.whole.of_eq rfl rfl rfl rfl rfl rfl
  part := h.part.of_eq rfl rfl rfl rfl rfl rfl
  nonempty := h.nonempty
  limited := h.limited
  queue := by
    have hqueue := h.queue
    rw [hg, hu, List.filter_cons_of_pos (by simpa using hs)] at hqueue
    exact (List.cons.inj hqueue).2
  edges := h.edges
  deadlocks := h.deadlocks
  truncated := h.truncated
  same hle := by
    have hsame := h.same hle
    have htodo : u.todo = g.todo := by rw [hsame]
    rw [hu, hg] at htodo
    rw [(List.cons.inj htodo).2, hsame]

lemma noteDeadlock (h : Cut bound g u ms) (found : List (Firing × Marking)) :
    Cut bound (noteDeadlock s found g) (noteDeadlock s found u) ms := by
  rw [StateGraph.noteDeadlock, StateGraph.noteDeadlock]
  split
  · exact
      { whole := h.whole.of_eq rfl rfl rfl rfl rfl rfl
        part := h.part.of_eq rfl rfl rfl rfl rfl rfl
        nonempty := h.nonempty
        limited := h.limited
        queue := h.queue
        edges := h.edges
        deadlocks := congrArg (KeySet.add · s) h.deadlocks
        truncated := h.truncated
        same := fun hle =>
          congrArg (fun g => { g with deadlocks := KeySet.add g.deadlocks s }) (h.same hle) }
  · exact h

lemma finish (h : Cut bound g u ms) :
    Cut bound { g with done := KeySet.add g.done s } { u with done := KeySet.add u.done s } ms where
  whole := h.whole.of_eq rfl rfl rfl rfl rfl rfl
  part := h.part.of_eq rfl rfl rfl rfl rfl rfl
  nonempty := h.nonempty
  limited := h.limited
  queue := h.queue
  edges := h.edges
  deadlocks := h.deadlocks
  truncated := h.truncated
  same hle := congrArg (fun g => { g with done := KeySet.add g.done s }) (h.same hle)

lemma recordAll (h : Cut bound g u ms) (hs : s < min bound ms.length)
    (found : List (Firing × Marking)) :
    ∃ ms', Cut bound (recordAll s found g) (recordAll s found u) ms' := by
  obtain ⟨ms', h'⟩ := (h.noteDeadlock (s := s) found).foldl_record hs found
  exact ⟨ms', h'.finish⟩

end Cut

lemma Listing.unique {ms' : List Marking} (h : Listing g ms) (h' : Listing g ms') : ms = ms' :=
  h.states_markings.symm.trans h'.states_markings

lemma Cut.head (hcut : Cut bound g u ms) (hx : Explored net u k ms) {rest : List Nat}
    (hq : g.todo = s :: rest) : s < bound ∧ s < ms.length ∧ ∃ rest', u.todo = s :: rest' := by
  -- were the head of the longer queue beyond the bound, then all that waits would be
  have hqueue := hcut.queue
  rw [hq] at hqueue
  have hsmall : s < bound := by
    have hmem : s ∈ u.todo.filter (· < bound) := hqueue ▸ List.mem_cons_self
    simpa using (List.mem_filter.1 hmem).2
  cases hqu : u.todo with
  | nil =>
    rw [hqu] at hqueue
    cases hqueue
  | cons t rest' =>
    obtain ⟨rfl, hlt, hrest'⟩ := hx.head hqu
    rw [hqu] at hqueue
    by_cases ht : t < bound
    · rw [List.filter_cons_of_pos (by simpa using ht)] at hqueue
      obtain ⟨rfl, -⟩ := List.cons.inj hqueue
      exact ⟨hsmall, hlt, rest', rfl⟩
    · rw [List.filter_cons_of_neg (by simpa using ht), hrest'] at hqueue
      have hmem : s ∈ (List.range' (t + 1) (ms.length - (t + 1))).filter (· < bound) :=
        hqueue ▸ List.mem_cons_self
      have hwaits := List.mem_range'_1.1 (List.mem_filter.1 hmem).1
      omega

lemma Cut.compute (h : net.WellFormed) (hcut : Cut bound g u ms) {config' : ExploreConfig}
    (hg : Placed net config g) (hu : Placed net config' u) (hx : Explored net u k ms)
    {rest : List Nat} (hq : g.todo = s :: rest)
    (hs : compute s { g with todo := rest } = .ok () g') :
    ∃ u' ms', explore 1 u = .ok 1 u' ∧ Explored net u' (k + 1) ms' ∧ Cut bound g' u' ms' := by
  obtain ⟨m, found, hm, ha, hfound, rfl⟩ := (compute_eq_ok_iff h hg).1 hs
  obtain ⟨hsmall, hlt, rest', hqu⟩ := hcut.head hx hq
  have hmark : u.marking? s = some m := by
    have hpart : g.marking? s = (ms.take bound)[s]? := hcut.part.marking?
    rw [hpart, List.getElem?_take_of_lt hsmall] at hm
    rw [hcut.whole.marking?, hm]
  have hstep : StateGraph.compute s { u with todo := rest' } = .ok () _ :=
    (compute_eq_ok_iff h hu).2 ⟨m, found, hmark, ha, hfound, rfl⟩
  obtain ⟨ms', hx'⟩ := compute_explored h hx hqu hstep
  obtain ⟨ms'', hcut'⟩ :=
    (hcut.start hq hqu hsmall (net.restore m)).recordAll (lt_min hsmall hlt) found
  obtain rfl := hx'.listing.unique hcut'.whole
  exact ⟨_, ms', explore_succ_eq_ok_iff.2 ⟨s, rest', _, hqu, hstep, rfl⟩, hx', hcut'⟩

lemma cut_ofNet (net : Net) (limit : Nat) (parallel : Bool) :
    Cut (max limit 1) (ofNet net ⟨some limit, parallel⟩) (ofNet net ⟨none, parallel⟩)
      [net.marking] := by
  have hfresh : Listing (ofNet net ⟨none, parallel⟩) [net.marking] :=
    ⟨(Linked.blank net _).addState rfl, rfl, rfl⟩
  have hnone : ∀ config i, (ofNet net config).successorsOf i = [] := fun config i => by
    refine List.eq_nil_iff_forall_not_mem.2 fun e he => ?_
    cases mem_successorsOf_addState.1 he
  refine ⟨hfresh, ?_, by simp, ⟨limit, rfl, rfl⟩, ?_, fun i j f => ?_, rfl, ?_, fun _ => rfl⟩
  · rw [List.take_of_length_le (Nat.le_max_right limit 1)]
    exact hfresh
  · simp [ofNet, blank, StateGraph.addState, Numbered.next, Numbered.empty]
  · rw [hnone, hnone]
    simp
  · simp [ofNet, blank, StateGraph.addState]

lemma explore_cut (h : net.WellFormed) {parallel : Bool}
    (hs : explore k (ofNet net ⟨some limit, parallel⟩) = .ok k g) : ∃ u ms,
      explore k (ofNet net ⟨none, parallel⟩) = .ok k u ∧ Explored net u k ms ∧
      Cut (max limit 1) g u ms := by
  induction k generalizing g with
  | zero =>
    obtain ⟨-, rfl⟩ := explore_zero hs
    exact ⟨_, _, rfl, explored_ofNet h rfl, cut_ofNet net limit parallel⟩
  | succ k ih =>
    obtain ⟨g₁, hk, hone⟩ := explore_add.1 hs
    obtain ⟨u, ms, hu, hx, hcut⟩ := ih hk
    have hg₁ := ((placed_ofNet h _).explore h hk).1
    have hu₁ := ((placed_ofNet h _).explore h hu).1
    obtain ⟨s, rest, g₂, hq, hstep, hzero⟩ := explore_succ_eq_ok_iff.1 hone
    obtain ⟨-, rfl⟩ := explore_zero hzero
    obtain ⟨u', ms', hu', hx', hcut'⟩ := hcut.compute h hg₁ hu₁ hx hq hstep
    exact ⟨u', ms', explore_add.2 ⟨u, hu, hu'⟩, hx', hcut'⟩

end StateGraph

end ColouredPetri
