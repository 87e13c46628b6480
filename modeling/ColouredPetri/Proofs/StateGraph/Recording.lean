import ColouredPetri.Proofs.StateGraph.Collections

namespace ColouredPetri

namespace StateGraph

variable {g g' : StateGraph} {ms : List Marking} {m : Marking} {s : Nat}

lemma getElem?_eq_iff {l : List Marking} (hl : l.Nodup) {i j : Nat} (hi : l[i]? = some m) :
    l[j]? = some m ↔ j = i := by
  refine ⟨fun hj => ?_, fun hj => hj ▸ hi⟩
  exact (List.getElem?_inj (List.getElem?_eq_some_iff.1 hj).1 hl).1 (hj.trans hi.symm)

structure Listing (g : StateGraph) (ms : List Marking) : Prop where
  linked : g.Linked
  markings : g.markings = ⟨ms.map some⟩
  unlimited : g.config.stateLimit = none

namespace Listing

lemma of_eq (h : Listing g ms) (hm : g'.markings = g.markings) (hi : g'.index = g.index)
    (hf : g'.forward = g.forward) (hb : g'.backward = g.backward) (hr : g'.removed = g.removed)
    (hc : g'.config = g.config) : Listing g' ms :=
  ⟨h.linked.of_eq hm hi hf hb hr, hm.trans h.markings, hc ▸ h.unlimited⟩

lemma get? (h : Listing g ms) : g.markings.get? s = ms[s]?.map some := by
  rw [h.markings, Numbered.get?, List.getElem?_map]

lemma marking? (h : Listing g ms) : g.marking? s = ms[s]? := by
  rw [StateGraph.marking?, h.get?]
  cases ms[s]? <;> rfl

lemma stateOf?_eq_some_iff (h : Listing g ms) : g.stateOf? m = some s ↔ ms[s]? = some m := by
  rw [stateOf?, h.linked.index_iff, h.marking?]

lemma nodup (h : Listing g ms) : ms.Nodup := by
  refine List.nodup_iff_getElem?_ne_getElem?.2 fun i j hij hj heq => ?_
  -- the index has one state for a marking
  have hm := List.getElem?_eq_getElem hj
  have := (h.stateOf?_eq_some_iff.2 (heq.trans hm)).symm.trans (h.stateOf?_eq_some_iff.2 hm)
  exact Nat.ne_of_lt hij (Option.some.inj this)

lemma next (h : Listing g ms) : g.markings.next = ms.length := by
  rw [h.markings, Numbered.next, List.length_map]

lemma states_markings (h : Listing g ms) : g.states.map Prod.snd = ms := by
  have hentries : (g.markings.entries.map Prod.snd) = ms.map some := by
    rw [h.markings]
    refine List.ext_getElem? fun i => ?_
    simp only [Numbered.entries, List.getElem?_map, List.getElem?_mapIdx]
    cases ms[i]? <;> rfl
  calc g.states.map Prod.snd
      = g.markings.entries.filterMap fun e => e.2 := by
        rw [StateGraph.states, List.map_filterMap]
        refine List.filterMap_congr fun e _ => ?_
        cases e.2 <;> rfl
    _ = (g.markings.entries.map Prod.snd).filterMap id := by rw [List.filterMap_map]; rfl
    _ = ms := by rw [hentries, List.filterMap_map]; exact List.filterMap_some

lemma stateOf?_eq_none_iff (h : Listing g ms) : g.stateOf? m = none ↔ m ∉ ms := by
  rw [← not_iff_not, not_not, ← ne_eq, Option.ne_none_iff_exists']
  simp only [h.stateOf?_eq_some_iff, List.mem_iff_getElem?]

lemma contains_iff (h : Listing g ms) : g.contains m = true ↔ m ∈ ms := by
  rw [StateGraph.contains, Option.isSome_iff_ne_none, ne_eq, h.stateOf?_eq_none_iff, not_not]

end Listing

structure Recorded (s : Nat) (found : List (Firing × Marking)) (g g' : StateGraph)
    (ms ms' : List Marking) : Prop where
  listing : Listing g' ms'
  grows : ms <+: ms'
  queue : g'.todo = g.todo ++ List.range' ms.length (ms'.length - ms.length)
  mem : ∀ m, m ∈ ms' ↔ m ∈ ms ∨ ∃ f, (f, m) ∈ found
  edges : ∀ i j f, (j, f) ∈ g'.successorsOf i ↔ (j, f) ∈ g.successorsOf i ∨
    i = s ∧ ∃ m, (f, m) ∈ found ∧ ms'[j]? = some m
  net : g'.net = g.net
  current : g'.current = g.current
  deadlocks : g'.deadlocks = g.deadlocks

namespace Recorded

lemma refl (h : Listing g ms) : Recorded s [] g g ms ms where
  listing := h
  grows := List.prefix_rfl
  queue := by simp
  mem := by simp
  edges := by simp
  net := rfl
  current := rfl
  deadlocks := rfl

lemma getElem? {ms ms' : List Marking} (h : ms <+: ms') {i : Nat} (hm : ms[i]? = some m) :
    ms'[i]? = some m := by
  obtain ⟨l, rfl⟩ := h
  rw [List.getElem?_append_left (List.getElem?_eq_some_iff.1 hm).1, hm]

lemma trans {g₁ g₂ : StateGraph} {l₁ l₂ : List (Firing × Marking)} {ms₁ ms₂ : List Marking}
    (h₁ : Recorded s l₁ g g₁ ms ms₁) (h₂ : Recorded s l₂ g₁ g₂ ms₁ ms₂) :
    Recorded s (l₁ ++ l₂) g g₂ ms ms₂ where
  listing := h₂.listing
  grows := h₁.grows.trans h₂.grows
  queue := by
    have h₁' := h₁.grows.length_le
    have h₂' := h₂.grows.length_le
    rw [h₂.queue, h₁.queue, List.append_assoc]
    congr 1
    rw [show ms₂.length - ms.length = (ms₁.length - ms.length) + (ms₂.length - ms₁.length) by omega,
      ← List.range'_append_1]
    congr 2
    omega
  mem m := by
    rw [h₂.mem, h₁.mem, or_assoc]
    simp only [List.mem_append, exists_or]
  edges i j f := by
    rw [h₂.edges, h₁.edges, or_assoc]
    refine or_congr_right ?_
    rw [← and_or_left]
    refine and_congr_right fun _ => ?_
    simp only [List.mem_append, or_and_right, exists_or]
    refine or_congr_left (exists_congr fun m => and_congr_right fun hm => ?_)
    -- the target of an old firing has its number in both lists
    obtain ⟨i, hi⟩ := List.mem_iff_getElem?.1 ((h₁.mem m).2 (.inr ⟨_, hm⟩))
    rw [getElem?_eq_iff h₁.listing.nodup hi,
      getElem?_eq_iff h₂.listing.nodup (getElem? h₂.grows hi)]
  net := h₂.net.trans h₁.net
  current := h₂.current.trans h₁.current
  deadlocks := h₂.deadlocks.trans h₁.deadlocks

end Recorded

lemma Listing.addEdge (h : Listing g ms) {t : Nat} {r : Firing × Marking}
    (hs : s < ms.length) (ht : ms[t]? = some r.2) :
    Listing (g.addEdge s t r.1) ms ∧ ∀ i j f,
      (j, f) ∈ (g.addEdge s t r.1).successorsOf i ↔
        (j, f) ∈ g.successorsOf i ∨ i = s ∧ ∃ m, (f, m) ∈ [r] ∧ ms[j]? = some m := by
  obtain ⟨f', m⟩ := r
  have hlive : ∀ {i n}, ms[i]? = some n → g.Live i := fun hi => ⟨_, h.marking?.trans hi⟩
  refine ⟨⟨h.linked.addEdge (hlive (List.getElem?_eq_getElem hs)) (hlive ht), h.markings,
    h.unlimited⟩, fun i j f => ?_⟩
  rw [mem_successorsOf_addEdge (by rwa [h.linked.forward_next, h.next])]
  simp only [List.mem_singleton, Prod.mk.injEq]
  refine or_congr_right (and_congr_right fun _ => ?_)
  constructor
  · rintro ⟨rfl, rfl⟩
    exact ⟨m, ⟨rfl, rfl⟩, ht⟩
  · rintro ⟨_, ⟨rfl, rfl⟩, ht'⟩
    exact ⟨(getElem?_eq_iff h.nodup ht).1 ht', rfl⟩

lemma Listing.addState (h : Listing g ms) (hm : g.stateOf? m = none) :
    Listing (g.addState m) (ms ++ [m]) where
  linked := h.linked.addState hm
  markings := by
    rw [StateGraph.addState, h.markings, List.map_append]
    rfl
  unlimited := h.unlimited

lemma record_recorded (h : Listing g ms) (hs : s < ms.length) (r : Firing × Marking) :
    ∃ ms', Recorded s [r] g (record s g r) ms ms' := by
  obtain ⟨f, m'⟩ := r
  cases ht : g.stateOf? m' with
  | some target =>
    have hi := h.stateOf?_eq_some_iff.1 ht
    obtain ⟨hlisting, hedges⟩ := h.addEdge (r := (f, m')) hs hi
    rw [record, ht]
    refine ⟨ms, hlisting, List.prefix_rfl, by simp [addEdge], fun m => ⟨.inl, ?_⟩, hedges, rfl, rfl,
      rfl⟩
    rintro (hm | ⟨_, hm⟩)
    · exact hm
    · cases List.mem_singleton.1 hm
      exact List.mem_of_getElem? hi
  | none =>
    have hlimit : g.limitReached = false := by rw [limitReached, h.unlimited]
    have hr : record s g (f, m') = (g.addState m').addEdge s ms.length f := by
      rw [record, ht, hlimit, h.next]
      rfl
    obtain ⟨hlisting, hedges⟩ := (h.addState ht).addEdge (s := s) (t := ms.length)
      (r := (f, m')) (by simp; omega) (by simp)
    rw [hr]
    refine ⟨ms ++ [m'], hlisting, List.prefix_append _ _, ?_, fun m => ?_, fun i j f => ?_, rfl,
      rfl, rfl⟩
    · simp [addEdge, StateGraph.addState, h.next]
    · simp
    · rw [hedges, mem_successorsOf_addState]

lemma foldl_recorded (h : Listing g ms) (hs : s < ms.length) (found : List (Firing × Marking)) :
    ∃ ms', Recorded s found g (found.foldl (record s) g) ms ms' := by
  induction found generalizing g ms with
  | nil => exact ⟨ms, .refl h⟩
  | cons r found ih =>
    obtain ⟨ms₁, h₁⟩ := record_recorded h hs r
    obtain ⟨ms₂, h₂⟩ := ih h₁.listing (Nat.lt_of_lt_of_le hs h₁.grows.length_le)
    exact ⟨ms₂, h₁.trans h₂⟩

end StateGraph

end ColouredPetri
