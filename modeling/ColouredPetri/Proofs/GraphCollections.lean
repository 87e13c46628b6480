import ColouredPetri.Proofs.Nets.Keys
import ColouredPetri.Proofs.StateGraph.Schedule
import ColouredPetri.StateGraph.Summary
import Mathlib.Data.List.Sort

/-! The collections of every state graph agree, whatever was done to it: one state for a marking,
each state waiting or done, and each edge at both of its ends. The bare graph is then complete. -/

namespace ColouredPetri

namespace StateGraph

variable {net : Net} {config : ExploreConfig} {g : StateGraph} {m : Marking} {s : Nat}

section Nodes

lemma entries_keys {α : Type} (l : Numbered α) : l.entries.map Prod.fst = List.range l.next := by
  refine List.ext_getElem (by simp [Numbered.entries, Numbered.next]) fun i _ _ => ?_
  simp [Numbered.entries]

lemma get?_of_mem_entries {α : Type} {l : Numbered α} {e : Nat × α} (he : e ∈ l.entries) :
    l.get? e.1 = some e.2 := by
  obtain ⟨i, hi, rfl⟩ := List.mem_mapIdx.1 he
  exact List.getElem?_eq_getElem hi

lemma mem_states {e : Nat × Marking} : e ∈ g.states ↔ g.marking? e.1 = some e.2 := by
  rw [states, List.mem_filterMap, marking?, Option.join_eq_some_iff]
  constructor
  · rintro ⟨⟨s, o⟩, hd, he⟩
    obtain ⟨m, rfl, rfl⟩ := Option.map_eq_some_iff.1 he
    exact get?_of_mem_entries hd
  · intro he
    obtain ⟨hlt, hget⟩ := List.getElem?_eq_some_iff.1 he
    exact ⟨(e.1, some e.2), List.mem_mapIdx.2 ⟨e.1, hlt, by rw [hget]⟩, rfl⟩

lemma nodes_eq : g.nodes = (List.range g.markings.next).filter fun s => (g.marking? s).isSome := by
  have hnode : ∀ e ∈ g.markings.entries, (e.2.map (e.1, ·)).map Prod.fst =
      Option.guard (fun s => (g.marking? s).isSome) e.1 := fun e he => by
    rw [Option.guard, marking?, get?_of_mem_entries he]
    cases e.2 <;> rfl
  calc g.nodes
      = g.markings.entries.filterMap fun e => (e.2.map (e.1, ·)).map Prod.fst :=
        List.map_filterMap ..
    _ = g.markings.entries.filterMap fun e =>
          Option.guard (fun s => (g.marking? s).isSome) e.1 := List.filterMap_congr hnode
    _ = (g.markings.entries.map Prod.fst).filterMap
          (Option.guard fun s => (g.marking? s).isSome) := by
        rw [List.filterMap_map]
        rfl
    _ = _ := by rw [entries_keys, List.filterMap_eq_filter]

lemma mem_nodes : s ∈ g.nodes ↔ g.Live s := by
  rw [nodes_eq, List.mem_filter, List.mem_range, Option.isSome_iff_exists]
  exact ⟨fun h => h.2, fun h => ⟨lt_of_live h, h⟩⟩

lemma nodes_ascending (g : StateGraph) : g.nodes.Pairwise (· < ·) := by
  rw [nodes_eq]
  exact List.Pairwise.filter _ List.pairwise_lt_range

lemma length_nodes (g : StateGraph) : g.nodes.length = g.states.length := List.length_map _

end Nodes

section Counts

lemma Scheduled.nodes_eq (h : g.Scheduled []) : g.nodes = g.done.keys ++ g.todo := by
  refine g.nodes_ascending.eq_of_mem_iff ?_ fun s => ?_
  · exact List.pairwise_append.2 ⟨g.done.keys_ascending_nat, h.ascending, h.below⟩
  · rw [mem_nodes, h.live_iff]
    exact List.mem_append.symm

lemma Scheduled.size_eq (h : g.Scheduled []) : g.size = g.nodes.length := by
  rw [h.nodes_eq, List.length_append, size, Table.size_eq_length_keys]

lemma Linked.index_size (h : g.Linked) : g.index.size = g.nodes.length := by
  have hperm : (g.index.entries.map Prod.snd).Perm g.nodes := by
    refine (List.perm_ext_iff_of_nodup ?_ ?_).2 fun s => ?_
    · refine List.pairwise_map.2 (g.index.ascending.imp_of_mem fun {d e} hd he hlt heq => ?_)
      -- two markings with one number would both be stored under it
      have hd' := (h.index_iff d.1 d.2).1 (Table.get?_eq_some_iff.2 hd)
      have he' := (h.index_iff e.1 e.2).1 (Table.get?_eq_some_iff.2 he)
      rw [heq] at hd'
      have hkeys : compare d.1 e.1 = .eq :=
        Table.compare_eq_iff.2 (Option.some.inj (hd'.symm.trans he'))
      rw [hkeys] at hlt
      cases hlt
    · exact g.nodes_ascending.imp Nat.ne_of_lt
    · rw [mem_nodes, List.mem_map]
      constructor
      · rintro ⟨e, he, rfl⟩
        exact ⟨e.1, (h.index_iff _ _).1 (Table.get?_eq_some_iff.2 he)⟩
      · rintro ⟨m, hm⟩
        exact ⟨_, Table.get?_eq_some_iff.1 ((h.index_iff m s).2 hm), rfl⟩
  rw [← hperm.length_eq, List.length_map, Table.size]

lemma Linked.edgeCount_eq (h : g.Linked) :
    g.edgeCount = sumOver (fun s => (g.successorsOf s).length) g.nodes := by
  -- the edges are counted over all numbers; a state that was removed has none
  have hdegrees : g.forward.items.map Neighbours.degree =
      (List.range g.markings.next).map fun s => (g.successorsOf s).length := by
    rw [← h.forward_next]
    refine List.ext_getElem (by simp [Numbered.next]) fun i hi _ => ?_
    rw [List.length_map] at hi
    have hget : g.forward.get? i = some g.forward.items[i] := List.getElem?_eq_getElem hi
    simp [successorsOf, neighbours, hget, Neighbours.length_toList]
  have hcount : g.edgeCount =
      sumOver (fun s => (g.successorsOf s).length) (List.range g.markings.next) := by
    have hsums := congrArg (sumOver id) hdegrees
    rwa [sumOver_map, sumOver_map] at hsums
  rw [hcount, nodes_eq]
  refine (sumOver_filter fun s _ hs => ?_).symm
  rw [List.length_eq_zero_iff, List.eq_nil_iff_forall_not_mem]
  intro e he
  obtain ⟨m, hm⟩ := (h.ends s e.1 e.2 he).1
  rw [hm] at hs
  cases hs

lemma Linked.length_arrows (h : g.Linked) : g.arrows.length = g.edgeCount := by
  rw [h.edgeCount_eq, arrows, length_flatMap]
  refine sumOver_congr fun s hs => List.filterMap_length_eq_length.2 fun e he => ?_
  -- both ends are nodes, so that the edge is not passed over
  have hindex : ∀ {t}, g.Live t → ∃ i, g.nodes.idxOf? t = some i := fun {t} ht =>
    Option.isSome_iff_exists.1 (List.isSome_idxOf?.2 (mem_nodes.2 ht))
  obtain ⟨i, hi⟩ := hindex (mem_nodes.1 hs)
  obtain ⟨j, hj⟩ := hindex (h.ends s e.1 e.2 he).2
  simp only [hi, hj]
  rfl

end Counts

theorem Reached.consistent (h : Reached net config g) : g.Consistent config [] :=
  (Consistent.kept config).reached (.ofNet net config) h

/-- How the collections of a graph agree. A state is live if its marking is stored. -/
structure Agreeing (config : ExploreConfig) (g : StateGraph) : Prop where
  stored_iff : ∀ s < g.markings.next, (∃ m, g.marking? s = some m) ↔ s ∉ g.removed.keys
  removed_lt : ∀ s ∈ g.removed.keys, s < g.markings.next
  stateOf_iff : ∀ m s, g.stateOf? m = some s ↔ g.marking? s = some m
  todo_ascending : g.todo.Pairwise (· < ·)
  disjoint : ∀ s ∈ g.done.keys, s ∉ g.todo
  live_iff : ∀ s, (∃ m, g.marking? s = some m) ↔ s ∈ g.done.keys ∨ s ∈ g.todo
  done_below : ∀ d ∈ g.done.keys, ∀ s ∈ g.todo, d < s
  size : g.size = g.states.length
  edge_iff : ∀ i j f, (j, f) ∈ g.successorsOf i ↔ (i, f) ∈ g.predecessorsOf j
  edge_live : ∀ i j f, (j, f) ∈ g.successorsOf i →
    (∃ m, g.marking? i = some m) ∧ ∃ m, g.marking? j = some m
  pending : ∀ s ∈ g.todo, g.successorsOf s = []
  deadlocks : ∀ s ∈ g.deadlocks.keys, s ∈ g.done.keys
  limited : ∀ limit, config.stateLimit = some limit → g.size ≤ max limit 1
  nodes : g.nodes.length = g.size
  arrows : g.arrows.length = g.edgeCount

theorem reached_agreeing (h : Reached net config g) : g.Agreeing config := by
  obtain ⟨hl, hs, -, hb⟩ := h.consistent
  have hsize := hs.size_eq
  exact
    { stored_iff := fun s hlt => by
        obtain ⟨o, ho⟩ : ∃ o, g.markings.get? s = some o := ⟨_, List.getElem?_eq_getElem hlt⟩
        rw [hl.removed_iff, marking?, ho]
        cases o <;> simp
      removed_lt := fun s hr => (List.getElem?_eq_some_iff.1 ((hl.removed_iff s).1 hr)).1
      stateOf_iff := hl.index_iff
      todo_ascending := hs.ascending
      disjoint := fun s hd ht => Nat.lt_irrefl s (hs.below s hd s ht)
      live_iff := hs.live_iff
      done_below := hs.below
      size := hsize.trans g.length_nodes
      edge_iff := hl.mirror
      edge_live := hl.ends
      pending := fun s ht => List.eq_nil_iff_forall_not_mem.2 (hs.idle s ht)
      deadlocks := fun s hd => (hs.deadlocks s hd).resolve_right List.not_mem_nil
      limited := fun limit hc => by
        rw [hsize, ← hl.index_size]
        exact hb limit hc
      nodes := hsize.symm
      arrows := hl.length_arrows }

def returning : Net :=
  .ofNodes "returning"
    [⟨"p", Bag.ofList [.int 1], .any, ["u"], ["t"]⟩, ⟨"q", Bag.empty, .any, ["t"], ["u"]⟩]
    [⟨"t", .truth, [("p", .var "x")], [("q", .var "x")]⟩,
      ⟨"u", .truth, [("q", .var "x")], [("p", .var "x")]⟩] Table.empty

def rediscovered : StateGraph :=
  after Operation.build.run (after (Operation.remove 0).run
    (after (Operation.explore 1).run (ofNet returning ⟨some 2, false⟩)))

theorem reached_agreeing_rediscovered : rediscovered.removed.keys = [0] ∧
    rediscovered.done.keys = [1, 2] ∧ rediscovered.Agreeing ⟨some 2, false⟩ ∧
    rediscovered.size ≤ 2 ∧ rediscovered.arrows.length = rediscovered.edgeCount := by
  have hr : Reached returning ⟨some 2, false⟩ rediscovered :=
    .next .build (.next (.remove 0) (.next (.explore 1) .start))
  have h := reached_agreeing hr
  exact ⟨rfl, rfl, h, h.limited 2 rfl, h.arrows⟩

end StateGraph

end ColouredPetri
