import ColouredPetri.Proofs.StateGraph.Collections
import ColouredPetri.Proofs.StateGraph.Operations

namespace ColouredPetri

namespace StateGraph

structure Scheduled (busy : List Nat) (g : StateGraph) : Prop where
  ascending : (busy ++ g.todo).Pairwise (· < ·)
  live_iff : ∀ s, g.Live s ↔ s ∈ g.done.keys ∨ s ∈ busy ++ g.todo
  below : ∀ d ∈ g.done.keys, ∀ s ∈ busy ++ g.todo, d < s
  idle : ∀ s ∈ g.todo, ∀ e, e ∉ g.successorsOf s
  deadlocks : ∀ s ∈ g.deadlocks.keys, s ∈ g.done.keys ∨ s ∈ busy

def withinLimit (config : ExploreConfig) (states : Nat) : Prop :=
  ∀ limit, config.stateLimit = some limit → states ≤ max limit 1

structure Consistent (config : ExploreConfig) (busy : List Nat) (g : StateGraph) : Prop where
  linked : g.Linked
  scheduled : g.Scheduled busy
  configured : g.config = config
  bounded : withinLimit config g.index.size

variable {net : Net} {config : ExploreConfig} {busy rest : List Nat} {g g' : StateGraph}
variable {m : Marking} {s t : Nat} {f : Firing}

lemma pairwise_snoc {l : List Nat} (h : l.Pairwise (· < ·)) (hs : ∀ t ∈ l, t < s) :
    (l ++ [s]).Pairwise (· < ·) :=
  List.pairwise_append.2 ⟨h, List.pairwise_singleton _ s, fun t ht _ hu =>
    List.mem_singleton.1 hu ▸ hs t ht⟩

namespace Scheduled

lemma start (h : g.Scheduled []) (hq : g.todo = s :: rest) :
    Scheduled [s] { g with todo := rest } where
  ascending := by
    have := h.ascending
    rwa [hq] at this
  live_iff t := (h.live_iff t).trans (by rw [hq]; rfl)
  below d hd t ht := h.below d hd t (by rw [hq]; exact ht)
  idle t ht := h.idle t (by rw [hq]; exact List.mem_cons_of_mem s ht)
  deadlocks t ht := .inl ((h.deadlocks t ht).resolve_right List.not_mem_nil)

lemma finish (h : g.Scheduled [s]) : Scheduled [] { g with done := KeySet.add g.done s } where
  ascending := (List.pairwise_cons.1 h.ascending).2
  live_iff t := by
    rw [KeySet.mem_keys_add, or_assoc, List.nil_append, ← List.mem_cons]
    exact h.live_iff t
  below d hd t ht := by
    rcases KeySet.mem_keys_add.1 hd with hd | rfl
    · exact h.below d hd t (List.mem_cons_of_mem s ht)
    · exact (List.pairwise_cons.1 h.ascending).1 t ht
  idle := h.idle
  deadlocks t ht := by
    refine .inl (KeySet.mem_keys_add.2 ?_)
    exact (h.deadlocks t ht).imp_right List.mem_singleton.1

lemma mem_done (h : g.Scheduled []) (hs : g.Live s) (hstop : ∀ t ∈ g.todo.head?, s < t) :
    s ∈ g.done.keys := by
  -- what waits comes in the order of the numbers, so that all below its head is done
  refine ((h.live_iff s).1 hs).resolve_right fun hwaits => ?_
  have hascending := h.ascending
  rw [List.nil_append] at hwaits hascending
  cases hq : g.todo with
  | nil =>
    rw [hq] at hwaits
    cases hwaits
  | cons t rest =>
    have hlt : s < t := hstop t (by rw [hq]; rfl)
    rw [hq] at hwaits hascending
    rcases List.mem_cons.1 hwaits with rfl | hwaits
    · exact Nat.lt_irrefl s hlt
    · exact Nat.lt_asymm hlt ((List.pairwise_cons.1 hascending).1 s hwaits)

lemma deadlock (h : g.Scheduled [s]) :
    Scheduled [s] { g with deadlocks := KeySet.add g.deadlocks s } where
  ascending := h.ascending
  live_iff := h.live_iff
  below := h.below
  idle := h.idle
  deadlocks t ht := by
    rcases KeySet.mem_keys_add.1 ht with ht | rfl
    · exact h.deadlocks t ht
    · exact .inr List.mem_cons_self

lemma addState (h : g.Scheduled busy) (hl : g.Linked) : Scheduled busy (g.addState m) := by
  -- the new number is above all that are in use
  have hnew : ∀ {t}, g.Live t → t < g.markings.next := lt_of_live
  have hmem : ∀ {t}, t ∈ busy ++ (g.addState m).todo ↔
      t ∈ busy ++ g.todo ∨ t = g.markings.next := fun {t} => by
    simp [StateGraph.addState, or_assoc]
  constructor
  · change (busy ++ (g.todo ++ [g.markings.next])).Pairwise (· < ·)
    rw [← List.append_assoc]
    exact pairwise_snoc h.ascending fun t ht => hnew ((h.live_iff t).2 (.inr ht))
  · intro t
    rw [live_addState, h.live_iff, hmem, or_assoc]
    rfl
  · intro d hd t ht
    rcases hmem.1 ht with ht | rfl
    · exact h.below d hd t ht
    · exact hnew ((h.live_iff d).2 (.inl hd))
  · intro t ht e he
    have he : e ∈ g.successorsOf t := mem_successorsOf_addState.1 he
    rcases List.mem_append.1 ht with ht | ht
    · exact h.idle t ht e he
    · rw [List.mem_singleton.1 ht] at he
      exact Nat.lt_irrefl _ (hnew (hl.ends _ e.1 e.2 he).1)
  · exact h.deadlocks

lemma addEdge (h : g.Scheduled [s]) (hs : s < g.forward.next) :
    Scheduled [s] (g.addEdge s t f) where
  ascending := h.ascending
  live_iff := h.live_iff
  below := h.below
  idle t' ht e he := by
    rcases (mem_successorsOf_addEdge (j := e.1) (f := e.2) hs).1 he with he | ⟨rfl, -⟩
    · exact h.idle t' ht e he
    · exact Nat.lt_irrefl _ ((List.pairwise_cons.1 h.ascending).1 t' ht)
  deadlocks := h.deadlocks

lemma forget (h : g.Scheduled []) (hl : g.Linked) : Scheduled [] (g.forget s m) := by
  have hdone : ∀ {t}, t ∈ (g.forget s m).done.keys ↔ t ∈ g.done.keys ∧ t ≠ s :=
    Table.mem_keys_erase
  have htodo : ∀ {t}, t ∈ (g.forget s m).todo ↔ t ∈ g.todo ∧ t ≠ s := fun {t} => by
    simp [StateGraph.forget, dropEdges]
  constructor
  · exact List.Pairwise.filter _ h.ascending
  · intro t
    rw [live_forget, h.live_iff, hdone, List.nil_append, List.nil_append, htodo, or_and_right]
  · exact fun d hd t ht => h.below d (hdone.1 hd).1 t (htodo.1 ht).1
  · exact fun t ht e he => h.idle t (htodo.1 ht).1 e ((mem_successorsOf_forget hl).1 he).1
  · intro t ht
    obtain ⟨ht, hne⟩ := Table.mem_keys_erase.1 ht
    exact .inl (hdone.2 ⟨(h.deadlocks t ht).resolve_right List.not_mem_nil, hne⟩)

end Scheduled

namespace Consistent

lemma moved (h : g.Consistent config busy) (hm : Moved g g') : g'.Consistent config busy := by
  obtain ⟨_, _, rfl⟩ := hm
  obtain ⟨hl, hs, hc, hb⟩ := h
  exact ⟨hl.of_eq rfl rfl rfl rfl rfl,
    ⟨hs.ascending, hs.live_iff, hs.below, hs.idle, hs.deadlocks⟩, hc, hb⟩

lemma start (h : g.Consistent config []) (hq : g.todo = s :: rest) :
    Consistent config [s] { g with todo := rest } :=
  ⟨h.linked.of_eq rfl rfl rfl rfl rfl, h.scheduled.start hq, h.configured, h.bounded⟩

lemma busy_live (h : g.Consistent config [s]) : g.Live s :=
  (h.scheduled.live_iff s).2 (.inr List.mem_cons_self)

lemma addEdge (h : g.Consistent config [s]) (ht : g.Live t) :
    (g.addEdge s t f).Consistent config [s] where
  linked := h.linked.addEdge h.busy_live ht
  scheduled := h.scheduled.addEdge (h.linked.forward_next ▸ lt_of_live h.busy_live)
  configured := h.configured
  bounded := h.bounded

lemma addState (h : g.Consistent config busy) (hm : g.stateOf? m = none)
    (hlimit : g.limitReached = false) : (g.addState m).Consistent config busy where
  linked := h.linked.addState hm
  scheduled := h.scheduled.addState h.linked
  configured := h.configured
  bounded limit hl := by
    have hle : (g.index.insert m g.markings.next).size ≤ g.index.size + 1 := Table.size_insert_le ..
    rw [limitReached, h.configured, hl] at hlimit
    have hlt : g.index.size < limit := by simpa using hlimit
    change (g.index.insert m g.markings.next).size ≤ max limit 1
    omega

lemma record (h : g.Consistent config [s]) (r : Firing × Marking) :
    (record s g r).Consistent config [s] := by
  obtain ⟨f, m⟩ := r
  rw [StateGraph.record]
  cases ht : g.stateOf? m with
  | some target => exact h.addEdge ⟨m, (h.linked.index_iff m target).1 ht⟩
  | none =>
    simp only
    split
    · obtain ⟨hl, hs, hc, hb⟩ := h
      exact ⟨hl.of_eq rfl rfl rfl rfl rfl,
        ⟨hs.ascending, hs.live_iff, hs.below, hs.idle, hs.deadlocks⟩, hc, hb⟩
    · next hlimit =>
      have hnew := h.addState ht (Bool.eq_false_iff.2 hlimit)
      exact hnew.addEdge (live_addState.2 (.inr rfl))

lemma foldl_record (h : g.Consistent config [s]) (found : List (Firing × Marking)) :
    (found.foldl (StateGraph.record s) g).Consistent config [s] := by
  induction found generalizing g with
  | nil => exact h
  | cons r found ih => exact ih (h.record r)

lemma recordAll (h : g.Consistent config [s]) (found : List (Firing × Marking)) :
    (recordAll s found g).Consistent config [] := by
  have hnoted : Consistent config [s]
      (if found.isEmpty then { g with deadlocks := KeySet.add g.deadlocks s } else g) := by
    split
    · exact ⟨h.linked.of_eq rfl rfl rfl rfl rfl, h.scheduled.deadlock, h.configured, h.bounded⟩
    · exact h
  obtain ⟨hl, hs, hc, hb⟩ := hnoted.foldl_record found
  exact ⟨hl.of_eq rfl rfl rfl rfl rfl, hs.finish, hc, hb⟩

lemma forget (h : g.Consistent config []) (hm : g.marking? s = some m) :
    (g.forget s m).Consistent config [] where
  linked := h.linked.forget hm
  scheduled := h.scheduled.forget h.linked
  configured := h.configured
  bounded limit hl := by
    have hle : (g.index.erase m).size ≤ g.index.size := Table.size_erase_le ..
    exact Nat.le_trans hle (h.bounded limit hl)

lemma ofNet (net : Net) (config : ExploreConfig) : (ofNet net config).Consistent config [] where
  linked := (Linked.blank net config).addState rfl
  scheduled := by
    refine Scheduled.addState ?_ (Linked.blank net config)
    refine ⟨.nil, fun s => ⟨?_, ?_⟩, nofun, nofun, nofun⟩
    · rintro ⟨m, hm⟩
      simp [blank, marking?, Numbered.get?, Numbered.empty] at hm
    · rintro (h | h) <;> cases h
  configured := rfl
  bounded limit _ := Nat.le_max_right limit 1

lemma kept (config : ExploreConfig) : Kept fun g => g.Consistent config [] where
  goto s g h := h.moved (moved_goto s g (.refl g))
  compute {g s rest} hq h := by
    rcases after_compute hq with hm | ⟨found, g', hm, hg'⟩
    · exact h.moved hm
    · rw [hg']
      exact ((h.start hq).moved hm).recordAll found
  remove s g h := by
    rcases after_remove s g with hg | ⟨m, hm, hg⟩ <;> rw [hg]
    · exact h
    · have hforget := h.forget (known_eq_ok_iff.1 hm)
      split
      · exact hforget.moved (moved_goto s _ (.refl _))
      · exact hforget

end Consistent

end StateGraph

end ColouredPetri
