import ColouredPetri.Proofs.TableKeys
import ColouredPetri.StateGraph.Explore
import Mathlib.Data.List.Nodup

namespace ColouredPetri

section Sums

variable {α β : Type} {l : List α}

lemma sumOver_congr {f g : α → Nat} (h : ∀ a ∈ l, f a = g a) : sumOver f l = sumOver g l := by
  induction l with
  | nil => rfl
  | cons a l ih =>
    obtain ⟨ha, hl⟩ := List.forall_mem_cons.1 h
    rw [sumOver, sumOver, ha, ih hl]

lemma sumOver_map (f : β → Nat) (g : α → β) (l : List α) :
    sumOver f (l.map g) = sumOver (fun a => f (g a)) l := by
  induction l with
  | nil => rfl
  | cons a l ih => rw [List.map_cons, sumOver, sumOver, ih]

lemma sumOver_filter {f : α → Nat} {p : α → Bool} (h : ∀ a ∈ l, p a = false → f a = 0) :
    sumOver f (l.filter p) = sumOver f l := by
  induction l with
  | nil => rfl
  | cons a l ih =>
    obtain ⟨ha, hl⟩ := List.forall_mem_cons.1 h
    cases hp : p a with
    | true => rw [List.filter_cons_of_pos hp, sumOver, sumOver, ih hl]
    | false => rw [List.filter_cons_of_neg (by simp [hp]), sumOver, ih hl, ha hp, Nat.zero_add]

lemma length_flatMap (f : α → List β) (l : List α) :
    (l.flatMap f).length = sumOver (fun a => (f a).length) l := by
  induction l with
  | nil => rfl
  | cons a l ih => rw [List.flatMap_cons, List.length_append, sumOver, ih]

end Sums

namespace Neighbours

variable {n : Neighbours} {s j : Nat} {f l : Firing}

lemma mem_toList : (j, f) ∈ n.toList ↔ ∃ labels, n.get? j = some labels ∧ f ∈ labels.keys := by
  simp only [toList, List.mem_flatMap, List.mem_map, Table.get?_eq_some_iff]
  constructor
  · rintro ⟨e, he, _, hf, hpair⟩
    cases hpair
    exact ⟨e.2, he, hf⟩
  · rintro ⟨labels, he, hf⟩
    exact ⟨_, he, f, hf, rfl⟩

lemma mem_keys_of_mem (h : (j, f) ∈ n.toList) : j ∈ n.keys := by
  obtain ⟨labels, hl, -⟩ := mem_toList.1 h
  exact Table.mem_keys_iff.2 ⟨labels, hl⟩

lemma mem_addLabel : (j, f) ∈ (n.addLabel s l).toList ↔ (j, f) ∈ n.toList ∨ j = s ∧ f = l := by
  simp only [mem_toList, addLabel]
  by_cases hj : j = s
  · subst hj
    simp only [Table.get?_insert_self, Option.some.injEq, exists_eq_left', KeySet.mem_keys_add,
      true_and]
    cases n.get? j <;> simp [Table.keys]
  · simp only [Table.get?_insert_of_ne hj, hj, false_and, or_false]

lemma mem_erase : (j, f) ∈ toList (n.erase s) ↔ (j, f) ∈ n.toList ∧ j ≠ s := by
  simp only [mem_toList]
  by_cases hj : j = s
  · subst hj
    simp [Table.get?_erase_self]
  · simp [Table.get?_erase_of_ne hj, hj]

lemma length_toList (n : Neighbours) : n.toList.length = n.degree := by
  rw [toList, degree, length_flatMap, Table.values, sumOver_map]
  refine sumOver_congr fun e _ => ?_
  rw [List.length_map, Table.size_eq_length_keys]

end Neighbours

namespace StateGraph

section Sides

variable {sides : Numbered Neighbours} {i j k s : Nat} {f l : Firing}

lemma mem_neighbours_push : (j, f) ∈ (neighbours (sides.push Table.empty) i).toList ↔
    (j, f) ∈ (neighbours sides i).toList := by
  rw [neighbours, neighbours, Numbered.get?_push]
  split
  · next hi =>
    have hnone : sides.get? i = none := List.getElem?_eq_none (Nat.le_of_eq hi.symm)
    rw [hnone]
    rfl
  · rfl

lemma mem_neighbours_addLabel (hs : s < sides.next) :
    (j, f) ∈ (neighbours (sides.modify s fun n => n.addLabel k l) i).toList ↔
      (j, f) ∈ (neighbours sides i).toList ∨ i = s ∧ j = k ∧ f = l := by
  rw [neighbours, neighbours, Numbered.get?_modify]
  by_cases hi : i = s
  · subst hi
    have hget : sides.get? i = some sides.items[i] := List.getElem?_eq_getElem hs
    simp only [hget, if_true, Option.map_some, Option.getD_some, Neighbours.mem_addLabel, true_and]
  · simp [hi]

lemma mem_neighbours_clear : (j, f) ∈ (neighbours (sides.set s Table.empty) i).toList ↔
    (j, f) ∈ (neighbours sides i).toList ∧ i ≠ s := by
  rw [neighbours, neighbours, Numbered.get?_set]
  by_cases hi : i = s
  · subst hi
    cases sides.get? i <;> simp [Neighbours.toList]
  · simp [hi]

lemma mem_neighbours_erase :
    (j, f) ∈ (neighbours (sides.modify k fun n => n.erase s) i).toList ↔
      (j, f) ∈ (neighbours sides i).toList ∧ (i = k → j ≠ s) := by
  rw [neighbours, neighbours, Numbered.get?_modify]
  by_cases hi : i = k
  · subst hi
    cases sides.get? i with
    | none => simp [Neighbours.toList]
    | some n => simp [Neighbours.mem_erase]
  · simp [hi]

lemma mem_neighbours_unlink {others : List Nat} :
    (j, f) ∈ (neighbours (unlink s others sides) i).toList ↔
      (j, f) ∈ (neighbours sides i).toList ∧ (i ∈ others → j ≠ s) := by
  induction others generalizing sides with
  | nil => simp [unlink]
  | cons k others ih =>
    rw [unlink, List.foldl_cons, ← unlink, ih, mem_neighbours_erase, and_assoc]
    refine and_congr_right fun _ => ?_
    rw [← or_imp, List.mem_cons]

lemma next_unlink (s : Nat) (others : List Nat) (sides : Numbered Neighbours) :
    (unlink s others sides).next = sides.next := by
  induction others generalizing sides with
  | nil => rfl
  | cons k others ih => rw [unlink, List.foldl_cons, ← unlink, ih, Numbered.next_modify]

end Sides

def Live (g : StateGraph) (s : Nat) : Prop := ∃ m, g.marking? s = some m

structure Linked (g : StateGraph) : Prop where
  forward_next : g.forward.next = g.markings.next
  backward_next : g.backward.next = g.markings.next
  index_iff : ∀ m s, g.index.get? m = some s ↔ g.marking? s = some m
  removed_iff : ∀ s, s ∈ g.removed.keys ↔ g.markings.get? s = some none
  mirror : ∀ i j f, (j, f) ∈ g.successorsOf i ↔ (i, f) ∈ g.predecessorsOf j
  ends : ∀ i j f, (j, f) ∈ g.successorsOf i → g.Live i ∧ g.Live j

variable {g g' : StateGraph} {m n : Marking} {i j s t : Nat} {f l : Firing}

lemma known_eq_ok_iff : g.known s = .ok m ↔ g.marking? s = some m := by
  rw [known]
  cases g.marking? s with
  | none => exact ⟨fun h => (by cases h), fun h => by cases h⟩
  | some n => exact ⟨fun h => by cases h; rfl, fun h => by cases h; rfl⟩

lemma Linked.of_eq (h : g.Linked) (hm : g'.markings = g.markings) (hi : g'.index = g.index)
    (hf : g'.forward = g.forward) (hb : g'.backward = g.backward)
    (hr : g'.removed = g.removed) : g'.Linked := by
  obtain ⟨_, markings, index, forward, backward, _, _, _, removed, _, _, _⟩ := g'
  cases hm
  cases hi
  cases hf
  cases hb
  cases hr
  exact ⟨h.forward_next, h.backward_next, h.index_iff, h.removed_iff, h.mirror, h.ends⟩

lemma lt_of_live (h : g.Live s) : s < g.markings.next := by
  obtain ⟨m, hm⟩ := h
  have hs : g.markings.get? s = some (some m) := Option.join_eq_some_iff.1 hm
  exact (List.getElem?_eq_some_iff.1 hs).1

lemma Linked.not_removed (h : g.Linked) (hs : g.Live s) : ¬ g.isRemoved s = true := by
  obtain ⟨m, hm⟩ := hs
  rw [isRemoved, Table.contains_iff, h.removed_iff]
  intro hr
  rw [marking?, hr] at hm
  cases hm

lemma marking?_addState : (g.addState m).marking? s =
    if s = g.markings.next then some m else g.marking? s := by
  rw [marking?, addState, Numbered.get?_push]
  split <;> rfl

lemma live_addState : (g.addState m).Live s ↔ g.Live s ∨ s = g.markings.next := by
  simp only [Live, marking?_addState]
  by_cases hs : s = g.markings.next <;> simp [hs]

lemma mem_successorsOf_addState : (j, f) ∈ (g.addState m).successorsOf i ↔
    (j, f) ∈ g.successorsOf i :=
  mem_neighbours_push

lemma mem_predecessorsOf_addState : (j, f) ∈ (g.addState m).predecessorsOf i ↔
    (j, f) ∈ g.predecessorsOf i :=
  mem_neighbours_push

lemma mem_successorsOf_addEdge (hs : s < g.forward.next) :
    (j, f) ∈ (g.addEdge s t l).successorsOf i ↔
      (j, f) ∈ g.successorsOf i ∨ i = s ∧ j = t ∧ f = l :=
  mem_neighbours_addLabel hs

lemma mem_predecessorsOf_addEdge (ht : t < g.backward.next) :
    (i, f) ∈ (g.addEdge s t l).predecessorsOf j ↔
      (i, f) ∈ g.predecessorsOf j ∨ j = t ∧ i = s ∧ f = l :=
  mem_neighbours_addLabel ht

namespace Linked

lemma blank (net : Net) (config : ExploreConfig) : Linked (StateGraph.blank net config) := by
  constructor <;> simp [StateGraph.blank, marking?, Numbered.get?, Numbered.next, Numbered.empty,
    successorsOf, predecessorsOf, neighbours, Neighbours.toList, Table.keys]

lemma addState (h : g.Linked) (hm : g.index.get? m = none) : (g.addState m).Linked where
  forward_next := by simp [StateGraph.addState, h.forward_next]
  backward_next := by simp [StateGraph.addState, h.backward_next]
  index_iff n s := by
    change (g.index.insert m g.markings.next).get? n = some s ↔ _
    rw [marking?_addState]
    by_cases hn : n = m
    · subst hn
      rw [Table.get?_insert_self]
      by_cases hs : s = g.markings.next
      · simp [hs]
      · simp [hs, Ne.symm hs, ← h.index_iff, hm]
    · rw [Table.get?_insert_of_ne hn, h.index_iff]
      by_cases hs : s = g.markings.next
      · -- the new number has no marking yet
        subst hs
        have hlt : ¬ g.Live g.markings.next := fun hl => Nat.lt_irrefl _ (lt_of_live hl)
        simp only [if_true, Option.some.injEq, Ne.symm hn, iff_false]
        exact fun hl => hlt ⟨n, hl⟩
      · rw [if_neg hs]
  removed_iff s := by
    change s ∈ g.removed.keys ↔ (g.markings.push (some m)).get? s = some none
    rw [h.removed_iff, Numbered.get?_push]
    by_cases hs : s = g.markings.next
    · subst hs
      have : g.markings.get? g.markings.next = none := List.getElem?_eq_none (Nat.le_refl _)
      simp [this]
    · rw [if_neg hs]
  mirror i j f := by
    rw [mem_successorsOf_addState, mem_predecessorsOf_addState]
    exact h.mirror i j f
  ends i j f he := by
    obtain ⟨hi, hj⟩ := h.ends i j f (mem_successorsOf_addState.1 he)
    exact ⟨live_addState.2 (.inl hi), live_addState.2 (.inl hj)⟩

lemma addEdge (h : g.Linked) (hs : g.Live s) (ht : g.Live t) : (g.addEdge s t l).Linked where
  forward_next := by simp [StateGraph.addEdge, h.forward_next]
  backward_next := by simp [StateGraph.addEdge, h.backward_next]
  index_iff := h.index_iff
  removed_iff := h.removed_iff
  mirror i j f := by
    have hs' : s < g.forward.next := h.forward_next ▸ lt_of_live hs
    have ht' : t < g.backward.next := h.backward_next ▸ lt_of_live ht
    rw [mem_successorsOf_addEdge hs', mem_predecessorsOf_addEdge ht', h.mirror]
    exact or_congr_right and_left_comm
  ends i j f he := by
    rcases (mem_successorsOf_addEdge (h.forward_next ▸ lt_of_live hs)).1 he with he | ⟨rfl, rfl, -⟩
    · exact h.ends i j f he
    · exact ⟨hs, ht⟩

end Linked

lemma marking?_forget : (g.forget s m).marking? t = if t = s then none else g.marking? t := by
  change ((g.markings.set s none).get? t).join = _
  rw [Numbered.get?_set]
  split
  · cases g.markings.get? s <;> rfl
  · rfl

lemma live_forget : (g.forget s m).Live t ↔ g.Live t ∧ t ≠ s := by
  simp only [Live, marking?_forget]
  by_cases ht : t = s <;> simp [ht]

lemma mem_successorsOf_forget (h : g.Linked) : (j, f) ∈ (g.forget s m).successorsOf i ↔
    (j, f) ∈ g.successorsOf i ∧ i ≠ s ∧ j ≠ s := by
  have hin : (j, f) ∈ g.successorsOf i → j = s → i ∈ (neighbours g.backward s).keys := by
    rintro he rfl
    exact Neighbours.mem_keys_of_mem ((h.mirror i j f).1 he)
  refine mem_neighbours_clear.trans ?_
  rw [mem_neighbours_unlink, and_assoc]
  constructor
  · rintro ⟨he, hj, hi⟩
    exact ⟨he, hi, fun hjs => hj (hin he hjs) hjs⟩
  · rintro ⟨he, hi, hj⟩
    exact ⟨he, fun _ => hj, hi⟩

lemma mem_predecessorsOf_forget (h : g.Linked) : (i, f) ∈ (g.forget s m).predecessorsOf j ↔
    (i, f) ∈ g.predecessorsOf j ∧ i ≠ s ∧ j ≠ s := by
  -- the loop at the state was taken out before its successors were listed
  have hout : (i, f) ∈ g.predecessorsOf j → j ≠ s → i = s →
      j ∈ (neighbours (unlink s (neighbours g.backward s).keys g.forward) s).keys := by
    rintro he hj rfl
    refine Neighbours.mem_keys_of_mem (f := f) (mem_neighbours_unlink.2 ⟨?_, fun _ => hj⟩)
    exact (h.mirror i j f).2 he
  refine mem_neighbours_unlink.trans ?_
  rw [mem_neighbours_clear, and_assoc]
  constructor
  · rintro ⟨he, hj, hi⟩
    exact ⟨he, fun his => hi (hout he hj his) his, hj⟩
  · rintro ⟨he, hi, hj⟩
    exact ⟨he, hj, fun _ => hi⟩

lemma Linked.forget (h : g.Linked) (hm : g.marking? s = some m) : (g.forget s m).Linked where
  forward_next := by
    change (Numbered.set _ _ _).next = (Numbered.set _ _ _).next
    rw [Numbered.next_set, next_unlink, Numbered.next_set, h.forward_next]
  backward_next := by
    change (unlink _ _ _).next = (Numbered.set _ _ _).next
    rw [next_unlink, Numbered.next_set, Numbered.next_set, h.backward_next]
  index_iff n t := by
    change (g.index.erase m).get? n = some t ↔ _
    rw [marking?_forget]
    by_cases hn : n = m
    · subst hn
      rw [Table.get?_erase_self]
      by_cases ht : t = s
      · simp [ht]
      · -- no other state has the marking of the one that is forgotten
        have hne : g.marking? t ≠ some n := fun hm' => ht <| Option.some.inj <|
          ((h.index_iff n t).2 hm').symm.trans ((h.index_iff n s).2 hm)
        simp [ht, hne]
    · rw [Table.get?_erase_of_ne hn, h.index_iff]
      by_cases ht : t = s
      · simp [ht, hm, Ne.symm hn]
      · rw [if_neg ht]
  removed_iff t := by
    change t ∈ (KeySet.add g.removed s).keys ↔ (g.markings.set s none).get? t = some none
    have hsome : g.markings.get? s = some (some m) := Option.join_eq_some_iff.1 hm
    rw [KeySet.mem_keys_add, h.removed_iff, Numbered.get?_set]
    by_cases ht : t = s <;> simp [ht, hsome]
  mirror i j f := by
    rw [mem_successorsOf_forget h, mem_predecessorsOf_forget h, h.mirror]
  ends i j f he := by
    obtain ⟨he, hi, hj⟩ := (mem_successorsOf_forget h).1 he
    obtain ⟨hli, hlj⟩ := h.ends i j f he
    exact ⟨live_forget.2 ⟨hli, hi⟩, live_forget.2 ⟨hlj, hj⟩⟩

end StateGraph

end ColouredPetri
