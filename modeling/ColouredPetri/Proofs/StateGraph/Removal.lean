import ColouredPetri.Proofs.StateGraph.Firings
import ColouredPetri.Proofs.StateGraph.Schedule

/-! Removal of states. A state is forgotten before the net leaves it, so that what is left of the
graph is the same whether the net finds another state or not. -/

namespace ColouredPetri

namespace StateGraph

variable {net : Net} {config : ExploreConfig} {g g' : StateGraph} {m : Marking} {s t : Nat}
variable {u : Unit} {e : Error}

structure Without (s : Nat) (m : Marking) (g g' : StateGraph) : Prop where
  removed : ∀ t, g'.isRemoved t = true ↔ g.isRemoved t = true ∨ t = s
  marking? : ∀ t, g'.marking? t = if t = s then none else g.marking? t
  stateOf? : ∀ n, g'.stateOf? n = if n = m then none else g.stateOf? n
  successorsOf : ∀ i j f, (j, f) ∈ g'.successorsOf i ↔ (j, f) ∈ g.successorsOf i ∧ i ≠ s ∧ j ≠ s
  predecessorsOf : ∀ i j f,
    (i, f) ∈ g'.predecessorsOf j ↔ (i, f) ∈ g.predecessorsOf j ∧ i ≠ s ∧ j ≠ s
  todo : g'.todo = g.todo.filter (· != s)
  done : g'.done.keys = g.done.keys.filter (· != s)
  deadlocks : g'.deadlocks.keys = g.deadlocks.keys.filter (· != s)
  next : g'.markings.next = g.markings.next
  truncated : g'.truncated = g.truncated
  config : g'.config = g.config

lemma without_forget (h : g.Linked) (m : Marking) : Without s m g (g.forget s m) where
  removed t := by
    rw [isRemoved, Table.contains_iff, isRemoved, Table.contains_iff]
    exact KeySet.mem_keys_add
  marking? t := marking?_forget
  stateOf? n := by
    by_cases hn : n = m
    · rw [if_pos hn, hn]
      exact Table.get?_erase_self
    · rw [if_neg hn]
      exact Table.get?_erase_of_ne hn
  successorsOf i j f := mem_successorsOf_forget h
  predecessorsOf i j f := mem_predecessorsOf_forget h
  todo := rfl
  done := Table.keys_erase_nat _ _
  deadlocks := Table.keys_erase_nat _ _
  next := Numbered.next_set _ _ _
  truncated := rfl
  config := rfl

lemma Without.moved {g₁ : StateGraph} (h : Without s m g g₁) (hm : Moved g₁ g') :
    Without s m g g' := by
  obtain ⟨_, _, rfl⟩ := hm
  exact ⟨h.removed, h.marking?, h.stateOf?, h.successorsOf, h.predecessorsOf, h.todo, h.done,
    h.deadlocks, h.next, h.truncated, h.config⟩

lemma without_remove (h : g.Linked) (hm : g.marking? s = some m) :
    Without s m g (after (remove s) g) := by
  rw [after_remove_of_known (known_eq_ok_iff.2 hm)]
  split
  · exact (without_forget h m).moved (moved_goto s _ (.refl _))
  · exact without_forget h m

def substitute (g : StateGraph) : Option Nat := (g.todo ++ g.done.keys).head?

lemma currentState_of_removed (hs : g.isRemoved g.current = true) : g.currentState =
    match g.substitute with
    | some t => .ok t
    | none => .error (.structural .noStates) := by
  rw [currentState, if_pos hs, substitute]
  cases g.todo with
  | cons t rest => rfl
  | nil => cases g.done.keys <;> rfl

lemma Scheduled.live_substitute (h : g.Scheduled []) (ht : g.substitute = some t) : g.Live t := by
  have hmem := List.mem_of_mem_head? ht
  exact (h.live_iff t).2 ((List.mem_append.1 hmem).symm)

lemma Scheduled.substitute_eq_none_iff (h : g.Scheduled []) :
    g.substitute = none ↔ ∀ t, ¬ g.Live t := by
  rw [substitute, List.head?_eq_none_iff, List.eq_nil_iff_forall_not_mem]
  refine forall_congr' fun t => not_congr ?_
  rw [h.live_iff, List.mem_append, or_comm]
  rfl

variable (h : net.WellFormed) (hc : g.Consistent config []) (hp : net.Remarked g.net)
  (hs : g.isRemoved g.current = true)

include hc hs

lemma leave_cases : (g.substitute = none ∧ goto g.current g = .error (.structural .noStates) g) ∨
    ∃ t n, g.substitute = some t ∧ g.marking? t = some n ∧
      goto g.current g = editNet (Net.setMarking n) { g with current := t } := by
  have hland : landing g.current g = g.currentState := if_pos hs
  rw [currentState_of_removed hs] at hland
  cases ht : g.substitute with
  | none =>
    rw [ht] at hland
    exact .inl ⟨rfl, bind_of_error (x := look (landing g.current)) _
      (look_eq_error_iff.2 ⟨hland, rfl⟩)⟩
  | some t =>
    rw [ht] at hland
    obtain ⟨n, hn⟩ := hc.scheduled.live_substitute ht
    have hne : g.current ≠ t := fun heq =>
      hc.linked.not_removed (s := g.current) (heq ▸ ⟨n, hn⟩) hs
    refine .inr ⟨t, n, rfl, hn, ?_⟩
    rw [goto_eq hland (known_eq_ok_iff.2 hn), if_pos hne]

include h hp

lemma leave_eq_ok_iff : goto g.current g = .ok u g' ↔
    ∃ t n, g.substitute = some t ∧ g.marking? t = some n ∧ net.Accepts n ∧
      g' = { g with current := t, net := net.restore n } := by
  rcases leave_cases hc hs with ⟨hnone, hrun⟩ | ⟨t, n, ht, hn, hrun⟩
  · rw [hrun, hnone]
    exact ⟨fun h => (by cases h), fun ⟨_, _, h, _⟩ => by cases h⟩
  · rw [hrun, editNet_ok_iff (g := { g with current := t }) h hp]
    constructor
    · rintro ⟨ha, hg⟩
      exact ⟨t, n, ht, hn, ha, hg⟩
    · rintro ⟨t', n', ht', hn', ha, hg⟩
      cases ht.symm.trans ht'
      cases hn.symm.trans hn'
      exact ⟨ha, hg⟩

lemma leave_error (he : goto g.current g = .error e g') :
    g.substitute = none ∧ e = .structural .noStates ∨
      ∃ t n, g.substitute = some t ∧ g.marking? t = some n ∧ net.Refuses n e := by
  rcases leave_cases hc hs with ⟨hnone, hrun⟩ | ⟨t, n, ht, hn, hrun⟩
  · cases hrun.symm.trans he
    exact .inl ⟨hnone, rfl⟩
  · rw [hrun] at he
    exact .inr ⟨t, n, ht, hn, (editNet_error (g := { g with current := t }) h hp he).1⟩

end StateGraph

end ColouredPetri
