import ColouredPetri.Proofs.Nets.Merging
import ColouredPetri.Proofs.Nets.Rollback

namespace ColouredPetri

namespace Net

variable {net : Net}

def AtomicAt {α : Type} (net : Net) (act : Edit α) : Prop :=
  ∀ e net', act net = .error e net' → net' = net

lemma atomicAt_removePlace (h : net.WellFormed) (name : String) :
    net.AtomicAt (removePlace name) := by
  intro e net' hs
  obtain hl | ⟨p, net₁, hl, -⟩ := bind_eq_error.1 hs
  · exact (look_eq_error_iff.1 hl).2
  · obtain ⟨hfind, rfl⟩ := look_eq_ok_iff.1 hl
    obtain ⟨hp, rfl⟩ := h.keyed.mem_of_place? (place_eq_ok_iff.1 hfind)
    obtain ⟨q, net₂, hok⟩ := removePlace_succeeds h hp
    rw [hok] at hs
    cases hs

lemma atomicAt_removeTransition (h : net.WellFormed) (name : String) :
    net.AtomicAt (removeTransition name) := by
  intro e net' hs
  obtain hl | ⟨t, net₁, hl, -⟩ := bind_eq_error.1 hs
  · exact (look_eq_error_iff.1 hl).2
  · obtain ⟨hfind, rfl⟩ := look_eq_ok_iff.1 hl
    obtain ⟨ht, rfl⟩ := h.keyed.mem_of_transition? (transition_eq_ok_iff.1 hfind)
    obtain ⟨u, hok⟩ := removeTransition_eq h ht
    rw [hok] at hs
    cases hs

lemma atomicAt_addTransition (h : net.WellFormed) (t : Transition) :
    net.AtomicAt (addTransition t) := by
  intro e net' hs
  rw [addTransition_eq h] at hs
  split at hs <;> cases hs
  rfl

lemma failure_addTransition (h : net.WellFormed) (t : Transition) :
    failure (addTransition t) net = failure (addUnprotected t) net := by
  rw [failure, failure, addTransition_eq h]
  cases addUnprotected t net <;> rfl

section Merges

variable {target : String} {sources : List String}

def Mergeable (net : Net) (known : String → Bool) (target : String) (sources : List String) : Prop :=
  sources ≠ [] ∧ (∀ n ∈ sources, known n = true) ∧ net.hasNode target = false

/-- An action that succeeds under the condition, and fails without it before any change. -/
def SucceedsIff (net : Net) (condition : Prop) (act : Edit Unit) : Prop :=
  (condition ∧ ∃ net', act net = .ok () net') ∨ (¬ condition ∧ ∃ e, act net = .error e net)

lemma place_ok_iff {n : String} : (∃ p, net.place n = .ok p) ↔ net.hasPlace n = true := by
  simp only [place_eq_ok_iff, hasPlace, Option.isSome_iff_exists]

lemma transition_ok_iff {n : String} :
    (∃ t, net.transition n = .ok t) ↔ net.hasTransition n = true := by
  simp only [transition_eq_ok_iff, hasTransition, Option.isSome_iff_exists]

lemma mapM_place_eq_ok (h : ∀ n ∈ sources, net.hasPlace n = true) :
    ∃ places, sources.mapM net.place = .ok places :=
  exists_mapM_eq_ok fun n hn => place_ok_iff.2 (h n hn)

lemma mapM_transition_eq_ok (h : ∀ n ∈ sources, net.hasTransition n = true) :
    ∃ ts, sources.mapM net.transition = .ok ts :=
  exists_mapM_eq_ok fun n hn => transition_ok_iff.2 (h n hn)

lemma ensureFresh_taken {n : String} (h : net.hasNode n = true) :
    ∃ e, net.ensureFresh n = .error e := by
  rw [hasNode, Bool.or_eq_true] at h
  rw [ensureFresh]
  split
  · exact ⟨_, rfl⟩
  · next hp => exact ⟨_, if_pos (h.resolve_left hp)⟩

lemma addPlace_taken {p : Place} (h : net.hasNode p.name = true) :
    ∃ e, addPlace p net = .error e net := by
  obtain ⟨e, he⟩ := ensureFresh_taken h
  exact ⟨e, bind_of_error _ (look_eq_error_iff.2 ⟨he, rfl⟩)⟩

lemma addBare_taken {n : String} (guard : Formula) (h : net.hasNode n = true) :
    ∃ e, addBare n guard net = .error e net := by
  obtain ⟨e, he⟩ := ensureFresh_taken h
  exact ⟨e, bind_of_error _ (look_eq_error_iff.2 ⟨he, rfl⟩)⟩

/-- A merge looks its sources up, and after that it can only be refused for its target. -/
lemma succeedsIff_mergeable {α : Type} (get : Net → String → Except Error α)
    {known : String → Bool} {merge : List α → Edit Unit}
    (hget : ∀ n, (∃ a, get net n = .ok a) ↔ known n = true)
    (hnil : ∃ e, merge [] net = .error e net)
    (hfree : ∀ found, sources.mapM (get net) = .ok found → found ≠ [] →
      net.hasNode target = false →
      ∃ net', (look (fun net => sources.mapM (get net)) >>= merge) net = .ok () net')
    (htaken : ∀ found, found ≠ [] → net.hasNode target = true →
      ∃ e, merge found net = .error e net) :
    net.SucceedsIff (net.Mergeable known target sources)
      (look (fun net => sources.mapM (get net)) >>= merge) := by
  cases hfind : sources.mapM (get net) with
  | error e =>
    refine .inr ⟨fun hm => ?_, e, bind_of_error _ (look_eq_error_iff.2 ⟨hfind, rfl⟩)⟩
    obtain ⟨found, hok⟩ := exists_mapM_eq_ok fun n hn => (hget n).2 (hm.2.1 n hn)
    rw [hfind] at hok
    cases hok
  | ok found =>
    have hrun : (look (fun net => sources.mapM (get net)) >>= merge) net = merge found net :=
      bind_of_ok _ (look_eq_ok_iff.2 ⟨hfind, rfl⟩)
    have hknown : ∀ n ∈ sources, known n = true := fun n hn => by
      obtain ⟨a, -, ha⟩ := (mem_of_mapM_ok hfind).2 n hn
      exact (hget n).1 ⟨a, ha⟩
    by_cases hne : found = []
    · subst hne
      obtain ⟨e, he⟩ := hnil
      exact .inr ⟨fun hm => ne_nil_of_mapM_ok hfind hm.1 rfl, e, hrun.trans he⟩
    · cases hnode : net.hasNode target with
      | false =>
        refine .inl ⟨⟨?_, hknown, hnode⟩, hfree found hfind hne hnode⟩
        rintro rfl
        cases hfind
        exact hne rfl
      | true =>
        obtain ⟨e, he⟩ := htaken found hne hnode
        refine .inr ⟨fun hm => ?_, e, hrun.trans he⟩
        rw [hm.2.2] at hnode
        cases hnode

lemma mergePlaces_cases (h : net.WellFormed) :
    net.SucceedsIff (net.Mergeable net.hasPlace target sources) (mergePlaces target sources) := by
  refine succeedsIff_mergeable place (fun _ => place_ok_iff) ⟨_, rfl⟩
    (fun found hfind hne hnode => ?_) fun found hne hnode => ?_
  · obtain ⟨first, rest, rfl⟩ := List.exists_cons_of_ne_nil hne
    exact ⟨_, mergePlaces_eq h hfind (h.keyed.hasNode_eq_false_iff.1 hnode)⟩
  · obtain ⟨first, rest, rfl⟩ := List.exists_cons_of_ne_nil hne
    obtain ⟨hname, -⟩ := mergedPlace_bare target first rest
    obtain ⟨e, he⟩ := addPlace_taken (p := mergedPlace target first rest) (hname.symm ▸ hnode)
    exact ⟨e, bind_of_error _ he⟩

lemma mergeTransitions_cases (h : net.WellFormed) :
    net.SucceedsIff (net.Mergeable net.hasTransition target sources)
      (mergeTransitions target sources) := by
  refine succeedsIff_mergeable transition (fun _ => transition_ok_iff) ⟨_, rfl⟩
    (fun found hfind hne hnode => ?_) fun found hne hnode => ?_
  · exact ⟨_, mergeTransitions_eq h hfind hne (h.keyed.hasNode_eq_false_iff.1 hnode)⟩
  · obtain ⟨first, rest, rfl⟩ := List.exists_cons_of_ne_nil hne
    obtain ⟨e, he⟩ := addBare_taken (jointGuard (first :: rest)) hnode
    exact ⟨e, bind_of_error _ he⟩

lemma SucceedsIff.atomicAt {condition : Prop} {act : Edit Unit} (h : net.SucceedsIff condition act) :
    net.AtomicAt act := by
  intro e net' hs
  obtain ⟨-, net₁, hok⟩ | ⟨-, d, herr⟩ := h
  · rw [hok] at hs
    cases hs
  · rw [herr] at hs
    cases hs
    rfl

end Merges

/-- An edit of the structure that fails has changed nothing. A merge fails exactly if it lacks a
source or its target is taken, which it finds out first. -/
theorem edits_atomic (h : net.Built) :
    (∀ p, net.AtomicAt (addPlace p)) ∧
    (∀ t, net.AtomicAt (addTransition t) ∧
      failure (addTransition t) net = failure (addUnprotected t) net) ∧
    (∀ place trans arc, net.AtomicAt (addInput place trans arc) ∧
      net.AtomicAt (addOutput place trans arc)) ∧
    (∀ place trans, net.AtomicAt (removeInput place trans) ∧
      net.AtomicAt (removeOutput place trans)) ∧
    (∀ name, net.AtomicAt (removePlace name) ∧ net.AtomicAt (removeTransition name)) ∧
    (∀ target sources, net.AtomicAt (mergePlaces target sources) ∧
      net.AtomicAt (mergeTransitions target sources)) ∧
    ∀ target sources,
      net.SucceedsIff (net.Mergeable net.hasPlace target sources) (mergePlaces target sources) ∧
      net.SucceedsIff (net.Mergeable net.hasTransition target sources)
        (mergeTransitions target sources) := by
  have hw := h.wellFormed
  refine ⟨fun p => ?_, fun t => ⟨?_, ?_⟩, fun place trans arc => ⟨?_, ?_⟩, fun place trans => ⟨?_, ?_⟩,
    fun name => ⟨?_, ?_⟩, fun target sources => ⟨?_, ?_⟩, fun target sources => ⟨?_, ?_⟩⟩
  · exact atomic_addPlace net
  · exact atomicAt_addTransition hw t
  · exact failure_addTransition hw t
  · exact atomic_addArc .input place trans arc net
  · exact atomic_addArc .output place trans arc net
  · exact atomic_removeArc .input place trans net
  · exact atomic_removeArc .output place trans net
  · exact atomicAt_removePlace hw name
  · exact atomicAt_removeTransition hw name
  · exact (mergePlaces_cases hw).atomicAt
  · exact (mergeTransitions_cases hw).atomicAt
  · exact mergePlaces_cases hw
  · exact mergeTransitions_cases hw

def vestibule : Net :=
  .ofNodes "vestibule"
    [⟨"p", .ofList [.int 1], .any, [], []⟩]
    [] Table.empty

def intruder : Transition := ⟨"t", .truth, [("p", .var "x"), ("q", .var "x")], []⟩

theorem edits_atomic_vestibule : vestibule.Built ∧
    failure (addTransition intruder) vestibule = some (.structural (.nodeNotFound .place "q")) ∧
    after (addTransition intruder) vestibule = vestibule := by
  have hbuilt : vestibule.Built := .described (d := .ofNet vestibule) rfl
  have hfails : failure (addTransition intruder) vestibule =
      some (.structural (.nodeNotFound .place "q")) := rfl
  exact ⟨hbuilt, hfails, ((edits_atomic hbuilt).2.1 intruder).1 _ _ (error_of_failure hfails)⟩

end Net

end ColouredPetri
