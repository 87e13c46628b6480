import ColouredPetri.Proofs.Arcs.Joining
import ColouredPetri.Proofs.EditAtomicity

/-! Places that are merged. The new place holds the tokens of all of them, and each transition gets
one arc to it for all its arcs to them, which moves and finds what those do together. -/

namespace ColouredPetri

/-- An arc that stands for several arcs: it moves the sum of what they move, shows their tokens in
turn, fails with the first of their errors, and is searched like the arc of all of them. -/
structure Arc.Joins (joint : Arc) (labels : List Arc) : Prop where
  flow : ∀ s, joint.flow s = (labels.mapM (Arc.flow s)).map List.sum
  tokens : ∀ s, joint.tokens s = (labels.mapM (Arc.tokens s)).map List.flatten
  modes : ∀ globals available,
    Arc.modes globals joint available = Arc.modes globals (.multi labels) available

lemma Arc.jointArc_joins (labels : List Arc) : (Net.jointArc labels).Joins labels :=
  ⟨fun _ => flow_jointArc labels, fun _ => tokens_jointArc labels, fun _ _ => modes_jointArc labels⟩

namespace Transition

variable {t : Transition} {side : Side} {target : String} {places : List Place}

def labels (t : Transition) (side : Side) (places : List Place) : List Arc :=
  places.filterMap fun p => (t.arcs side).lookup p.name

lemma labels_eq_nil_iff : t.labels side places = [] ↔ ∀ p ∈ places, p.name ∉ t.keys side := by
  rw [labels, List.filterMap_eq_nil_iff]
  exact forall₂_congr fun p _ => lookup_eq_none_iff_notMem

structure JoinedAt (target : String) (places : List Place) (t u : Transition) : Prop where
  name : u.name = t.name
  guard : u.guard = t.guard
  arcs : ∀ side, ∃ joint : Arc, joint.Joins (t.labels side places) ∧ u.arcs side =
    t.arcs side ++ if t.labels side places = [] then [] else [(target, joint)]
  connected : ∀ side, target ∈ u.keys side ↔ ∃ p ∈ places, p.name ∈ t.keys side

lemma joinedAt_moreArcs (h : ∀ side, target ∉ t.keys side) : t.JoinedAt target places
    (t.moreArcs fun side => Net.jointArcs target (t.labels side places)) := by
  refine ⟨rfl, rfl, fun side => ⟨_, Arc.jointArc_joins _, moreArcs_arcs _ _ side⟩, fun side => ?_⟩
  have hnot := h side
  rw [keys] at hnot
  rw [keys, moreArcs_arcs, List.map_append, List.mem_append, or_iff_right hnot, Net.jointArcs]
  split
  · next hnil =>
    rw [labels_eq_nil_iff] at hnil
    refine iff_of_false List.not_mem_nil ?_
    rintro ⟨p, hp, hk⟩
    exact hnil p hp hk
  · next hsome =>
    rw [labels_eq_nil_iff] at hsome
    push Not at hsome
    exact iff_of_true (List.mem_singleton_self target) hsome

end Transition

namespace Net

variable {net : Net} {target : String} {sources : List String} {places : List Place}

lemma mergedPlace_tokens (first : Place) (rest : List Place) :
    (mergedPlace target first rest).tokens = ((first :: rest).map Place.tokens).sum := by
  rw [mergedPlace, List.map_cons, List.sum_cons]
  have hstart : (first.copyAs target).tokens = first.tokens := rfl
  rw [← hstart]
  generalize first.copyAs target = acc
  induction rest generalizing acc with
  | nil => exact (add_zero _).symm
  | cons p rest ih => rw [List.foldl_cons, ih, List.map_cons, List.sum_cons, add_assoc]

lemma mergedPlace_accepts (first : Place) (rest : List Place) (v : Value) :
    (mergedPlace target first rest).type.accepts v =
      (first :: rest).any fun p => p.type.accepts v := by
  rw [mergedPlace, List.any_cons]
  have hstart : (first.copyAs target).type = first.type := rfl
  rw [← hstart]
  generalize first.copyAs target = acc
  induction rest generalizing acc with
  | nil => exact (Bool.or_false _).symm
  | cons p rest ih =>
    rw [List.foldl_cons, ih, TokenType.accepts_unite, List.any_cons, Bool.or_assoc]

lemma mem_keys_groups {α : Type} {l : List (String × α)} {k : String} :
    k ∈ (groups l).map Prod.fst ↔ k ∈ l.map Prod.fst := by
  constructor
  · intro hk
    obtain ⟨e, he, rfl⟩ := List.mem_map.1 hk
    obtain ⟨a, ha⟩ := List.exists_mem_of_ne_nil _ (mem_groups he).1
    exact List.mem_map_of_mem (mem_of_mem_members ((mem_groups he).2 ▸ ha))
  · intro hk
    obtain ⟨e, he, rfl⟩ := List.mem_map.1 hk
    have hmem : e.2 ∈ members e.1 l :=
      List.mem_map_of_mem (List.mem_filter.2 ⟨he, beq_self_eq_true _⟩)
    rw [← lookup_isSome_iff, lookup_groups, if_neg (List.ne_nil_of_mem hmem)]
    rfl

structure MergesTo (net : Net) (target : String) (places : List Place) (net' : Net) : Prop where
  name : net'.name = net.name
  globals : net'.globals = net.globals
  keyed : net'.Keyed
  place : ∃ m : Place, net'.places = net.places ++ [m] ∧ m.name = target ∧
    m.tokens = (places.map Place.tokens).sum ∧
    (∀ v, m.type.accepts v = true ↔ ∃ p ∈ places, p.type.accepts v = true) ∧
    ∀ side n, n ∈ m.links side ↔ ∃ p ∈ places, n ∈ p.links side
  transitions : List.Forall₂ (Transition.JoinedAt target places) net.transitions net'.transitions

lemma mergesTo_withMerged (h : net.WellFormed) (hn : target ∉ net.names) (first : Place)
    (rest : List Place) : net.MergesTo target (first :: rest)
      (net.withMerged (mergedPlace target first rest) (first :: rest)) := by
  obtain ⟨hname, hlinks⟩ := mergedPlace_bare target first rest
  refine ⟨rfl, rfl, keyed_withNodes, ⟨_, places_withNodes, hname, mergedPlace_tokens first rest,
    fun v => ?_, fun side n => ?_⟩, ?_⟩
  · exact (mergedPlace_accepts first rest v).symm ▸ List.any_eq_true
  · rw [Place.moreLinks_links, hlinks side, List.nil_append, mem_keys_groups, linkArcs,
      List.map_flatMap]
    simp only [List.map_map, Function.comp_def, List.map_id', List.mem_flatMap]
  · rw [withMerged, transitions_withNodes, hname]
    refine List.forall₂_map_right_iff.2 (List.forall₂_same.2 fun t ht => ?_)
    exact Transition.joinedAt_moreArcs fun side hk => hn (h.key_mem_names ht hk)

theorem places_merged (h : net.Built) (hm : net.Mergeable net.hasPlace target sources) :
    ∃ places net', sources.mapM net.place = .ok places ∧
      mergePlaces target sources net = .ok () net' ∧ net.MergesTo target places net' := by
  obtain ⟨hne, hknown, hfresh⟩ := hm
  obtain ⟨places, hfind⟩ := mapM_place_eq_ok hknown
  have hn := h.wellFormed.keyed.hasNode_eq_false_iff.1 hfresh
  cases places with
  | nil =>
    obtain ⟨n, hn⟩ := List.exists_mem_of_ne_nil _ hne
    obtain ⟨p, hp, -⟩ := (mem_of_mapM_ok hfind).2 n hn
    cases hp
  | cons first rest =>
    exact ⟨_, _, hfind, mergePlaces_eq h.wellFormed hfind hn,
      mergesTo_withMerged h.wellFormed hn first rest⟩

def junction : Net :=
  .ofNodes "junction"
    [⟨"p", .ofList [.int 1], .kind .int, [], ["t"]⟩,
      ⟨"q", .ofList [.dot, .dot], .any, [], ["t"]⟩]
    [⟨"t", .truth, [("p", .var "x"), ("q", .multi [.var "y", .value .dot])], []⟩] Table.empty

theorem places_merged_junction : junction.Built ∧
    junction.Mergeable junction.hasPlace "r" ["p", "q"] ∧
    ∃ places net', ["p", "q"].mapM junction.place = .ok places ∧
      mergePlaces "r" ["p", "q"] junction = .ok () net' ∧ junction.MergesTo "r" places net' := by
  have hbuilt : junction.Built := .described (d := .ofNet junction) rfl
  have hmergeable : junction.Mergeable junction.hasPlace "r" ["p", "q"] := by
    refine ⟨List.cons_ne_nil _ _, ?_, rfl⟩
    decide
  exact ⟨hbuilt, hmergeable, places_merged hbuilt hmergeable⟩

end Net

end ColouredPetri
