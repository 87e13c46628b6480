import ColouredPetri.Net.Edit
import ColouredPetri.Proofs.Outcomes
import Mathlib.Data.List.Nodup

/-! Nodes and their keys. In a keyed net every node stands at its own name, so that it is found by
its name and the net is known from the list of its nodes. -/

namespace ColouredPetri

namespace Net

def named {α : Type} (name : α → String) (l : List α) : List (String × α) :=
  l.map fun a => (name a, a)

section Named

variable {α : Type} {name : α → String} {l : List α} {n : String} {f : α → α}

@[simp] lemma map_snd_named : (named name l).map Prod.snd = l := by
  rw [named, List.map_map]
  exact List.map_id l

lemma named_map_snd {l : List (String × α)} (h : ∀ e ∈ l, e.1 = name e.2) :
    named name (l.map Prod.snd) = l := by
  rw [named, List.map_map]
  refine (List.map_congr_left fun e he => ?_).trans (List.map_id l)
  exact Prod.ext (h e he).symm rfl

lemma lookup_named : (named name l).lookup n = l.find? (name · == n) := by
  induction l with
  | nil => rfl
  | cons a l ih =>
    rw [named, List.map_cons, ← named, List.lookup_cons, List.find?_cons, ih, BEq.comm]

lemma lookup_map {β : Type} {l : List (String × α)} (g : α → β) :
    (l.map fun e => (e.1, g e.2)).lookup n = (l.lookup n).map g := by
  induction l with
  | nil => rfl
  | cons e l ih =>
    rw [List.map_cons, List.lookup_cons, List.lookup_cons, ih]
    cases n == e.1 <;> rfl

lemma updateKey_named (hf : ∀ a ∈ l, name a = n → name (f a) = n) :
    updateKey n f (named name l) = named name (l.map fun a => if name a == n then f a else a) := by
  simp only [updateKey, named, List.map_map]
  refine List.map_congr_left fun a ha => ?_
  by_cases hn : name a = n
  · simp [hn, hf a ha hn]
  · simp [hn]

lemma named_append (l k : List α) : named name (l ++ k) = named name l ++ named name k :=
  List.map_append

lemma filter_named :
    (named name l).filter (·.1 != n) = named name (l.filter (name · != n)) := by
  rw [named, List.filter_map]
  rfl

end Named

structure Keyed (net : Net) : Prop where
  places : ∀ e ∈ net.placeMap, e.1 = e.2.name
  transitions : ∀ e ∈ net.transitionMap, e.1 = e.2.name

def ofNodes (name : String) (places : List Place) (transitions : List Transition)
    (globals : Binding) : Net :=
  ⟨name, named Place.name places, named Transition.name transitions, globals⟩

def withNodes (net : Net) (places : List Place) (transitions : List Transition) : Net :=
  ofNodes net.name places transitions net.globals

variable {net : Net} {places ps : List Place} {transitions ts : List Transition}

@[simp] lemma places_ofNodes (name : String) (globals : Binding) :
    (ofNodes name places transitions globals).places = places := map_snd_named

@[simp] lemma transitions_ofNodes (name : String) (globals : Binding) :
    (ofNodes name places transitions globals).transitions = transitions := map_snd_named

@[simp] lemma places_withNodes : (net.withNodes places transitions).places = places :=
  places_ofNodes _ _

@[simp] lemma transitions_withNodes :
    (net.withNodes places transitions).transitions = transitions := transitions_ofNodes _ _

lemma place?_withNodes {n : String} :
    (net.withNodes places transitions).place? n = places.find? (·.name == n) := lookup_named

lemma transition?_withNodes {n : String} :
    (net.withNodes places transitions).transition? n = transitions.find? (·.name == n) :=
  lookup_named

@[simp] lemma withNodes_withNodes :
    (net.withNodes places transitions).withNodes ps ts = net.withNodes ps ts := rfl

lemma keyed_ofNodes (name : String) (places : List Place) (transitions : List Transition)
    (globals : Binding) : (ofNodes name places transitions globals).Keyed :=
  ⟨List.forall_mem_map.2 fun _ _ => rfl, List.forall_mem_map.2 fun _ _ => rfl⟩

lemma keyed_withNodes : (net.withNodes places transitions).Keyed := keyed_ofNodes _ _ _ _

namespace Keyed

variable (h : net.Keyed) {n : String}

include h

lemma placeMap_eq : net.placeMap = named Place.name net.places := (named_map_snd h.places).symm

lemma transitionMap_eq : net.transitionMap = named Transition.name net.transitions :=
  (named_map_snd h.transitions).symm

lemma withNodes_self : net.withNodes net.places net.transitions = net := by
  rw [withNodes, ofNodes, ← h.placeMap_eq, ← h.transitionMap_eq]

lemma placeKeys_eq : net.placeMap.map Prod.fst = net.places.map Place.name := by
  rw [Net.places, List.map_map]
  exact List.map_congr_left h.places

lemma transitionKeys_eq :
    net.transitionMap.map Prod.fst = net.transitions.map Transition.name := by
  rw [Net.transitions, List.map_map]
  exact List.map_congr_left h.transitions

lemma place?_eq : net.place? n = net.places.find? (·.name == n) := by
  rw [place?, h.placeMap_eq, lookup_named]

lemma transition?_eq : net.transition? n = net.transitions.find? (·.name == n) := by
  rw [transition?, h.transitionMap_eq, lookup_named]

lemma mem_of_place? {p : Place} (hp : net.place? n = some p) : p ∈ net.places ∧ p.name = n := by
  rw [h.place?_eq] at hp
  exact ⟨List.mem_of_find?_eq_some hp, by simpa using List.find?_some hp⟩

lemma mem_of_transition? {t : Transition} (ht : net.transition? n = some t) :
    t ∈ net.transitions ∧ t.name = n := by
  rw [h.transition?_eq] at ht
  exact ⟨List.mem_of_find?_eq_some ht, by simpa using List.find?_some ht⟩

lemma hasPlace_iff : net.hasPlace n = true ↔ ∃ p ∈ net.places, p.name = n := by
  simp [hasPlace, h.place?_eq, List.find?_isSome]

lemma hasTransition_iff : net.hasTransition n = true ↔ ∃ t ∈ net.transitions, t.name = n := by
  simp [hasTransition, h.transition?_eq, List.find?_isSome]

lemma mapPlace_eq {f : Place → Place} (hf : ∀ p ∈ net.places, p.name = n → (f p).name = n) :
    net.mapPlace n f =
      net.withNodes (net.places.map fun p => if p.name == n then f p else p) net.transitions := by
  rw [mapPlace, h.placeMap_eq, updateKey_named hf, withNodes, ofNodes, ← h.transitionMap_eq]

lemma mapTransition_eq {f : Transition → Transition}
    (hf : ∀ t ∈ net.transitions, t.name = n → (f t).name = n) :
    net.mapTransition n f =
      net.withNodes net.places (net.transitions.map fun t => if t.name == n then f t else t) := by
  rw [mapTransition, h.transitionMap_eq, updateKey_named hf, withNodes, ofNodes, ← h.placeMap_eq]

lemma filter_places : (net.placeMap.filter (·.1 != n)).map Prod.snd =
    net.places.filter (·.name != n) := by
  rw [h.placeMap_eq, filter_named, map_snd_named]

lemma filter_transitions : (net.transitionMap.filter (·.1 != n)).map Prod.snd =
    net.transitions.filter (·.name != n) := by
  rw [h.transitionMap_eq, filter_named, map_snd_named]

end Keyed

end Net

end ColouredPetri
