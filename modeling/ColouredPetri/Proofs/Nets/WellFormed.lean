import ColouredPetri.Proofs.BagArithmetic
import ColouredPetri.Proofs.Nets.Keys

/-! Well-formed nets. Arcs are recorded twice, in the transition and in the place, and the two
records agree; both directions of arcs are treated alike. -/

namespace ColouredPetri

inductive Side where
  | input
  | output
  deriving DecidableEq

def Transition.arcs (t : Transition) : Side → List (String × Arc)
  | .input => t.inputs
  | .output => t.outputs

def Transition.keys (t : Transition) (side : Side) : List String := (t.arcs side).map Prod.fst

def Place.links (p : Place) : Side → List String
  | .input => p.post
  | .output => p.pre

def Place.Typed (p : Place) : Prop := ∀ v ∈ p.tokens.toList, p.type.accepts v = true

namespace Net

def names (net : Net) : List String :=
  net.places.map Place.name ++ net.transitions.map Transition.name

structure WellFormed (net : Net) : Prop where
  keyed : net.Keyed
  names_nodup : net.names.Nodup
  keys_nodup : ∀ t ∈ net.transitions, ∀ side, (t.keys side).Nodup
  links_nodup : ∀ p ∈ net.places, ∀ side, (p.links side).Nodup
  keys_places : ∀ t ∈ net.transitions, ∀ side, ∀ n ∈ t.keys side, ∃ p ∈ net.places, p.name = n
  links_transitions :
    ∀ p ∈ net.places, ∀ side, ∀ n ∈ p.links side, ∃ t ∈ net.transitions, t.name = n
  adjacent : ∀ p ∈ net.places, ∀ t ∈ net.transitions, ∀ side,
    t.name ∈ p.links side ↔ p.name ∈ t.keys side
  valid : ∀ t ∈ net.transitions, ∀ side, ∀ e ∈ t.arcs side, e.2.validate = .ok ()
  allowed : ∀ t ∈ net.transitions, ∀ e ∈ t.arcs .input, e.2.inputAllowed = true
  typed : ∀ p ∈ net.places, p.Typed

lemma find?_name {α : Type} {f : α → String} {l : List α} (hl : (l.map f).Nodup) {a : α}
    (ha : a ∈ l) : l.find? (fun b => f b == f a) = some a := by
  cases hf : l.find? (fun b => f b == f a) with
  | none =>
    rw [List.find?_eq_none] at hf
    exact absurd (beq_self_eq_true _) (hf a ha)
  | some b =>
    have hb : f b = f a := by simpa using List.find?_some hf
    rw [List.inj_on_of_nodup_map hl (List.mem_of_find?_eq_some hf) ha hb]

lemma place_eq_ok_iff {net : Net} {n : String} {p : Place} :
    net.place n = .ok p ↔ net.place? n = some p := by
  rw [place]
  cases net.place? n with
  | none => exact ⟨fun h => (by cases h), fun h => (by cases h)⟩
  | some q => exact ⟨fun h => by cases h; rfl, fun h => by cases h; rfl⟩

lemma transition_eq_ok_iff {net : Net} {n : String} {t : Transition} :
    net.transition n = .ok t ↔ net.transition? n = some t := by
  rw [transition]
  cases net.transition? n with
  | none => exact ⟨fun h => (by cases h), fun h => (by cases h)⟩
  | some u => exact ⟨fun h => by cases h; rfl, fun h => by cases h; rfl⟩

lemma Keyed.ensureFresh_eq_ok_iff {net : Net} (h : net.Keyed) {n : String} {u : Unit} :
    net.ensureFresh n = .ok u ↔ n ∉ net.names := by
  rw [names, List.mem_append, List.mem_map, List.mem_map, ← h.hasPlace_iff, ← h.hasTransition_iff,
    ensureFresh]
  by_cases hp : net.hasPlace n = true
  · simp [hp]
  · by_cases ht : net.hasTransition n = true <;> simp [hp, ht]

namespace WellFormed

variable {net : Net}

lemma places_nodup (h : net.WellFormed) : (net.places.map Place.name).Nodup :=
  (List.nodup_append.1 h.names_nodup).1

lemma transitions_nodup (h : net.WellFormed) : (net.transitions.map Transition.name).Nodup :=
  (List.nodup_append.1 h.names_nodup).2.1

lemma place?_of_mem (h : net.WellFormed) {p : Place} (hp : p ∈ net.places) :
    net.place? p.name = some p := by
  rw [h.keyed.place?_eq]
  exact find?_name h.places_nodup hp

lemma transition?_of_mem (h : net.WellFormed) {t : Transition} (ht : t ∈ net.transitions) :
    net.transition? t.name = some t := by
  rw [h.keyed.transition?_eq]
  exact find?_name h.transitions_nodup ht

lemma place_eq (h : net.WellFormed) {p q : Place} (hp : p ∈ net.places) (hq : q ∈ net.places)
    (hn : p.name = q.name) : p = q :=
  List.inj_on_of_nodup_map h.places_nodup hp hq hn

lemma transition_eq (h : net.WellFormed) {t u : Transition} (ht : t ∈ net.transitions)
    (hu : u ∈ net.transitions) (hn : t.name = u.name) : t = u :=
  List.inj_on_of_nodup_map h.transitions_nodup ht hu hn

end WellFormed

section Names

variable {net : Net}

lemma place_name_mem {p : Place} (hp : p ∈ net.places) : p.name ∈ net.names :=
  List.mem_append_left _ (List.mem_map_of_mem hp)

lemma transition_name_mem {t : Transition} (ht : t ∈ net.transitions) : t.name ∈ net.names :=
  List.mem_append_right _ (List.mem_map_of_mem ht)

lemma WellFormed.key_mem_names (h : net.WellFormed) {t : Transition} (ht : t ∈ net.transitions)
    {side : Side} {n : String} (hn : n ∈ t.keys side) : n ∈ net.names := by
  obtain ⟨p, hp, rfl⟩ := h.keys_places t ht side n hn
  exact place_name_mem hp

lemma WellFormed.link_mem_names (h : net.WellFormed) {p : Place} (hp : p ∈ net.places)
    {side : Side} {n : String} (hn : n ∈ p.links side) : n ∈ net.names := by
  obtain ⟨t, ht, rfl⟩ := h.links_transitions p hp side n hn
  exact transition_name_mem ht

lemma WellFormed.name_ne (h : net.WellFormed) {p : Place} {t : Transition} (hp : p ∈ net.places)
    (ht : t ∈ net.transitions) : p.name ≠ t.name := fun hn =>
  List.disjoint_of_nodup_append h.names_nodup (List.mem_map_of_mem hp)
    (hn ▸ List.mem_map_of_mem ht)

end Names

lemma empty_wellFormed (name : String) (globals : Binding) :
    WellFormed ⟨name, [], [], globals⟩ := by
  constructor
  · exact ⟨nofun, nofun⟩
  all_goals simp [names, places, transitions]

end Net

end ColouredPetri
