import ColouredPetri.Proofs.Nets.Steps
import ColouredPetri.Proofs.Nets.WellFormed

namespace ColouredPetri

def Transition.withArcs (t : Transition) (side : Side) (arcs : List (String × Arc)) : Transition :=
  match side with
  | .input => { t with inputs := arcs }
  | .output => { t with outputs := arcs }

def Place.withLinks (p : Place) (side : Side) (links : List String) : Place :=
  match side with
  | .input => { p with post := links }
  | .output => { p with pre := links }

@[simp] lemma Transition.withArcs_name (t : Transition) (side : Side) (arcs) :
    (t.withArcs side arcs).name = t.name := by
  cases side <;> rfl

lemma Transition.withArcs_arcs (t : Transition) (side s : Side) (arcs) :
    (t.withArcs side arcs).arcs s = if s = side then arcs else t.arcs s := by
  cases side <;> cases s <;> rfl

@[simp] lemma Place.withLinks_name (p : Place) (side : Side) (links) :
    (p.withLinks side links).name = p.name := by
  cases side <;> rfl

@[simp] lemma Place.withLinks_typed (p : Place) (side : Side) (links) :
    (p.withLinks side links).Typed ↔ p.Typed := by
  cases side <;> rfl

lemma Place.withLinks_links (p : Place) (side s : Side) (links) :
    (p.withLinks side links).links s = if s = side then links else p.links s := by
  cases side <;> cases s <;> rfl

namespace Net

def relink (net : Net) (side : Side) (place trans : String) (arcs : List (String × Arc))
    (links : List String) : Net :=
  net.withNodes (net.places.map fun p => if p.name == place then p.withLinks side links else p)
    (net.transitions.map fun t => if t.name == trans then t.withArcs side arcs else t)

section Relink

variable {net : Net} {side : Side} {place trans : String} {arcs : List (String × Arc)}
  {links : List String}

lemma mem_relink_places {q : Place} : q ∈ (net.relink side place trans arcs links).places ↔
    ∃ p ∈ net.places, q.name = p.name ∧ (q.Typed ↔ p.Typed) ∧
      (∀ s, q.links s = if p.name = place ∧ s = side then links else p.links s) ∧
      q = if p.name == place then p.withLinks side links else p := by
  simp only [relink, places_withNodes, List.mem_map]
  constructor
  · rintro ⟨p, hp, rfl⟩
    by_cases hn : p.name = place <;> refine ⟨p, hp, ?_, ?_, ?_, rfl⟩ <;>
      simp [hn, Place.withLinks_links]
  · rintro ⟨p, hp, -, -, -, rfl⟩
    exact ⟨p, hp, rfl⟩

lemma mem_relink_transitions {u : Transition} :
    u ∈ (net.relink side place trans arcs links).transitions ↔
    ∃ t ∈ net.transitions, u.name = t.name ∧
      (∀ s, u.arcs s = if t.name = trans ∧ s = side then arcs else t.arcs s) ∧
      u = if t.name == trans then t.withArcs side arcs else t := by
  simp only [relink, transitions_withNodes, List.mem_map]
  constructor
  · rintro ⟨t, ht, rfl⟩
    by_cases hn : t.name = trans <;> refine ⟨t, ht, ?_, ?_, rfl⟩ <;>
      simp [hn, Transition.withArcs_arcs]
  · rintro ⟨t, ht, -, -, rfl⟩
    exact ⟨t, ht, rfl⟩

lemma exists_relinked_place {p : Place} (hp : p ∈ net.places) :
    ∃ q ∈ (net.relink side place trans arcs links).places, q.name = p.name ∧
      ∀ s, q.links s = if p.name = place ∧ s = side then links else p.links s := by
  refine ⟨if p.name == place then p.withLinks side links else p, ?_, ?_, fun s => ?_⟩
  · rw [relink, places_withNodes]
    exact List.mem_map_of_mem hp
  · split <;> simp
  · by_cases hn : p.name = place <;> simp [hn, Place.withLinks_links]

lemma exists_relinked_transition {t : Transition} (ht : t ∈ net.transitions) :
    ∃ u ∈ (net.relink side place trans arcs links).transitions, u.name = t.name ∧
      ∀ s, u.arcs s = if t.name = trans ∧ s = side then arcs else t.arcs s := by
  refine ⟨if t.name == trans then t.withArcs side arcs else t, ?_, ?_, fun s => ?_⟩
  · rw [relink, transitions_withNodes]
    exact List.mem_map_of_mem ht
  · split <;> simp
  · by_cases hn : t.name = trans <;> simp [hn, Transition.withArcs_arcs]

lemma relink_place_names :
    (net.relink side place trans arcs links).places.map Place.name =
      net.places.map Place.name := by
  rw [relink, places_withNodes, List.map_map]
  refine List.map_congr_left fun p _ => ?_
  rw [Function.comp_apply]
  split <;> simp

lemma relink_transition_names :
    (net.relink side place trans arcs links).transitions.map Transition.name =
      net.transitions.map Transition.name := by
  rw [relink, transitions_withNodes, List.map_map]
  refine List.map_congr_left fun t _ => ?_
  rw [Function.comp_apply]
  split <;> simp

lemma relink_names : (net.relink side place trans arcs links).names = net.names := by
  rw [names, names, relink_place_names, relink_transition_names]

structure Fits (side : Side) (p : Place) (t : Transition) (arcs : List (String × Arc))
    (links : List String) : Prop where
  keys_nodup : (arcs.map Prod.fst).Nodup
  links_nodup : links.Nodup
  keys_iff : ∀ n, n ≠ p.name → (n ∈ arcs.map Prod.fst ↔ n ∈ t.keys side)
  links_iff : ∀ n, n ≠ t.name → (n ∈ links ↔ n ∈ p.links side)
  adjacent : t.name ∈ links ↔ p.name ∈ arcs.map Prod.fst
  valid : ∀ e ∈ arcs, e.2.validate = .ok ()
  allowed : side = .input → ∀ e ∈ arcs, e.2.inputAllowed = true

lemma keys_of_relinked {u u' : Transition} {s : Side} {trans : String}
    (ha : ∀ s, u'.arcs s = if u.name = trans ∧ s = side then arcs else u.arcs s) :
    u'.keys s = if u.name = trans ∧ s = side then arcs.map Prod.fst else u.keys s := by
  rw [Transition.keys, ha]
  split <;> rfl

section Fits

variable {p : Place} {t : Transition} (h : net.WellFormed) (hp : p ∈ net.places)
  (ht : t ∈ net.transitions) (hf : Fits side p t arcs links)

include h hp ht hf

lemma Fits.key_mem {n : String} (hn : n ∈ arcs.map Prod.fst) :
    n ∈ net.places.map Place.name := by
  by_cases hne : n = p.name
  · exact hne ▸ List.mem_map_of_mem hp
  · exact List.mem_map.2 (h.keys_places t ht side n ((hf.keys_iff n hne).1 hn))

lemma Fits.link_mem {n : String} (hn : n ∈ links) : n ∈ net.transitions.map Transition.name := by
  by_cases hne : n = t.name
  · exact hne ▸ List.mem_map_of_mem ht
  · exact List.mem_map.2 (h.links_transitions p hp side n ((hf.links_iff n hne).1 hn))

lemma Fits.adjacent_iff {q : Place} {u : Transition} (hq : q ∈ net.places)
    (hu : u ∈ net.transitions) :
    (u.name ∈ if q.name = p.name then links else q.links side) ↔
      q.name ∈ if u.name = t.name then arcs.map Prod.fst else u.keys side := by
  have hold := h.adjacent q hq u hu side
  by_cases hqp : q.name = p.name
  · obtain rfl := h.place_eq hq hp hqp
    by_cases hut : u.name = t.name
    · obtain rfl := h.transition_eq hu ht hut
      simpa using hf.adjacent
    · simpa [hut] using (hf.links_iff _ hut).trans hold
  · by_cases hut : u.name = t.name
    · obtain rfl := h.transition_eq hu ht hut
      simpa [hqp] using hold.trans (hf.keys_iff _ hqp).symm
    · simpa [hqp, hut] using hold

end Fits

lemma relink_wellFormed (h : net.WellFormed) {p : Place} {t : Transition} (hp : p ∈ net.places)
    (ht : t ∈ net.transitions) (hf : Fits side p t arcs links) :
    (net.relink side p.name t.name arcs links).WellFormed where
  keyed := keyed_withNodes
  names_nodup := by
    rw [relink_names]
    exact h.names_nodup
  keys_nodup u' hu' s := by
    obtain ⟨u, hu, -, ha, -⟩ := mem_relink_transitions.1 hu'
    rw [keys_of_relinked ha]
    split
    · exact hf.keys_nodup
    · exact h.keys_nodup u hu s
  links_nodup q' hq' s := by
    obtain ⟨q, hq, -, -, hl, -⟩ := mem_relink_places.1 hq'
    rw [hl]
    split
    · exact hf.links_nodup
    · exact h.links_nodup q hq s
  keys_places u' hu' s n hn := by
    obtain ⟨u, hu, -, ha, -⟩ := mem_relink_transitions.1 hu'
    have hold : n ∈ net.places.map Place.name := by
      rw [keys_of_relinked ha] at hn
      split at hn
      · exact hf.key_mem h hp ht hn
      · exact List.mem_map.2 (h.keys_places u hu s n hn)
    rw [← relink_place_names] at hold
    exact List.mem_map.1 hold
  links_transitions q' hq' s n hn := by
    obtain ⟨q, hq, -, -, hl, -⟩ := mem_relink_places.1 hq'
    have hold : n ∈ net.transitions.map Transition.name := by
      rw [hl] at hn
      split at hn
      · exact hf.link_mem h hp ht hn
      · exact List.mem_map.2 (h.links_transitions q hq s n hn)
    rw [← relink_transition_names] at hold
    exact List.mem_map.1 hold
  adjacent q' hq' u' hu' s := by
    obtain ⟨q, hq, hqn, -, hl, -⟩ := mem_relink_places.1 hq'
    obtain ⟨u, hu, hun, ha, -⟩ := mem_relink_transitions.1 hu'
    rw [hl, keys_of_relinked ha, hqn, hun]
    by_cases hs : s = side
    · subst hs
      simpa using hf.adjacent_iff h hp ht hq hu
    · simpa [hs] using h.adjacent q hq u hu s
  valid u' hu' s e he := by
    obtain ⟨u, hu, -, ha, -⟩ := mem_relink_transitions.1 hu'
    rw [ha] at he
    split at he
    · exact hf.valid e he
    · exact h.valid u hu s e he
  allowed u' hu' e he := by
    obtain ⟨u, hu, -, ha, -⟩ := mem_relink_transitions.1 hu'
    rw [ha] at he
    split at he
    · next hs => exact hf.allowed hs.2.symm e he
    · exact h.allowed u hu e he
  typed q' hq' := by
    obtain ⟨q, hq, -, hty, -, -⟩ := mem_relink_places.1 hq'
    exact hty.2 (h.typed q hq)

end Relink

lemma mapTransition_mapPlace {net : Net} (h : net.WellFormed) (side : Side) {p : Place}
    {t : Transition} (hp : p ∈ net.places) (ht : t ∈ net.transitions)
    {arcs : List (String × Arc)} {links : List String} :
    (net.mapTransition t.name fun _ => t.withArcs side arcs).mapPlace p.name
      (fun _ => p.withLinks side links) = net.relink side p.name t.name arcs links := by
  rw [h.keyed.mapTransition_eq fun _ _ _ => t.withArcs_name side arcs,
    keyed_withNodes.mapPlace_eq fun _ _ _ => p.withLinks_name side links, places_withNodes,
    transitions_withNodes, withNodes_withNodes, relink]
  congr 1
  · refine List.map_congr_left fun q hq => ?_
    by_cases hn : q.name = p.name
    · rw [h.place_eq hq hp hn]
    · rw [if_neg (by simpa using hn), if_neg (by simpa using hn)]
  · refine List.map_congr_left fun u hu => ?_
    by_cases hn : u.name = t.name
    · rw [h.transition_eq hu ht hn]
    · rw [if_neg (by simpa using hn), if_neg (by simpa using hn)]

lemma insertName_nodup {l : List String} (hl : l.Nodup) (n : String) : (insertName l n).Nodup := by
  rw [insertName]
  split
  · exact hl
  · next hn =>
    have hn : n ∉ l := by simpa using hn
    refine List.nodup_append.2 ⟨hl, List.nodup_singleton n, fun a ha b hb hab => hn ?_⟩
    rwa [← List.mem_singleton.1 hb, ← hab]

lemma mem_insertName {l : List String} {m n : String} : m ∈ insertName l n ↔ m ∈ l ∨ m = n := by
  rw [insertName]
  split
  · next hn =>
    have : n ∈ l := by simpa using hn
    exact ⟨.inl, fun h => h.elim id fun hm => hm ▸ this⟩
  · simp

end Net

lemma lookup_isSome_iff {α : Type} {l : List (String × α)} {n : String} :
    (l.lookup n).isSome = true ↔ n ∈ l.map Prod.fst := by
  induction l with
  | nil => simp
  | cons e l ih =>
    rw [List.lookup_cons, List.map_cons, List.mem_cons, ← ih]
    by_cases hn : n = e.1
    · simp [hn]
    · simp [hn, beq_eq_false_iff_ne.2 hn]

lemma lookup_eq_none_iff_notMem {α : Type} {l : List (String × α)} {n : String} :
    l.lookup n = none ↔ n ∉ l.map Prod.fst := by
  rw [← Option.not_isSome_iff_eq_none, lookup_isSome_iff]

namespace Transition

variable {t t' : Transition} {side : Side} {place : String} {arc : Arc}

def addArc : Side → Transition → String → Arc → Except StructuralError Transition
  | .input => addInput
  | .output => addOutput

def removeArc : Side → Transition → String → Except StructuralError (Arc × Transition)
  | .input => removeInput
  | .output => removeOutput

lemma addArc_ok (h : addArc side t place arc = .ok t') : place ∉ t.keys side ∧
    arc.validate = .ok () ∧ (side = .input → arc.inputAllowed = true) ∧
      t' = t.withArcs side (t.arcs side ++ [(place, arc)]) := by
  cases side with
  | input =>
    rw [addArc, addInput] at h
    split at h
    · cases h
    · next hc =>
      split at h
      · cases h
      · next hv =>
        split at h
        · next ha =>
          cases h
          exact ⟨fun hk => hc (lookup_isSome_iff.2 hk), hv, fun _ => ha, rfl⟩
        · cases h
  | output =>
    rw [addArc, addOutput] at h
    split at h
    · cases h
    · next hc =>
      split at h
      · cases h
      · next hv =>
        cases h
        exact ⟨fun hk => hc (lookup_isSome_iff.2 hk), hv, nofun, rfl⟩

lemma removeArc_eq_ok_iff : removeArc side t place = .ok (arc, t') ↔
    (t.arcs side).lookup place = some arc ∧
      t' = t.withArcs side (withoutArc (t.arcs side) place) := by
  cases hl : (t.arcs side).lookup place with
  | none =>
    have hr : removeArc side t place = .error (.notConnected place) := by
      cases side with
      | input => rw [removeArc, removeInput, show t.input? place = none from hl]
      | output => rw [removeArc, removeOutput, show t.output? place = none from hl]
    rw [hr]
    constructor
    · intro h
      cases h
    · rintro ⟨h, -⟩
      cases h
  | some found =>
    have hr : removeArc side t place =
        .ok (found, t.withArcs side (withoutArc (t.arcs side) place)) := by
      cases side with
      | input =>
        rw [removeArc, removeInput, show t.input? place = some found from hl]
        rfl
      | output =>
        rw [removeArc, removeOutput, show t.output? place = some found from hl]
        rfl
    rw [hr]
    constructor
    · intro h
      cases h
      exact ⟨rfl, rfl⟩
    · rintro ⟨h, rfl⟩
      cases h
      rfl

end Transition

namespace Net

def addArc : Side → String → String → Arc → Edit Unit
  | .input => addInput
  | .output => addOutput

def removeArc : Side → String → String → Edit Arc
  | .input => removeInput
  | .output => removeOutput

section Arcs

variable {net net' : Net} {side : Side} {place trans : String} {arc : Arc}

lemma addArc_eq_step : addArc side place trans arc = step fun net => do
    let p ← net.place place
    let t ← net.transition trans
    let t ← Transition.addArc side t place arc
    let net := net.mapTransition trans fun _ => t
    return ((), net.mapPlace place fun _ => p.withLinks side (insertName (p.links side) trans)) := by
  have hchange : addArc side place trans arc = (do
      let _ ← look fun net => net.place place
      let a ← changeTransition trans fun t => return ((), ← Transition.addArc side t place arc)
      updatePlace (fun p => p.withLinks side (insertName (p.links side) trans)) place
      return a) := by
    simp only [bind_pure_unit]
    cases side <;> rfl
  rw [hchange, change_eq_step]
  simp only [bind_assoc, pure_bind]

lemma removeArc_eq_step : removeArc side place trans = step fun net => do
    let p ← net.place place
    let t ← net.transition trans
    let (arc, t) ← Transition.removeArc side t place
    let net := net.mapTransition trans fun _ => t
    return (arc, net.mapPlace place fun _ => p.withLinks side ((p.links side).erase trans)) := by
  cases side <;> exact change_eq_step

lemma addArc_ok (h : net.WellFormed) {u : Unit} (hs : addArc side place trans arc net = .ok u net') :
    ∃ p ∈ net.places, ∃ t ∈ net.transitions, p.name = place ∧ t.name = trans ∧
      place ∉ t.keys side ∧ arc.validate = .ok () ∧ (side = .input → arc.inputAllowed = true) ∧
      net' = net.relink side place trans (t.arcs side ++ [(place, arc)])
        (insertName (p.links side) trans) := by
  rw [addArc_eq_step, step_eq_ok_iff] at hs
  simp only [except_bind_eq_ok, place_eq_ok_iff, transition_eq_ok_iff, lift_structural,
    mapError_eq_ok_iff, except_pure, Except.ok.injEq, Prod.mk.injEq, true_and] at hs
  obtain ⟨p, hp, t, ht, t', ht', rfl⟩ := hs
  obtain ⟨hpm, rfl⟩ := h.keyed.mem_of_place? hp
  obtain ⟨htm, rfl⟩ := h.keyed.mem_of_transition? ht
  obtain ⟨hk, hv, ha, rfl⟩ := Transition.addArc_ok ht'
  exact ⟨p, hpm, t, htm, rfl, rfl, hk, hv, ha, mapTransition_mapPlace h side hpm htm⟩

lemma removeArc_ok (h : net.WellFormed) (hs : removeArc side place trans net = .ok arc net') :
    ∃ p ∈ net.places, ∃ t ∈ net.transitions, p.name = place ∧ t.name = trans ∧
      (t.arcs side).lookup place = some arc ∧
      net' = net.relink side place trans (Transition.withoutArc (t.arcs side) place)
        ((p.links side).erase trans) := by
  rw [removeArc_eq_step, step_eq_ok_iff] at hs
  simp only [except_bind_eq_ok, place_eq_ok_iff, transition_eq_ok_iff, lift_structural,
    mapError_eq_ok_iff, except_pure, Except.ok.injEq, Prod.mk.injEq] at hs
  obtain ⟨p, hp, t, ht, ⟨_, t'⟩, ht', rfl, rfl⟩ := hs
  obtain ⟨hpm, rfl⟩ := h.keyed.mem_of_place? hp
  obtain ⟨htm, rfl⟩ := h.keyed.mem_of_transition? ht
  obtain ⟨hl, rfl⟩ := Transition.removeArc_eq_ok_iff.1 ht'
  exact ⟨p, hpm, t, htm, rfl, rfl, hl, mapTransition_mapPlace h side hpm htm⟩

lemma removeArc_succeeds (h : net.WellFormed) {p : Place} {t : Transition} (hp : p ∈ net.places)
    (ht : t ∈ net.transitions) (hk : p.name ∈ t.keys side) :
    ∃ arc net', removeArc side p.name t.name net = .ok arc net' := by
  obtain ⟨arc, ha⟩ := Option.isSome_iff_exists.1 (lookup_isSome_iff.2 hk)
  have hpl := place_eq_ok_iff.2 (h.place?_of_mem hp)
  have htr := transition_eq_ok_iff.2 (h.transition?_of_mem ht)
  have hr := Transition.removeArc_eq_ok_iff.2 ⟨ha, rfl⟩
  refine ⟨arc, ?_⟩
  simp only [removeArc_eq_step, step_eq_ok_iff, hpl, htr, hr, except_ok_bind, lift_structural,
    Except.mapError]
  exact ⟨_, rfl⟩

end Arcs

lemma fits_add {net : Net} (h : net.WellFormed) {side : Side} {p : Place} {t : Transition}
    (hp : p ∈ net.places) (ht : t ∈ net.transitions) {arc : Arc} (hk : p.name ∉ t.keys side)
    (hv : arc.validate = .ok ()) (ha : side = .input → arc.inputAllowed = true) :
    Fits side p t (t.arcs side ++ [(p.name, arc)]) (insertName (p.links side) t.name) where
  keys_nodup := by
    rw [List.map_append, List.nodup_append]
    refine ⟨h.keys_nodup t ht side, List.nodup_singleton _, fun n hn m hm hnm => hk ?_⟩
    obtain rfl : m = p.name := List.mem_singleton.1 hm
    exact hnm ▸ hn
  links_nodup := insertName_nodup (h.links_nodup p hp side) _
  keys_iff n hn := by simp [Transition.keys, hn]
  links_iff n hn := by rw [mem_insertName, or_iff_left hn]
  adjacent := iff_of_true (mem_insertName.2 (.inr rfl)) (by simp)
  valid e he := by
    rcases List.mem_append.1 he with he | he
    · exact h.valid t ht side e he
    · rw [List.mem_singleton.1 he, hv]
  allowed hs e he := by
    rcases List.mem_append.1 he with he | he
    · subst hs
      exact h.allowed t ht e he
    · rw [List.mem_singleton.1 he, ha hs]

lemma keys_withoutArc (arcs : List (String × Arc)) (place n : String) :
    n ∈ (Transition.withoutArc arcs place).map Prod.fst ↔ n ∈ arcs.map Prod.fst ∧ n ≠ place := by
  simp only [Transition.withoutArc, List.mem_map, List.mem_filter, bne_iff_ne]
  constructor
  · rintro ⟨e, ⟨he, hne⟩, rfl⟩
    exact ⟨⟨e, he, rfl⟩, hne⟩
  · rintro ⟨⟨e, he, rfl⟩, hne⟩
    exact ⟨e, ⟨he, hne⟩, rfl⟩

lemma fits_remove {net : Net} (h : net.WellFormed) {side : Side} {p : Place} {t : Transition}
    (hp : p ∈ net.places) (ht : t ∈ net.transitions) :
    Fits side p t (Transition.withoutArc (t.arcs side) p.name) ((p.links side).erase t.name) where
  keys_nodup := (h.keys_nodup t ht side).sublist (List.filter_sublist.map _)
  links_nodup := (h.links_nodup p hp side).erase _
  keys_iff n hn := by rw [keys_withoutArc, and_iff_left hn, Transition.keys]
  links_iff n hn := List.mem_erase_of_ne hn
  adjacent := iff_of_false (h.links_nodup p hp side).not_mem_erase
    fun hn => ((keys_withoutArc _ _ _).1 hn).2 rfl
  valid e he := h.valid t ht side e (List.mem_filter.1 he).1
  allowed hs e he := by
    subst hs
    exact h.allowed t ht e (List.mem_filter.1 he).1

lemma atomic_addArc (side : Side) (place trans : String) (arc : Arc) :
    Atomic (addArc side place trans arc) := by
  rw [addArc_eq_step]
  exact atomic_step _

lemma atomic_removeArc (side : Side) (place trans : String) :
    Atomic (removeArc side place trans) := by
  rw [removeArc_eq_step]
  exact atomic_step _

lemma keeps_addArc (side : Side) (place trans : String) (arc : Arc) :
    Keeps WellFormed (addArc side place trans arc) := by
  refine keeps_of_atomic (atomic_addArc side place trans arc) fun net u net' h hs => ?_
  obtain ⟨p, hp, t, ht, rfl, rfl, hk, hv, ha, rfl⟩ := addArc_ok h hs
  exact relink_wellFormed h hp ht (fits_add h hp ht hk hv ha)

lemma keeps_removeArc (side : Side) (place trans : String) :
    Keeps WellFormed (removeArc side place trans) := by
  refine keeps_of_atomic (atomic_removeArc side place trans) fun net arc net' h hs => ?_
  obtain ⟨p, hp, t, ht, rfl, rfl, -, rfl⟩ := removeArc_ok h hs
  exact relink_wellFormed h hp ht (fits_remove h hp ht)

end Net

end ColouredPetri
