import ColouredPetri.Proofs.Failures
import ColouredPetri.Proofs.Nets.Built

namespace ColouredPetri

namespace Arc

mutual

lemma avoids_validate : ∀ a : Arc,
    Avoids (fun e => (Error.structural e).isArcMissing) a.validate
  | value _ => avoids_ok ()
  | var name => by
    rw [validate]
    split
    · exact avoids_ok ()
    · exact avoids_error rfl
  | formula _ => avoids_ok ()
  | multi [] => avoids_error rfl
  | multi (a :: l) => by rw [validate.eq_def]; exact avoids_validateAll (a :: l)
  | tuple [] => avoids_error rfl
  | tuple (a :: l) => by rw [validate.eq_def]; exact avoids_validateAll (a :: l)
  | test inner => avoids_validate inner
  | inhibitor inner _ => avoids_validate inner
  | flush inner => avoids_validate inner

lemma avoids_validateAll : ∀ l : List Arc,
    Avoids (fun e => (Error.structural e).isArcMissing) (validateAll l)
  | [] => avoids_ok ()
  | a :: l => by
    rw [validateAll]
    split
    · next e he => exact avoids_error (avoids_validate a e he)
    · exact avoids_validateAll l

end

end Arc

namespace Net

variable {net net' : Net} {P : Net → Prop}

lemma avoids_place_lookup (net : Net) (name : String) :
    Avoids Error.isArcMissing (net.place name) := by
  rw [place]
  split
  · exact avoids_ok _
  · exact avoids_error rfl

lemma avoids_transition_lookup (net : Net) (name : String) :
    Avoids Error.isArcMissing (net.transition name) := by
  rw [transition]
  split
  · exact avoids_ok _
  · exact avoids_error rfl

lemma avoids_ensureFresh (net : Net) (name : String) :
    Avoids Error.isArcMissing (net.ensureFresh name) := by
  rw [ensureFresh]
  split
  · exact avoids_error rfl
  · split
    · exact avoids_error rfl
    · exact avoids_ok ()

lemma spares_addPlace {p : Place} (hk : Keeps P (addPlace p)) :
    Spares Error.isArcMissing P (addPlace p) := by
  rw [addPlace_eq_step] at hk ⊢
  exact spares_step hk fun _ _ => (avoids_ensureFresh _ _).bind_pure

lemma spares_addBare (name : String) (guard : Formula) :
    Spares Error.isArcMissing WellFormed (addBare name guard) := by
  have hk := keeps_addBare name guard
  rw [addBare_eq_step] at hk ⊢
  exact spares_step hk fun _ _ => (avoids_ensureFresh _ _).bind_pure

lemma avoids_addArc (side : Side) (t : Transition) (place : String) (arc : Arc) :
    Avoids (fun e => (Error.structural e).isArcMissing) (Transition.addArc side t place arc) := by
  cases side with
  | input =>
    rw [Transition.addArc, Transition.addInput]
    split
    · exact avoids_error rfl
    · split
      · next e he => exact avoids_error (arc.avoids_validate e he)
      · split
        · exact avoids_ok _
        · exact avoids_error rfl
  | output =>
    rw [Transition.addArc, Transition.addOutput]
    split
    · exact avoids_error rfl
    · split
      · next e he => exact avoids_error (arc.avoids_validate e he)
      · exact avoids_ok _

lemma spares_addArc {side : Side} {place trans : String} {arc : Arc}
    (hk : Keeps P (addArc side place trans arc)) :
    Spares Error.isArcMissing P (addArc side place trans arc) := by
  rw [addArc_eq_step] at hk ⊢
  refine spares_step hk fun net _ => ?_
  refine (avoids_place_lookup net place).bind fun _ _ => ?_
  refine (avoids_transition_lookup net trans).bind fun t _ => ?_
  exact (avoids_mapError (avoids_addArc side t place arc)).bind_pure

lemma spares_connect (name : String) (inputs outputs : List (String × Arc)) :
    Spares Error.isArcMissing WellFormed (connect name inputs outputs) := by
  refine Spares.bind ?_ fun _ => ?_
  · exact spares_forM fun e _ => spares_addArc (keeps_addArc .input e.1 name e.2)
  · exact spares_forM fun e _ => spares_addArc (keeps_addArc .output e.1 name e.2)

lemma spares_removeTransition (name : String) :
    Spares Error.isArcMissing WellFormed (removeTransition name) := by
  refine ⟨keeps_removeTransition name, fun net h e net' hs => ?_⟩
  cases hfind : net.transition? name with
  | some t =>
    obtain ⟨ht, rfl⟩ := h.keyed.mem_of_transition? hfind
    obtain ⟨u, net₁, hok⟩ := removeTransition_succeeds h ht
    rw [hok] at hs
    cases hs
  | none =>
    have hnone : look (fun net => net.transition name) net =
        .error (.structural (.nodeNotFound .transition name)) net :=
      look_eq_error_iff.2 ⟨by rw [transition, hfind], rfl⟩
    rw [removeTransition, bind_of_error _ hnone] at hs
    cases hs
    rfl

lemma spares_undoing {α β : Type} {bad : Error → Bool} {undo : Edit β} {act : Edit α}
    (hu : Spares bad WellFormed undo) (ha : Spares bad WellFormed act) :
    Spares bad WellFormed (undoing undo act) := by
  refine ⟨keeps_undoing hu.keeps ha.keeps, fun net h e net' hs => ?_⟩
  have hkept := ha.keeps net h
  rw [undoing] at hs
  cases hact : act net with
  | ok a net₁ =>
    rw [hact] at hs
    cases hs
  | error d net₁ =>
    simp only [hact] at hs
    rw [after_of_error hact] at hkept
    cases hundo : undo net₁ with
    | ok b net₂ =>
      simp only [hundo] at hs
      cases hs
      exact ha.error net h _ net₁ hact
    | error d' net₂ =>
      simp only [hundo] at hs
      cases hs
      exact hu.error net₁ hkept _ _ hundo

lemma spares_addTransition (t : Transition) :
    Spares Error.isArcMissing WellFormed (addTransition t) :=
  (spares_addBare _ _).bind fun _ =>
    spares_undoing (spares_removeTransition _) (spares_connect _ _ _)

lemma avoids_joinArcs (arcs : List Arc) :
    Avoids (fun e => (Error.structural e).isArcMissing) (joinArcs arcs) := by
  rw [joinArcs]
  split
  · exact avoids_ok _
  · rw [Arc.several]
    split
    · exact avoids_error rfl
    · exact avoids_ok _

lemma spares_addJoint {side : Side} {place trans : String}
    (hk : ∀ arc, Keeps P (addArc side place trans arc)) (arcs : List Arc) :
    Spares Error.isArcMissing P (do addArc side place trans (← look fun _ => joinArcs arcs)) :=
  (spares_look fun _ _ => avoids_mapError (avoids_joinArcs arcs)).bind fun arc =>
    spares_addArc (hk arc)

structure Grown (net net' : Net) : Prop where
  wellFormed : net'.WellFormed
  kept : ∀ t ∈ net.transitions, ∃ t' ∈ net'.transitions, t'.name = t.name ∧
    ∀ side, t.keys side ⊆ t'.keys side

lemma grown_self (h : net.WellFormed) : net.Grown net :=
  ⟨h, fun t ht => ⟨t, ht, rfl, fun _ => List.Subset.refl _⟩⟩

lemma Grown.trans {net₁ net₂ : Net} (h₁ : net.Grown net₁) (h₂ : net₁.Grown net₂) :
    net.Grown net₂ where
  wellFormed := h₂.wellFormed
  kept t ht := by
    obtain ⟨t₁, ht₁, hn₁, hk₁⟩ := h₁.kept t ht
    obtain ⟨t₂, ht₂, hn₂, hk₂⟩ := h₂.kept t₁ ht₁
    exact ⟨t₂, ht₂, hn₂.trans hn₁, fun side => List.Subset.trans (hk₁ side) (hk₂ side)⟩

lemma keeps_grown {act : Edit Unit} (ha : Atomic act)
    (hok : ∀ net₁ net₂ u, net₁.WellFormed → act net₁ = .ok u net₂ → net₁.Grown net₂) :
    Keeps net.Grown act :=
  keeps_of_atomic ha fun net₁ u net₂ h hs => h.trans (hok net₁ net₂ u h.wellFormed hs)

lemma keeps_grown_addPlace {p : Place} (hp : p.Typed) : Keeps net.Grown (addPlace p) := by
  refine keeps_grown atomic_addPlace fun net₁ net₂ u h hs => ?_
  have hw := (keeps_addPlace hp).of_ok h hs
  rw [addPlace_eq_step, step_eq_ok_iff] at hs
  obtain ⟨_, -, hs⟩ := except_bind_eq_ok.1 hs
  cases hs
  exact ⟨hw, fun t ht => ⟨t, ht, rfl, fun _ => List.Subset.refl _⟩⟩

lemma keeps_grown_addArc (side : Side) (place trans : String) (arc : Arc) :
    Keeps net.Grown (addArc side place trans arc) := by
  refine keeps_grown (atomic_addArc side place trans arc) fun net₁ net₂ u h hs => ?_
  have hw := (keeps_addArc side place trans arc).of_ok h hs
  obtain ⟨p, -, t, ht, -, rfl, -, -, -, rfl⟩ := addArc_ok h hs
  refine ⟨hw, fun v hv => ?_⟩
  obtain ⟨v', hv', hvn, ha⟩ := exists_relinked_transition hv
  refine ⟨v', hv', hvn, fun s n hn => ?_⟩
  rw [keys_of_relinked ha]
  split
  · next hsame =>
    obtain ⟨hvt, rfl⟩ := hsame
    obtain rfl := h.transition_eq hv ht hvt
    rw [List.map_append]
    exact List.mem_append_left _ hn
  · exact hn

def arcOf : Side → Net → String → String → Except Error Arc
  | .input => inputArc
  | .output => outputArc

lemma arcOf_eq (side : Side) (net : Net) (place trans : String) : arcOf side net place trans =
    (do
      match ((← net.transition trans).arcs side).lookup place with
      | some arc => return arc
      | none => throw (.structural (.notConnected place))) := by
  cases side <;> rfl

lemma Grown.arcOf_found (hg : net.Grown net') (h : net.WellFormed) {p : Place}
    (hp : p ∈ net.places) {side : Side} {trans : String} (hlink : trans ∈ p.links side) :
    ∃ arc, arcOf side net' p.name trans = .ok arc := by
  obtain ⟨t, ht, rfl⟩ := h.links_transitions p hp side trans hlink
  obtain ⟨t', ht', hn, hk⟩ := hg.kept t ht
  have hkey : p.name ∈ t'.keys side := hk side ((h.adjacent p hp t ht side).1 hlink)
  obtain ⟨arc, ha⟩ := Option.isSome_iff_exists.1 (lookup_isSome_iff.2 hkey)
  have hfind := transition_eq_ok_iff.2 (hg.wellFormed.transition?_of_mem ht')
  refine ⟨arc, ?_⟩
  rw [arcOf_eq, ← hn, hfind, except_ok_bind, ha]
  rfl

lemma spares_copyArc (h : net.WellFormed) {p : Place} (hp : p ∈ net.places) (side : Side)
    {target trans : String} (hlink : trans ∈ p.links side) : Spares Error.isArcMissing net.Grown
      (do addArc side target trans (← look fun net => arcOf side net p.name trans)) := by
  refine (spares_look fun net₁ hg => ?_).bind fun arc =>
    spares_addArc (keeps_grown_addArc _ _ _ arc)
  obtain ⟨arc, ha⟩ := hg.arcOf_found h hp hlink
  exact ha ▸ avoids_ok arc

lemma copyPlace_avoids (h : net.WellFormed) {source : String} {targets : List String} {e : Error}
    (hs : copyPlace source targets net = .error e net') : e.isArcMissing = false := by
  obtain hl | ⟨p, net₁, hl, hloop⟩ := bind_eq_error.1 hs
  · exact avoids_place_lookup net source e (look_eq_error_iff.1 hl).1
  obtain ⟨hfind, rfl⟩ := look_eq_ok_iff.1 hl
  obtain ⟨hp, rfl⟩ := h.keyed.mem_of_place? (place_eq_ok_iff.1 hfind)
  refine (spares_forM fun target _ => ?_).error net₁ (grown_self h) e net' hloop
  have htyped : (p.copyAs target).Typed := h.typed p hp
  refine (spares_addPlace (keeps_grown_addPlace htyped)).bind fun _ => ?_
  exact (spares_forM fun trans hlink => spares_copyArc h hp .input hlink).bind fun _ =>
    spares_forM fun trans hlink => spares_copyArc h hp .output hlink

lemma copyTransition_avoids (h : net.WellFormed) {source : String} {targets : List String}
    {e : Error} (hs : copyTransition source targets net = .error e net') :
    e.isArcMissing = false := by
  have hspares : Spares Error.isArcMissing WellFormed (copyTransition source targets) :=
    (spares_look fun net _ => avoids_transition_lookup net source).bind fun _ =>
      spares_forM fun _ _ => spares_addTransition _
  exact hspares.error net h e net' hs

lemma avoids_arcsOf (h : net.WellFormed) (hg : net.Grown net') {places : List Place}
    (hp : ∀ p ∈ places, p ∈ net.places) (side : Side) :
    Avoids Error.isArcMissing (places.mapM fun p => (p.links side).mapM fun trans =>
      return (trans, ← arcOf side net' p.name trans)) := by
  refine avoids_mapM fun p hm => avoids_mapM fun trans hlink => Avoids.bind_pure ?_
  obtain ⟨arc, ha⟩ := hg.arcOf_found h (hp p hm) hlink
  exact ha ▸ avoids_ok arc

lemma mergePlaces_avoids (h : net.WellFormed) {target : String} {sources : List String} {e : Error}
    (hs : mergePlaces target sources net = .error e net') : e.isArcMissing = false := by
  obtain hl | ⟨places, net₁, hl, hmerge⟩ := bind_eq_error.1 hs
  · exact avoids_mapM (fun name _ => avoids_place_lookup net name) e (look_eq_error_iff.1 hl).1
  obtain ⟨hfind, rfl⟩ := look_eq_ok_iff.1 hl
  have hplaces : ∀ p ∈ places, p ∈ net₁.places := fun p hm => by
    obtain ⟨name, -, hname⟩ := (mem_of_mapM_ok hfind).1 p hm
    exact (h.keyed.mem_of_place? (place_eq_ok_iff.1 hname)).1
  cases places with
  | nil =>
    cases hmerge
    rfl
  | cons first rest =>
    obtain ⟨hf, hr⟩ := List.forall_mem_cons.1 hplaces
    have htyped : (mergedPlace target first rest).Typed :=
      mergedPlace_typed (h.typed first hf) fun p hm => h.typed p (hr p hm)
    refine Spares.error (P := net₁.Grown) ?_ net₁ (grown_self h) e net' hmerge
    refine (spares_addPlace (keeps_grown_addPlace htyped)).bind fun _ => ?_
    refine (spares_look fun net₂ hg => ?_).bind fun inputs =>
      (spares_look fun net₂ hg => ?_).bind fun outputs => ?_
    · exact (avoids_arcsOf h hg hplaces .input).bind_pure.bind_pure
    · exact (avoids_arcsOf h hg hplaces .output).bind_pure.bind_pure
    · refine Spares.bind ?_ fun _ => ?_
      · exact spares_forM fun e _ => spares_addJoint (keeps_grown_addArc .input _ _) e.2
      · exact spares_forM fun e _ => spares_addJoint (keeps_grown_addArc .output _ _) e.2

lemma mergeTransitions_avoids (h : net.WellFormed) {target : String} {sources : List String}
    {e : Error} (hs : mergeTransitions target sources net = .error e net') :
    e.isArcMissing = false := by
  have hfind : Spares Error.isArcMissing WellFormed (look fun net => sources.mapM net.transition) :=
    spares_look fun net _ => avoids_mapM fun name _ => avoids_transition_lookup net name
  refine (hfind.bind fun transitions => ?_).error net h e net' hs
  have hrest : Spares Error.isArcMissing WellFormed (do
      addBare target (jointGuard transitions)
      (groups (transitions.flatMap Transition.inputs)).forM fun e => addJointInput e.1 target e.2
      (groups (transitions.flatMap Transition.outputs)).forM fun e =>
        addJointOutput e.1 target e.2) :=
    (spares_addBare _ _).bind fun _ =>
      (spares_forM fun e _ => spares_addJoint (keeps_addArc .input _ _) e.2).bind fun _ =>
      spares_forM fun e _ => spares_addJoint (keeps_addArc .output _ _) e.2
  by_cases hempty : transitions.isEmpty = true
  · rw [if_pos hempty]
    exact (spares_throw rfl).bind fun _ => hrest
  · rwa [if_neg hempty]

end Net

end ColouredPetri
