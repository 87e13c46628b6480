import ColouredPetri.Proofs.Descriptions.Types

/-! Building a net from its own description. No step of the construction is refused, since a
well-formed net obeys what the steps check, and it gives the same nodes, arcs and tokens again. -/

namespace ColouredPetri

def Place.rebuilt (p : Place) : Place := ⟨p.name, p.tokens, p.type.described, [], []⟩

def Place.unlinked (p : Place) : Place := { p with pre := [], post := [] }

lemma PlaceDescription.build_ofPlace {p : Place} (h : p.Typed) :
    (PlaceDescription.ofPlace p).build = .ok p.rebuilt := by
  refine Net.add_eq_ok_iff.2 ⟨fun v hv => TokenType.accepts_described_of_accepts (h v hv), ?_⟩
  have htokens : Bag.empty + p.tokens = p.tokens := zero_add p.tokens
  exact congrArg (fun tokens => Place.mk p.name tokens p.type.described [] []) htokens.symm

namespace Net

open NetDescription

def unlinked (net : Net) : Net := net.withNodes (net.places.map Place.unlinked) net.transitions

lemma names_unlinked (net : Net) : net.unlinked.names = net.names := by
  simp only [names, unlinked, places_withNodes, transitions_withNodes, List.map_map]
  rfl

section Places

variable {name : String} {globals : Binding} {ps qs : List Place}

lemma addDescribedPlace_ofPlace {p : Place} (hp : p.Typed) (hn : p.name ∉ qs.map Place.name) :
    addDescribedPlace (.ofPlace p) (ofNodes name qs [] globals) =
      .ok () (ofNodes name (qs ++ [p.rebuilt]) [] globals) := by
  have hfresh : (ofNodes name qs [] globals).ensureFresh p.rebuilt.name = .ok () := by
    refine (keyed_ofNodes name qs [] globals).ensureFresh_eq_ok_iff.2 ?_
    rw [names, places_ofNodes, transitions_ofNodes, List.map_nil, List.append_nil]
    exact hn
  refine bind_eq_ok.2 ⟨p.rebuilt, _, look_eq_ok_iff.2 ⟨?_, rfl⟩, ?_⟩
  · exact mapError_eq_ok_iff.2 (PlaceDescription.build_ofPlace hp)
  · rw [addPlace_eq_step, step_eq_ok_iff, hfresh, ofNodes, ofNodes, named_append]
    rfl

lemma forM_addDescribedPlace (hp : ∀ p ∈ ps, p.Typed)
    (hn : (qs.map Place.name ++ ps.map Place.name).Nodup) :
    (ps.map PlaceDescription.ofPlace).forM addDescribedPlace (ofNodes name qs [] globals) =
      .ok () (ofNodes name (qs ++ ps.map Place.rebuilt) [] globals) := by
  induction ps generalizing qs with
  | nil =>
    rw [List.map_nil, List.map_nil, List.append_nil]
    rfl
  | cons p ps ih =>
    obtain ⟨hp, hps⟩ := List.forall_mem_cons.1 hp
    have hnot : p.name ∉ qs.map Place.name := fun h =>
      (List.nodup_append.1 hn).2.2 p.name h p.name List.mem_cons_self rfl
    rw [List.map_cons, forM_cons_eq_ok]
    refine ⟨_, addDescribedPlace_ofPlace hp hnot, ?_⟩
    rw [ih hps, List.map_cons, List.append_assoc]
    · rfl
    · rw [List.map_append, List.append_assoc]
      exact hn

end Places

section Transitions

variable {shape net : Net} {ps : List Place} {ts : List Transition} {t : Transition} {side : Side}
  {place : String} {arc : Arc}

lemma unlinked_relink {trans : String} {arcs : List (String × Arc)} {links : List String} :
    (net.relink side place trans arcs links).unlinked =
      net.unlinked.withNodes net.unlinked.places
        (net.relink side place trans arcs links).transitions := by
  have hplace : ∀ p : Place,
      (if p.name == place then p.withLinks side links else p).unlinked = p.unlinked := fun p => by
    split
    · cases side <;> rfl
    · rfl
  simp only [unlinked, relink, withNodes_withNodes, places_withNodes, transitions_withNodes,
    List.map_map, Function.comp_def, hplace]

structure Shaped (shape : Net) (ps : List Place) (ts : List Transition) (net : Net) : Prop where
  wellFormed : net.WellFormed
  unlinked_eq : net.unlinked = shape.withNodes ps ts

namespace Shaped

variable (h : Shaped shape ps ts net)

include h

lemma names_eq : net.names = ps.map Place.name ++ ts.map Transition.name := by
  rw [← names_unlinked, h.unlinked_eq, names, places_withNodes, transitions_withNodes]

lemma transitions_eq : net.transitions = ts := by
  have hts := congrArg transitions h.unlinked_eq
  rwa [unlinked, transitions_withNodes, transitions_withNodes] at hts

lemma exists_place (hp : place ∈ ps.map Place.name) : ∃ p ∈ net.places, p.name = place := by
  have hps := congrArg places h.unlinked_eq
  rw [unlinked, places_withNodes, places_withNodes] at hps
  rw [← hps, List.map_map] at hp
  exact List.mem_map.1 hp

end Shaped

lemma addArc_succeeds (h : net.WellFormed) {p : Place} (hp : p ∈ net.places)
    (ht : t ∈ net.transitions) (hk : p.name ∉ t.keys side) (hv : arc.validate = .ok ())
    (ha : side = .input → arc.inputAllowed = true) :
    ∃ net', addArc side p.name t.name arc net = .ok () net' := by
  have hpl := place_eq_ok_iff.2 (h.place?_of_mem hp)
  have htr := transition_eq_ok_iff.2 (h.transition?_of_mem ht)
  obtain ⟨t', ht'⟩ : ∃ t', Transition.addArc side t p.name arc = .ok t' := by
    cases side with
    | input =>
      have hnot : ¬(t.inputs.lookup p.name).isSome = true := mt lookup_isSome_iff.1 hk
      rw [Transition.addArc, Transition.addInput, Transition.input?, if_neg hnot, hv]
      exact ⟨_, if_pos (ha rfl)⟩
    | output =>
      have hnot : ¬(t.outputs.lookup p.name).isSome = true := mt lookup_isSome_iff.1 hk
      rw [Transition.addArc, Transition.addOutput, Transition.output?, if_neg hnot, hv]
      exact ⟨_, rfl⟩
  simp only [addArc_eq_step, step_eq_ok_iff, hpl, htr, ht', except_ok_bind, lift_structural,
    Except.mapError]
  exact ⟨_, rfl⟩

lemma addArc_shaped (h : Shaped shape ps (ts ++ [t]) net)
    (hp : place ∈ ps.map Place.name) (hk : place ∉ t.keys side)
    (hv : arc.validate = .ok ()) (ha : side = .input → arc.inputAllowed = true) :
    ∃ net', addArc side place t.name arc net = .ok () net' ∧
      Shaped shape ps (ts ++ [t.withArcs side (t.arcs side ++ [(place, arc)])]) net' := by
  obtain ⟨p, hpm, rfl⟩ := h.exists_place hp
  have htransitions : net.transitions = ts ++ [t] := h.transitions_eq
  have ht : t ∈ net.transitions := by
    rw [htransitions]
    exact List.mem_append_right ts (List.mem_singleton_self t)
  obtain ⟨net', hadd⟩ := addArc_succeeds h.wellFormed hpm ht hk hv ha
  refine ⟨net', hadd, (keeps_addArc side p.name t.name arc).of_ok h.wellFormed hadd, ?_⟩
  obtain ⟨q, -, u, hu, -, hn, -, -, -, rfl⟩ := addArc_ok h.wellFormed hadd
  obtain rfl := h.wellFormed.transition_eq hu ht hn
  have hnodup := h.wellFormed.transitions_nodup
  rw [htransitions, List.map_append, List.nodup_append] at hnodup
  have hothers : ∀ t ∈ ts, (t.name == u.name) = false := fun t ht =>
    beq_false_of_ne (hnodup.2.2 t.name (List.mem_map_of_mem ht) u.name (List.mem_singleton_self _))
  rw [unlinked_relink, h.unlinked_eq, relink, transitions_withNodes, htransitions, List.map_append,
    List.map_singleton, if_pos (beq_self_eq_true u.name)]
  have hkeep : (ts.map fun t => if t.name == u.name then
      t.withArcs side (u.arcs side ++ [(p.name, arc)]) else t) = ts :=
    (List.map_congr_left fun t ht => by rw [hothers t ht]; rfl).trans (List.map_id ts)
  rw [hkeep, places_withNodes, withNodes_withNodes]

lemma forM_addArc_shaped (side : Side) {l : List (String × Arc)}
    (h : Shaped shape ps (ts ++ [t]) net)
    (hp : ∀ e ∈ l, e.1 ∈ ps.map Place.name) (hk : (t.keys side ++ l.map Prod.fst).Nodup)
    (hv : ∀ e ∈ l, e.2.validate = .ok ()) (ha : side = .input → ∀ e ∈ l, e.2.inputAllowed = true) :
    ∃ net', l.forM (fun e => addArc side e.1 t.name e.2) net = .ok () net' ∧
      Shaped shape ps (ts ++ [t.withArcs side (t.arcs side ++ l)]) net' := by
  induction l generalizing net t with
  | nil =>
    refine ⟨net, rfl, ?_⟩
    have hsame : t.withArcs side (t.arcs side ++ []) = t := by
      rw [List.append_nil]
      cases side <;> rfl
    rwa [hsame]
  | cons e l ih =>
    obtain ⟨hpe, hp⟩ := List.forall_mem_cons.1 hp
    obtain ⟨hve, hv⟩ := List.forall_mem_cons.1 hv
    have hke : e.1 ∉ t.keys side := fun hmem =>
      (List.nodup_append.1 hk).2.2 e.1 hmem e.1 List.mem_cons_self rfl
    obtain ⟨net₁, hadd, h₁⟩ :=
      addArc_shaped h hpe hke hve fun hs => (List.forall_mem_cons.1 (ha hs)).1
    have harcs : (t.withArcs side (t.arcs side ++ [(e.1, e.2)])).arcs side =
        t.arcs side ++ [(e.1, e.2)] := by
      rw [Transition.withArcs_arcs, if_pos rfl]
    obtain ⟨net₂, hrest, h₂⟩ := ih h₁ hp (by
      rw [Transition.keys, harcs, List.map_append, List.append_assoc]
      exact hk) hv fun hs => (List.forall_mem_cons.1 (ha hs)).2
    rw [harcs, List.append_assoc, Transition.withArcs_name] at *
    refine ⟨net₂, forM_cons_eq_ok.2 ⟨net₁, hadd, hrest⟩, ?_⟩
    have htwice : ∀ l₁ l₂ : List (String × Arc),
        (t.withArcs side l₁).withArcs side l₂ = t.withArcs side l₂ := fun _ _ => by
      cases side <;> rfl
    rwa [htwice] at h₂

structure Attachable (places : List String) (t : Transition) : Prop where
  keys_nodup : ∀ side, (t.keys side).Nodup
  keys_places : ∀ side, ∀ e ∈ t.arcs side, e.1 ∈ places
  valid : ∀ side, ∀ e ∈ t.arcs side, e.2.validate = .ok ()
  allowed : ∀ e ∈ t.inputs, e.2.inputAllowed = true

lemma addDescribedTransition_shaped (h : Shaped shape ps ts net)
    (hn : t.name ∉ ps.map Place.name ++ ts.map Transition.name)
    (ht : Attachable (ps.map Place.name) t) :
    ∃ net', addDescribedTransition (.ofTransition t) net = .ok () net' ∧
      Shaped shape ps (ts ++ [t]) net' := by
  have hfresh : net.ensureFresh t.name = .ok () :=
    h.wellFormed.keyed.ensureFresh_eq_ok_iff.2 (h.names_eq ▸ hn)
  have hbare : addBare t.name t.guard net = .ok () (net.withTransition (.bare t.name t.guard)) := by
    rw [addBare_eq_step, step_eq_ok_iff, hfresh]
    rfl
  have h₁ : Shaped shape ps (ts ++ [.bare t.name t.guard])
      (net.withTransition (.bare t.name t.guard)) := by
    refine ⟨(keeps_addBare t.name t.guard).of_ok h.wellFormed hbare, ?_⟩
    have hshape : (net.withTransition (.bare t.name t.guard)).unlinked =
        net.unlinked.withNodes net.unlinked.places (ts ++ [.bare t.name t.guard]) := by
      rw [unlinked, transitions_withTransition, h.transitions_eq, unlinked, places_withNodes]
      rfl
    rw [hshape, h.unlinked_eq, places_withNodes, withNodes_withNodes]
  obtain ⟨net₂, hinputs, h₂⟩ := forM_addArc_shaped .input h₁ (ht.keys_places .input)
    (ht.keys_nodup .input) (ht.valid .input) fun _ => ht.allowed
  obtain ⟨net₃, houtputs, h₃⟩ := forM_addArc_shaped .output h₂ (ht.keys_places .output)
    (ht.keys_nodup .output) (ht.valid .output) fun hs => Side.noConfusion hs
  exact ⟨net₃, bind_eq_ok.2 ⟨(), _, hbare, bind_eq_ok.2 ⟨(), _, hinputs, houtputs⟩⟩, h₃⟩

lemma forM_addDescribedTransition_shaped {us : List Transition} (h : Shaped shape ps ts net)
    (hn : (ps.map Place.name ++ ts.map Transition.name ++ us.map Transition.name).Nodup)
    (hu : ∀ u ∈ us, Attachable (ps.map Place.name) u) :
    ∃ net', (us.map TransitionDescription.ofTransition).forM addDescribedTransition net =
        .ok () net' ∧ Shaped shape ps (ts ++ us) net' := by
  induction us generalizing ts net with
  | nil =>
    refine ⟨net, rfl, ?_⟩
    rwa [List.append_nil]
  | cons u us ih =>
    obtain ⟨hu, hus⟩ := List.forall_mem_cons.1 hu
    have hfresh : u.name ∉ ps.map Place.name ++ ts.map Transition.name := fun hmem =>
      (List.nodup_append.1 hn).2.2 u.name hmem u.name List.mem_cons_self rfl
    obtain ⟨net₁, hadd, h₁⟩ := addDescribedTransition_shaped h hfresh hu
    have hn₁ : (ps.map Place.name ++ (ts ++ [u]).map Transition.name ++
        us.map Transition.name).Nodup := by
      simpa using hn
    obtain ⟨net₂, hrest, h₂⟩ := ih h₁ hn₁ hus
    refine ⟨net₂, forM_cons_eq_ok.2 ⟨net₁, hadd, hrest⟩, ?_⟩
    simpa only [List.append_assoc, List.singleton_append] using h₂

end Transitions

lemma keeps_addDescribedPlace (d : PlaceDescription) :
    Keeps WellFormed (addDescribedPlace d) :=
  keeps_look_bind fun _ _ _ hq => keeps_addPlace (Place.typed_of_build (mapError_eq_ok_iff.1 hq))

lemma WellFormed.attachable {net : Net} (h : net.WellFormed) {t : Transition}
    (ht : t ∈ net.transitions) : Attachable (net.places.map Place.name) t where
  keys_nodup := h.keys_nodup t ht
  keys_places side e he := by
    obtain ⟨p, hp, hn⟩ := h.keys_places t ht side e.1 (List.mem_map_of_mem he)
    exact List.mem_map.2 ⟨p, hp, hn⟩
  valid := h.valid t ht
  allowed := h.allowed t ht

lemma build_ofNet {net : Net} (h : net.WellFormed) :
    ∃ net', (ofNet net).build = .ok net' ∧ net'.WellFormed ∧
      net'.unlinked = net.withNodes (net.places.map Place.rebuilt) net.transitions := by
  have hnames : (net.places.map Place.rebuilt).map Place.name = net.places.map Place.name := by
    rw [List.map_map]
    rfl
  have hplaces : (net.places.map PlaceDescription.ofPlace).forM addDescribedPlace
      (ofNodes net.name [] [] net.globals) =
        .ok () (net.withNodes (net.places.map Place.rebuilt) []) :=
    forM_addDescribedPlace h.typed h.places_nodup
  have hshaped : Shaped net (net.places.map Place.rebuilt) []
      (net.withNodes (net.places.map Place.rebuilt) []) := by
    refine ⟨(keeps_forM fun d _ => keeps_addDescribedPlace d).of_ok
      (empty_wellFormed net.name net.globals) hplaces, ?_⟩
    rw [unlinked, places_withNodes, transitions_withNodes, withNodes_withNodes, List.map_map]
    rfl
  have hnodup : ((net.places.map Place.rebuilt).map Place.name ++ [].map Transition.name ++
      net.transitions.map Transition.name).Nodup := by
    rw [hnames, List.map_nil, List.append_nil]
    exact h.names_nodup
  obtain ⟨net', htransitions, hshape⟩ := forM_addDescribedTransition_shaped hshaped hnodup
    fun t ht => by
      rw [hnames]
      exact h.attachable ht
  refine ⟨net', ?_, hshape.wellFormed, hshape.unlinked_eq⟩
  have hconstruct : (ofNet net).construct ⟨(ofNet net).name, [], [], (ofNet net).globals⟩ =
      .ok () net' :=
    bind_eq_ok.2 ⟨(), _, hplaces, htransitions⟩
  rw [build, hconstruct]

end Net

end ColouredPetri
