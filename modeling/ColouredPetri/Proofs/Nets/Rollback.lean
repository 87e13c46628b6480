import ColouredPetri.Proofs.Nets.Connections
import ColouredPetri.Proofs.Nets.Copies

/-! What is left when a transition is taken out of a net. Its arcs can come and go without a change
to the rest, so that removing a new transition gives back the net from before it came. -/

namespace ColouredPetri

lemma filter_erase {n : String} (l : List String) :
    (l.erase n).filter (· != n) = l.filter (· != n) := by
  induction l with
  | nil => rfl
  | cons m l ih =>
    rw [List.erase_cons]
    split
    · next h => simp [beq_iff_eq.1 h]
    · rw [List.filter_cons, List.filter_cons, ih]

namespace Net

variable {net s : Net} {name trans place : String} {side : Side}

lemma filter_insertName (l : List String) :
    (insertName l name).filter (· != name) = l.filter (· != name) := by
  rw [insertName]
  split
  · rfl
  · simp

def dropLinks (name : String) (p : Place) : Place :=
  { p with pre := p.pre.filter (· != name), post := p.post.filter (· != name) }

def dropTransition (name : String) (net : Net) : Net :=
  net.withNodes (net.places.map (dropLinks name)) (net.transitions.filter (·.name != name))

lemma dropLinks_withLinks {p : Place} {links : List String}
    (h : links.filter (· != name) = (p.links side).filter (· != name)) :
    dropLinks name (p.withLinks side links) = dropLinks name p := by
  cases side <;> simp_all [dropLinks, Place.withLinks, Place.links]

lemma filter_withArcs {arcs : List (String × Arc)} (ts : List Transition) :
    (ts.map fun t => if t.name == name then t.withArcs side arcs else t).filter (·.name != name) =
      ts.filter (·.name != name) := by
  induction ts with
  | nil => rfl
  | cons t ts ih =>
    rw [List.map_cons, List.filter_cons, List.filter_cons, ih]
    by_cases hn : t.name = name <;> simp [hn]

lemma dropTransition_relink (h : net.WellFormed) {p : Place} (hp : p ∈ net.places)
    {arcs : List (String × Arc)} {links : List String}
    (hl : links.filter (· != name) = (p.links side).filter (· != name)) :
    dropTransition name (net.relink side p.name name arcs links) = dropTransition name net := by
  rw [relink, dropTransition, places_withNodes, transitions_withNodes, withNodes_withNodes,
    filter_withArcs, List.map_map, dropTransition]
  refine congrArg (net.withNodes · _) (List.map_congr_left fun q hq => ?_)
  rw [Function.comp_apply]
  split
  · next hn =>
    obtain rfl := h.place_eq hq hp (eq_of_beq hn)
    exact dropLinks_withLinks hl
  · rfl

lemma dropTransition_self (h : net.WellFormed) (hn : ∀ t ∈ net.transitions, t.name ≠ name) :
    dropTransition name net = net := by
  have hplaces : net.places.map (dropLinks name) = net.places := by
    refine (List.map_congr_left fun p hp => ?_).trans (List.map_id _)
    have hlinks : ∀ side, (p.links side).filter (· != name) = p.links side := fun side => by
      refine List.filter_eq_self.2 fun n hm => ?_
      obtain ⟨t, ht, rfl⟩ := h.links_transitions p hp side n hm
      simpa using hn t ht
    exact congrArg₂ (fun pre post => { p with pre := pre, post := post }) (hlinks .output)
      (hlinks .input)
  have htransitions : net.transitions.filter (·.name != name) = net.transitions :=
    List.filter_eq_self.2 fun t ht => by simpa using hn t ht
  rw [dropTransition, hplaces, htransitions, h.keyed.withNodes_self]

lemma dropTransition_withTransition (t : Transition) :
    dropTransition t.name (net.withTransition t) = dropTransition t.name net := by
  rw [dropTransition, transitions_withTransition, List.filter_append,
    List.filter_singleton, bne_self_eq_false, cond_false, List.append_nil]
  rfl

lemma dropTransition_withoutTransition (h : net.Keyed) :
    dropTransition name (net.withoutTransition name) = dropTransition name net := by
  have hgone : (net.withoutTransition name).transitions = net.transitions.filter (·.name != name) :=
    h.filter_transitions
  rw [dropTransition, hgone, List.filter_filter]
  simp only [Bool.and_self]
  rfl

def Without (net : Net) (name : String) (s : Net) : Prop :=
  s.WellFormed ∧ dropTransition name s = net

lemma keeps_without_addArc (side : Side) {arc : Arc} :
    Keeps (net.Without name) (addArc side place name arc) := by
  refine keeps_of_atomic (atomic_addArc side place name arc) fun s u s' ⟨hw, hs⟩ h => ?_
  refine ⟨(keeps_addArc side place name arc).of_ok hw h, ?_⟩
  obtain ⟨p, hp, t, -, rfl, rfl, -, -, -, rfl⟩ := addArc_ok hw h
  rw [dropTransition_relink hw hp (filter_insertName _), hs]

lemma keeps_without_removeArc (side : Side) :
    Keeps (net.Without name) (removeArc side place name) := by
  refine keeps_of_atomic (atomic_removeArc side place name) fun s arc s' ⟨hw, hs⟩ h => ?_
  refine ⟨(keeps_removeArc side place name).of_ok hw h, ?_⟩
  obtain ⟨p, hp, t, -, rfl, rfl, -, rfl⟩ := removeArc_ok hw h
  rw [dropTransition_relink hw hp (filter_erase _), hs]

lemma keeps_without_forM_removeArc (side : Side) (l : List (String × Arc)) :
    Keeps (net.Without name) (l.forM fun e => do let _ ← removeArc side e.1 name : Edit Unit) :=
  keeps_forM fun _ _ => keeps_bind (keeps_without_removeArc side) fun _ => keeps_pure _

lemma removeTransition_eq (h : net.WellFormed) {t : Transition} (ht : t ∈ net.transitions) :
    ∃ u, removeTransition t.name net = .ok u (dropTransition t.name net) := by
  obtain ⟨u, net', hok⟩ := removeTransition_succeeds h ht
  have hw : net'.WellFormed := (keeps_removeTransition t.name).of_ok h hok
  obtain ⟨_, net₀, hlook, hruns⟩ := bind_eq_ok.1 hok
  obtain ⟨-, rfl⟩ := look_eq_ok_iff.1 hlook
  obtain ⟨_, net₁, hinputs, hruns⟩ := bind_eq_ok.1 hruns
  obtain ⟨_, net₂, houtputs, hruns⟩ := bind_eq_ok.1 hruns
  obtain ⟨_, net₃, hlook, hwrite⟩ := bind_eq_ok.1 hruns
  obtain ⟨-, rfl⟩ := look_eq_ok_iff.1 hlook
  obtain rfl : net₃.withoutTransition t.name = net' := (EStateM.Result.ok.inj hwrite).2
  have h₁ : (dropTransition t.name net₀).Without t.name net₁ :=
    (keeps_without_forM_removeArc .input _).of_ok ⟨h, rfl⟩ hinputs
  have h₂ : (dropTransition t.name net₀).Without t.name net₃ :=
    (keeps_without_forM_removeArc .output _).of_ok h₁ houtputs
  refine ⟨u, hok.trans (congrArg (EStateM.Result.ok u) ?_)⟩
  rw [← h₂.2, ← dropTransition_withoutTransition h₂.1.keyed]
  exact (dropTransition_self hw fun v hv => ((mem_withoutTransition h₂.1.keyed).1 hv).2).symm

def addUnprotected (t : Transition) : Edit Unit := do
  addBare t.name t.guard
  connect t.name t.inputs t.outputs

/-- Whatever is connected to a new transition before an arc is refused is taken off again, which
does not fail and so does not hide the error. -/
lemma addTransition_eq (h : net.WellFormed) (t : Transition) : addTransition t net =
    match addUnprotected t net with
    | .ok u net' => .ok u net'
    | .error e _ => .error e net := by
  cases hbare : addBare t.name t.guard net with
  | error e net₁ =>
    obtain rfl := atomic_addBare _ _ _ hbare
    rw [addTransition, addUnprotected, bind_of_error _ hbare, bind_of_error _ hbare]
  | ok u net₁ =>
    have h₁ : net₁.WellFormed := (keeps_addBare t.name t.guard).of_ok h hbare
    rw [addTransition, addUnprotected, bind_of_ok _ hbare, bind_of_ok _ hbare, undoing]
    cases hconnect : connect t.name t.inputs t.outputs net₁ with
    | ok v net₂ => rfl
    | error d net₂ =>
      rw [addBare_eq_step, step_eq_ok_iff] at hbare
      obtain ⟨_, hfresh, hadd⟩ := except_bind_eq_ok.1 hbare
      cases hadd
      have hothers : ∀ u ∈ net.transitions, u.name ≠ t.name := fun u hu hn =>
        h.keyed.ensureFresh_eq_ok_iff.1 hfresh (hn ▸ transition_name_mem hu)
      have hstart : net.Without t.name (net.withTransition (.bare t.name t.guard)) :=
        ⟨h₁, (dropTransition_withTransition _).trans (dropTransition_self h hothers)⟩
      have hgrown : (net.withTransition (.bare t.name t.guard)).Grown net₂ :=
        after_of_error hconnect ▸
          keeps_connect (keeps_grown_addArc · · _ ·) t.inputs t.outputs _ (grown_self h₁)
      have hdropped : net.Without t.name net₂ :=
        after_of_error hconnect ▸
          keeps_connect (fun side _ _ => keeps_without_addArc side) t.inputs t.outputs _ hstart
      obtain ⟨u, hu, hn, -⟩ := hgrown.kept _ (mem_withTransition.2 (.inr rfl))
      obtain ⟨v, hremove⟩ := removeTransition_eq hgrown.wellFormed hu
      rw [show u.name = t.name from hn, hdropped.2] at hremove
      simp only [hremove]

end Net

end ColouredPetri
