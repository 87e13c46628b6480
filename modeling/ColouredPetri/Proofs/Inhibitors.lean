import ColouredPetri.Proofs.EnabledModes
import ColouredPetri.Proofs.FiringOutcome

namespace ColouredPetri

namespace Arc

variable {globals : Binding} {inner : Arc} {condition : Formula} {available : Bag}
  {found : List Binding}

def LetsThrough (globals : Binding) (inner : Arc) (condition : Formula) (available : Bag) : Prop :=
  match inner.modes globals available with
  | .error e => e.isMode = true
  | .ok found => ∀ b ∈ found, condition.holds ⟨b, globals⟩ = .ok false

lemma witness?_eq_none_iff : witness? globals condition found = .ok none ↔
    ∀ b ∈ found, condition.holds ⟨b, globals⟩ = .ok false := by
  induction found with
  | nil => exact iff_of_true rfl nofun
  | cons b l ih =>
    rw [witness?, lift_eval, except_bind_eq_ok, List.forall_mem_cons, ← ih]
    simp only [mapError_eq_ok_iff]
    constructor
    · rintro ⟨holds, hh, h⟩
      cases holds with
      | true => cases h
      | false => exact ⟨hh, h⟩
    · rintro ⟨hh, h⟩
      exact ⟨false, hh, h⟩

lemma modes_inhibitor_eq_ok_iff : (inhibitor inner condition).modes globals available = .ok found ↔
    LetsThrough globals inner condition available ∧ found = [Table.empty] := by
  rw [modes, LetsThrough]
  cases inner.modes globals available with
  | error e => cases he : e.isMode <;> simp [he, eq_comm]
  | ok l =>
    change (witness? globals condition l >>= _) = _ ↔ (∀ b ∈ l, _) ∧ _
    rw [← witness?_eq_none_iff, except_bind_eq_ok]
    constructor
    · rintro ⟨witness, hw, h⟩
      cases witness with
      | some b => cases h
      | none => exact ⟨hw, (Except.ok.inj h).symm⟩
    · rintro ⟨hw, rfl⟩
      exact ⟨none, hw, rfl⟩

end Arc

namespace Net

variable {net net' : Net} {b : Binding} {place trans : String} {arc : Arc}

section Relink

variable {side : Side} {arcs : List (String × Arc)} {links : List String}

lemma place?_relink (h : net.Keyed) (name : String) :
    (net.relink side place trans arcs links).place? name = (net.place? name).map
      fun p => if p.name == place then p.withLinks side links else p := by
  have hname : ∀ p : Place,
      (if p.name == place then p.withLinks side links else p).name = p.name := fun p => by
    split
    · exact Place.withLinks_name p side links
    · rfl
  rw [relink, place?_withNodes, h.place?_eq, List.find?_map]
  simp only [Function.comp_def, hname]

lemma transition?_relink (h : net.Keyed) (name : String) :
    (net.relink side place trans arcs links).transition? name = (net.transition? name).map
      fun t => if t.name == trans then t.withArcs side arcs else t := by
  have hname : ∀ t : Transition,
      (if t.name == trans then t.withArcs side arcs else t).name = t.name := fun t => by
    split
    · exact Transition.withArcs_name t side arcs
    · rfl
  rw [relink, transition?_withNodes, h.transition?_eq, List.find?_map]
  simp only [Function.comp_def, hname]

lemma place_relink_bind (h : net.Keyed) {α : Type} {f : Place → Except Error α}
    (hf : ∀ p, f (p.withLinks side links) = f p) (name : String) :
    ((net.relink side place trans arcs links).place name >>= f) = net.place name >>= f := by
  rw [Net.place, Net.place, place?_relink h]
  cases net.place? name with
  | none => rfl
  | some p =>
    change f (if p.name == place then _ else p) = f p
    split
    · exact hf p
    · rfl

lemma check_relink (h : net.Keyed) (t : Transition) (tokens input : Bool) :
    (net.relink side place trans arcs links).check t b tokens input =
      net.check t b tokens input := by
  have hscope : (net.relink side place trans arcs links).scope b = net.scope b := rfl
  have havailable : (net.relink side place trans arcs links).available b = net.available b :=
    funext₂ fun name arc => place_relink_bind h (fun p => by cases side <;> rfl) name
  have htypes : (net.relink side place trans arcs links).typesRespected b = net.typesRespected b :=
    funext₂ fun name arc => place_relink_bind h (fun p => by cases side <;> rfl) name
  rw [check, check, hscope, havailable, htypes]

lemma arcFlows_relink (l : List (String × Arc)) :
    (net.relink side place trans arcs links).arcFlows b l = net.arcFlows b l := by
  have hscope : (net.relink side place trans arcs links).scope b = net.scope b := rfl
  induction l with
  | nil => rfl
  | cons e l ih => rw [arcFlows, arcFlows, ih, hscope]

lemma marking_relink : (net.relink side place trans arcs links).marking = net.marking := by
  simp only [marking, relink, places_withNodes, List.map_map]
  refine congrArg Marking.ofList (List.map_congr_left fun p _ => ?_)
  rw [Function.comp_apply]
  split
  · cases side <;> rfl
  · rfl

lemma accepts_relink {m : Marking} :
    (net.relink side place trans arcs links).Accepts m ↔ net.Accepts m := by
  have hsame : ∀ p : Place, (∀ v ∈ (m.tokens (p.withLinks side links).name).toList,
      (p.withLinks side links).type.accepts v = true) ↔
        ∀ v ∈ (m.tokens p.name).toList, p.type.accepts v = true := fun p => by
    cases side <;> rfl
  simp only [Accepts, relink, places_withNodes, List.forall_mem_map]
  refine forall₂_congr fun p _ => ?_
  split
  · exact hsame p
  · rfl

end Relink

section Idle

variable {l : List (String × Arc)}

lemma withoutArc_cons (e : String × Arc) (l : List (String × Arc)) :
    Transition.withoutArc (e :: l) place =
      if e.1 = place then Transition.withoutArc l place
        else e :: Transition.withoutArc l place := by
  rw [Transition.withoutArc, List.filter_cons]
  by_cases hn : e.1 = place
  · rw [if_neg (by simpa using hn), if_pos hn, Transition.withoutArc]
  · rw [if_pos (by simpa using hn), if_neg hn, Transition.withoutArc]

lemma allArcs_withoutArc (test : String → Arc → Except Error Bool)
    (h : ∀ e ∈ l, e.1 = place → test e.1 e.2 = .ok true) :
    allArcs test (Transition.withoutArc l place) = allArcs test l := by
  induction l with
  | nil => rfl
  | cons e l ih =>
    obtain ⟨he, h⟩ := List.forall_mem_cons.1 h
    rw [withoutArc_cons]
    split
    · next hn =>
      rw [ih h, allArcs, he hn]
      rfl
    · rw [allArcs, allArcs, ih h]

lemma map_ofList_cons (flows : Except Error (List (String × Bag))) (e : String × Bag) :
    (flows >>= fun l => .ok (e :: l)).map Marking.ofList =
      (flows.map Marking.ofList).map (· + Marking.single e.1 e.2) := by
  cases flows with
  | error _ => rfl
  | ok l => exact congrArg Except.ok (Marking.ofList_cons e l)

lemma single_empty (name : String) : Marking.single name Bag.empty = 0 := by
  refine Marking.ext_tokens fun p => ?_
  rw [Marking.single, Marking.tokens_set]
  split <;> rfl

lemma arcFlows_withoutArc (h : ∀ e ∈ l, e.1 = place → e.2.flow (net.scope b) = .ok Bag.empty) :
    (net.arcFlows b (Transition.withoutArc l place)).map Marking.ofList =
      (net.arcFlows b l).map Marking.ofList := by
  induction l with
  | nil => rfl
  | cons e l ih =>
    obtain ⟨he, h⟩ := List.forall_mem_cons.1 h
    rw [withoutArc_cons]
    split
    · next hn =>
      rw [ih h, arcFlows, he hn, except_ok_bind]
      change _ = (net.arcFlows b l >>= fun rest => .ok ((e.1, Bag.empty) :: rest)).map _
      rw [map_ofList_cons, single_empty]
      cases net.arcFlows b l with
      | error _ => rfl
      | ok fs => exact congrArg Except.ok (add_zero _).symm
    · rw [arcFlows, arcFlows]
      cases e.2.flow (net.scope b) with
      | error _ => rfl
      | ok f =>
        change (_ >>= fun rest => Except.ok ((e.1, f) :: rest)).map _ =
          (_ >>= fun rest => Except.ok ((e.1, f) :: rest)).map _
        rw [map_ofList_cons, map_ofList_cons, ih h]

def Idle (net : Net) (b : Binding) (e : String × Arc) : Prop :=
  net.available b e.1 e.2 = .ok true ∧ net.typesRespected b e.1 e.2 = .ok true ∧
    e.2.flow (net.scope b) = .ok Bag.empty

variable {t : Transition}

lemma check_withoutArc (h : ∀ e ∈ t.inputs, e.1 = place → net.Idle b e) (tokens input : Bool) :
    net.check (t.withArcs .input (Transition.withoutArc t.inputs place)) b tokens input =
      net.check t b tokens input := by
  have havailable := allArcs_withoutArc (net.available b) fun e he hn => (h e he hn).1
  have htypes := allArcs_withoutArc (net.typesRespected b) fun e he hn => (h e he hn).2.1
  rw [check, check]
  simp only [Transition.withArcs, havailable, htypes]

lemma flowOf_eq (t : Transition) : net.flowOf t b = (do
    if !(← net.enabledBy t b) then throw (.firing (.notEnabled t.name b))
    let consumed ← (net.arcFlows b t.inputs).map Marking.ofList
    let produced ← (net.arcFlows b t.outputs).map Marking.ofList
    return (consumed, produced)) := by
  rw [flowOf]
  cases net.arcFlows b t.inputs with
  | error _ => rfl
  | ok _ => cases net.arcFlows b t.outputs <;> rfl

lemma flowOf_withoutArc (h : ∀ e ∈ t.inputs, e.1 = place → net.Idle b e) :
    net.flowOf (t.withArcs .input (Transition.withoutArc t.inputs place)) b = net.flowOf t b := by
  have hflows := arcFlows_withoutArc fun e he hn => (h e he hn).2.2
  rw [flowOf_eq, flowOf_eq, enabledBy, enabledBy, check_withoutArc h, Transition.withArcs_name]
  simp only [Transition.withArcs, hflows]

end Idle

section Inhibitor

variable {inner : Arc} {condition : Formula} {t : Transition}

lemma eq_of_lookup (h : net.WellFormed) (ht : t ∈ net.transitions) {side : Side}
    (hl : (t.arcs side).lookup place = some arc) {e : String × Arc} (he : e ∈ t.arcs side)
    (hn : e.1 = place) : e = (place, arc) :=
  List.inj_on_of_nodup_map (h.keys_nodup t ht side) he (mem_of_lookup hl) hn

lemma idle_inhibitor (h : net.WellFormed) {p : Place} (hp : p ∈ net.places) (b : Binding) :
    net.Idle b (p.name, .inhibitor inner condition) := by
  have hplace := h.place?_of_mem hp
  refine ⟨available_eq_true_iff.2 ⟨p, Bag.empty, hplace, rfl, rfl⟩, ?_, rfl⟩
  exact typesRespected_eq_true_iff.2 ⟨p, [], hplace, rfl, List.forall_mem_nil _⟩

lemma flow_withoutInhibitor (h : net.WellFormed) {p : Place} (hp : p ∈ net.places)
    (ht : t ∈ net.transitions)
    (hl : (t.arcs .input).lookup p.name = some (.inhibitor inner condition))
    (links : List String) (name : String) (b : Binding) :
    (net.relink .input p.name t.name (Transition.withoutArc (t.arcs .input) p.name) links).flow
      name b = net.flow name b := by
  have hidle : ∀ e ∈ t.inputs, e.1 = p.name → net.Idle b e := fun e he hn =>
    eq_of_lookup h ht hl he hn ▸ idle_inhibitor h hp b
  have hflowOf : ∀ u, (net.relink .input p.name t.name
      (Transition.withoutArc (t.arcs .input) p.name) links).flowOf u b = net.flowOf u b := fun u => by
    simp only [flowOf, enabledBy, check_relink h.keyed, arcFlows_relink]
  rw [flow, flow, transition, transition, transition?_relink h.keyed]
  cases hu : net.transition? name with
  | none => rfl
  | some u =>
    simp only [Option.map_some, except_ok_bind, hflowOf]
    split
    · next hn =>
      rw [h.transition_eq (h.keyed.mem_of_transition? hu).1 ht (eq_of_beq hn)]
      exact flowOf_withoutArc hidle
    · rfl

end Inhibitor

lemma fired_iff (h : net.WellFormed) {m : Marking} :
    (∃ net', fire trans b net = .ok () net' ∧ net'.marking = m) ↔
      ∃ consumed produced left, net.flow trans b = .ok (consumed, produced) ∧
        left + consumed = net.marking ∧ net.Accepts produced ∧ left + produced = m := by
  simp only [fire_eq_ok_iff h]
  constructor
  · rintro ⟨_, ⟨consumed, produced, left, hf, hl, ha, rfl⟩, rfl⟩
    have hcovers : net.Covers (left + produced) :=
      (Covers.of_add (n := consumed) (hl ▸ covers_marking)).add (covers_flow h hf).2
    exact ⟨consumed, produced, left, hf, hl, ha, (marking_restore h hcovers).symm⟩
  · rintro ⟨consumed, produced, left, hf, hl, ha, rfl⟩
    have hcovers : net.Covers (left + produced) :=
      (Covers.of_add (n := consumed) (hl ▸ covers_marking)).add (covers_flow h hf).2
    exact ⟨_, ⟨consumed, produced, left, hf, hl, ha, rfl⟩, marking_restore h hcovers⟩

lemma inputArc_eq_ok_iff : net.inputArc place trans = .ok arc ↔
    ∃ t, net.transition? trans = some t ∧ (t.arcs .input).lookup place = some arc := by
  rw [inputArc, except_bind_eq_ok]
  refine exists_congr fun t => and_congr transition_eq_ok_iff ?_
  change _ ↔ t.input? place = some arc
  cases t.input? place with
  | none => exact iff_of_false nofun nofun
  | some found =>
    rw [Option.some_inj]
    exact ⟨Except.ok.inj, congrArg Except.ok⟩

lemma letsThrough_of_mem_modes {inner : Arc} {condition : Formula} {modes : List Binding}
    (harc : net.inputArc place trans = .ok (.inhibitor inner condition))
    (hm : net.modes trans = .ok modes) (hb : b ∈ modes) : ∃ p, net.place? place = some p ∧
      (Arc.inhibitor inner condition).modes net.globals p.tokens = .ok [Table.empty] ∧
      Arc.LetsThrough net.globals inner condition p.tokens := by
  obtain ⟨t, ht, hl⟩ := inputArc_eq_ok_iff.1 harc
  obtain ⟨u, hu, hm⟩ := except_bind_eq_ok.1 hm
  cases ht.symm.trans (transition_eq_ok_iff.1 hu)
  obtain ⟨p, found, hp, hfound, -⟩ := (mem_modesOf hm hb).2 _ (mem_of_lookup hl)
  obtain ⟨hclear, rfl⟩ := Arc.modes_inhibitor_eq_ok_iff.1 hfound
  exact ⟨p, hp, hfound, hclear⟩

/-- An inhibitor lets its transition through under each mode that the search gives. For a firing it
makes no difference: without it, the same bindings fire, and they give the same markings. -/
theorem inhibitor_effect (h : net.Built) {inner : Arc} {condition : Formula}
    (harc : net.inputArc place trans = .ok (.inhibitor inner condition)) :
    (∀ modes, net.modes trans = .ok modes → ∀ b ∈ modes, ∃ p, net.place? place = some p ∧
      (Arc.inhibitor inner condition).modes net.globals p.tokens = .ok [Table.empty] ∧
      Arc.LetsThrough net.globals inner condition p.tokens) ∧
    ∃ net₀, removeInput place trans net = .ok (.inhibitor inner condition) net₀ ∧
      ∀ name b, net₀.flow name b = net.flow name b ∧
        ∀ m, (∃ net', fire name b net₀ = .ok () net' ∧ net'.marking = m) ↔
          ∃ net', fire name b net = .ok () net' ∧ net'.marking = m := by
  have hw := h.wellFormed
  constructor
  · exact fun modes hm b hb => letsThrough_of_mem_modes harc hm hb
  · obtain ⟨t, ht, hl⟩ := inputArc_eq_ok_iff.1 harc
    obtain ⟨htm, rfl⟩ := hw.keyed.mem_of_transition? ht
    have hkey : place ∈ t.keys .input := lookup_isSome_iff.1 (by rw [hl]; rfl)
    obtain ⟨p, hp, rfl⟩ := hw.keys_places t htm .input place hkey
    obtain ⟨arc, net₀, hr⟩ : ∃ arc net₀,
        removeArc .input p.name t.name net = .ok arc net₀ :=
      removeArc_succeeds hw hp htm hkey
    have hw₀ : net₀.WellFormed := (keeps_removeArc .input p.name t.name).of_ok hw hr
    obtain ⟨q, -, u, hu, -, hn, hlu, rfl⟩ := removeArc_ok hw hr
    obtain rfl := hw.transition_eq hu htm hn
    cases hl.symm.trans hlu
    refine ⟨_, hr, fun name b => ?_⟩
    have hflow := flow_withoutInhibitor hw hp htm hl ((q.links .input).erase u.name) name b
    refine ⟨hflow, fun m => ?_⟩
    rw [fired_iff hw₀, fired_iff hw, hflow, marking_relink]
    simp only [accepts_relink]

def guarded (tokens : Bag) : Net :=
  .ofNodes "guarded"
    [⟨"p", tokens, .any, [], ["t"]⟩, ⟨"q", Bag.empty, .any, ["t"], []⟩]
    [⟨"t", .truth, [("p", .inhibitor (.var "x") .truth)], [("q", .value .dot)]⟩] Table.empty

theorem inhibitor_effect_guarded : (guarded Bag.empty).Built ∧
    (guarded Bag.empty).modes "t" = .ok [Table.empty] ∧
    Arc.LetsThrough Table.empty (.var "x") .truth Bag.empty ∧
    ∃ net₀, removeInput "p" "t" (guarded Bag.empty) = .ok (.inhibitor (.var "x") .truth) net₀ ∧
      ∃ net', fire "t" Table.empty net₀ = .ok () net' ∧
        net'.marking = Marking.ofList [("q", Bag.ofList [.dot])] := by
  have hbuilt : (guarded Bag.empty).Built := .described (d := .ofNet (guarded Bag.empty)) rfl
  have harc : (guarded Bag.empty).inputArc "p" "t" = .ok (.inhibitor (.var "x") .truth) := rfl
  obtain ⟨hmodes, net₀, hr, heffect⟩ := inhibitor_effect hbuilt harc
  obtain ⟨p, hp, -, hclear⟩ := hmodes _ rfl Table.empty (List.mem_singleton.2 rfl)
  cases hp
  exact ⟨hbuilt, rfl, hclear, net₀, hr, ((heffect "t" Table.empty).2 _).2 ⟨_, rfl, rfl⟩⟩

/-- With a token on `p` the inhibitor leaves no mode, and still the transition fires. -/
theorem fired_past_inhibitor : (guarded (Bag.ofList [.int 3])).Built ∧
    (guarded (Bag.ofList [.int 3])).modes "t" = .ok [] ∧
    (Arc.inhibitor (.var "x") .truth).modes Table.empty (Bag.ofList [.int 3]) =
      .error (.mode (.inhibited (Binding.single "x" (.int 3)))) ∧
    ∃ net', fire "t" Table.empty (guarded (Bag.ofList [.int 3])) = .ok () net' ∧
      net'.marking = Marking.ofList [("p", Bag.ofList [.int 3]), ("q", Bag.ofList [.dot])] :=
  ⟨.described (d := .ofNet (guarded (Bag.ofList [.int 3]))) rfl, rfl, rfl, _, rfl, rfl⟩

end Net

end ColouredPetri
