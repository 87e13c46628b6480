import ColouredPetri.Proofs.Nets.Enabling
import ColouredPetri.Proofs.Nets.Lookups

/-! Nets under other names. If the new names keep the nodes apart, searches and flows of the
relabelled net are those of the net, and its markings are the markings of the net, relabelled. -/

namespace ColouredPetri

variable {f : String → String}

lemma total_relabel {M : Type} [AddMonoid M] {l : List (String × M)} {k : String}
    (h : ∀ e ∈ l, f k = f e.1 → k = e.1) :
    Table.total (f k) (l.map (Prod.map f id)) = Table.total k l := by
  induction l with
  | nil => rfl
  | cons e l ih =>
    obtain ⟨he, hl⟩ := List.forall_mem_cons.1 h
    have hkey : f k = f e.1 ↔ k = e.1 := ⟨he, congrArg f⟩
    rw [List.map_cons, Table.total_cons, Table.total_cons, ih hl]
    simp only [Prod.map_fst, Prod.map_snd, hkey, id]

lemma mem_map_of_injOn {s : Set String} (hf : Set.InjOn f s) {a : String} (ha : a ∈ s)
    {l : List String} (hl : ∀ b ∈ l, b ∈ s) : f a ∈ l.map f ↔ a ∈ l := by
  rw [List.mem_map]
  constructor
  · rintro ⟨b, hb, hab⟩
    rwa [← hf (hl b hb) ha hab]
  · exact fun h => ⟨a, h, rfl⟩

def Place.relabel (f : String → String) (p : Place) : Place :=
  { p with name := f p.name, pre := p.pre.map f, post := p.post.map f }

def Transition.relabel (f : String → String) (t : Transition) : Transition :=
  { t with
    name := f t.name
    inputs := t.inputs.map (Prod.map f id)
    outputs := t.outputs.map (Prod.map f id) }

def Marking.relabel (f : String → String) (m : Marking) : Marking :=
  .ofList (m.entries.map (Prod.map f id))

def Error.relabel (f : String → String) : Error → Error
  | domain (.absentPlace place) => domain (.absentPlace (f place))
  | structural (.nodeExists kind name) => structural (.nodeExists kind (f name))
  | structural (.nodeNotFound kind name) => structural (.nodeNotFound kind (f name))
  | structural (.alreadyConnected place) => structural (.alreadyConnected (f place))
  | structural (.notConnected place) => structural (.notConnected (f place))
  | structural (.emptyMerge target) => structural (.emptyMerge (f target))
  | token (.forbidden place v) => token (.forbidden (f place) v)
  | firing (.notEnabled name b) => firing (.notEnabled (f name) b)
  | e => e

def Net.relabel (f : String → String) (net : Net) : Net :=
  { net with
    placeMap := net.placeMap.map fun e => (f e.1, e.2.relabel f)
    transitionMap := net.transitionMap.map fun e => (f e.1, e.2.relabel f) }

lemma Error.OfValues.relabel {e : Error} (h : e.OfValues) : e.relabel f = e := by
  cases h <;> rfl

lemma Transition.arcs_relabel (t : Transition) (side : Side) :
    (t.relabel f).arcs side = (t.arcs side).map (Prod.map f id) := by
  cases side <;> rfl

lemma Transition.keys_relabel (t : Transition) (side : Side) :
    (t.relabel f).keys side = (t.keys side).map f := by
  simp only [keys, arcs_relabel, List.map_map]
  rfl

lemma Place.links_relabel (p : Place) (side : Side) :
    (p.relabel f).links side = (p.links side).map f := by
  cases side <;> rfl

namespace Marking

variable {m : Marking} {k : String}

lemma tokens_relabel (h : ∀ n ∈ m.places, f k = f n → k = n) :
    (m.relabel f).tokens (f k) = m.tokens k := by
  rw [relabel, tokens_ofList, total_relabel, total_eq_tokens]
  exact fun e he => h e.1 (List.mem_map_of_mem he)

lemma mem_places_relabel (h : k ∈ (m.relabel f).places) : ∃ n ∈ m.places, f n = k := by
  by_contra hc
  rw [mem_places_iff, relabel, tokens_ofList, Table.total_eq_zero] at h
  · exact h rfl
  · intro e he heq
    obtain ⟨d, hd, rfl⟩ := List.mem_map.1 he
    exact hc ⟨d.1, List.mem_map_of_mem hd, heq.symm⟩

end Marking

namespace Net

variable {net : Net} {p : Place} {t : Transition} {b : Binding} {l : List (String × Arc)}
  {m n : Marking}

lemma places_relabel : (net.relabel f).places = net.places.map (Place.relabel f) := by
  simp only [places, relabel, List.map_map]
  rfl

lemma transitions_relabel :
    (net.relabel f).transitions = net.transitions.map (Transition.relabel f) := by
  simp only [transitions, relabel, List.map_map]
  rfl

lemma mem_relabel_places {q : Place} :
    q ∈ (net.relabel f).places ↔ ∃ p ∈ net.places, p.relabel f = q := by
  rw [places_relabel, List.mem_map]

lemma mem_relabel_transitions {u : Transition} :
    u ∈ (net.relabel f).transitions ↔ ∃ t ∈ net.transitions, t.relabel f = u := by
  rw [transitions_relabel, List.mem_map]

lemma relabel_mem_places (hp : p ∈ net.places) : p.relabel f ∈ (net.relabel f).places :=
  mem_relabel_places.2 ⟨p, hp, rfl⟩

lemma relabel_mem_transitions (ht : t ∈ net.transitions) :
    t.relabel f ∈ (net.relabel f).transitions := mem_relabel_transitions.2 ⟨t, ht, rfl⟩

lemma names_relabel : (net.relabel f).names = net.names.map f := by
  simp only [names, places_relabel, transitions_relabel, List.map_append, List.map_map]
  rfl

lemma relabel_relabel (g : String → String) : (net.relabel f).relabel g = net.relabel (g ∘ f) := by
  simp [relabel, Function.comp_def, Place.relabel, Transition.relabel]

lemma WellFormed.relabel (h : net.WellFormed) (hf : Set.InjOn f {n | n ∈ net.names}) :
    (net.relabel f).WellFormed where
  keyed := ⟨List.forall_mem_map.2 fun e he => congrArg f (h.keyed.places e he),
    List.forall_mem_map.2 fun e he => congrArg f (h.keyed.transitions e he)⟩
  names_nodup := by
    rw [names_relabel]
    exact h.names_nodup.map_on fun a ha b hb => hf ha hb
  keys_nodup u hu s := by
    obtain ⟨t, ht, rfl⟩ := mem_relabel_transitions.1 hu
    rw [t.keys_relabel]
    exact (h.keys_nodup t ht s).map_on fun a ha b hb =>
      hf (h.key_mem_names ht ha) (h.key_mem_names ht hb)
  links_nodup q hq s := by
    obtain ⟨p, hp, rfl⟩ := mem_relabel_places.1 hq
    rw [p.links_relabel]
    exact (h.links_nodup p hp s).map_on fun a ha b hb =>
      hf (h.link_mem_names hp ha) (h.link_mem_names hp hb)
  keys_places u hu s n hn := by
    obtain ⟨t, ht, rfl⟩ := mem_relabel_transitions.1 hu
    rw [t.keys_relabel] at hn
    obtain ⟨k, hk, rfl⟩ := List.mem_map.1 hn
    obtain ⟨p, hp, rfl⟩ := h.keys_places t ht s k hk
    exact ⟨_, relabel_mem_places hp, rfl⟩
  links_transitions q hq s n hn := by
    obtain ⟨p, hp, rfl⟩ := mem_relabel_places.1 hq
    rw [p.links_relabel] at hn
    obtain ⟨k, hk, rfl⟩ := List.mem_map.1 hn
    obtain ⟨t, ht, rfl⟩ := h.links_transitions p hp s k hk
    exact ⟨_, relabel_mem_transitions ht, rfl⟩
  adjacent q hq u hu s := by
    obtain ⟨p, hp, rfl⟩ := mem_relabel_places.1 hq
    obtain ⟨t, ht, rfl⟩ := mem_relabel_transitions.1 hu
    rw [p.links_relabel, t.keys_relabel]
    have hlink : f t.name ∈ (p.links s).map f ↔ t.name ∈ p.links s :=
      mem_map_of_injOn hf (transition_name_mem ht) fun n hn => h.link_mem_names hp hn
    have hkey : f p.name ∈ (t.keys s).map f ↔ p.name ∈ t.keys s :=
      mem_map_of_injOn hf (place_name_mem hp) fun n hn => h.key_mem_names ht hn
    exact hlink.trans ((h.adjacent p hp t ht s).trans hkey.symm)
  valid u hu s e he := by
    obtain ⟨t, ht, rfl⟩ := mem_relabel_transitions.1 hu
    rw [t.arcs_relabel] at he
    obtain ⟨d, hd, rfl⟩ := List.mem_map.1 he
    exact h.valid t ht s d hd
  allowed u hu e he := by
    obtain ⟨t, ht, rfl⟩ := mem_relabel_transitions.1 hu
    rw [t.arcs_relabel] at he
    obtain ⟨d, hd, rfl⟩ := List.mem_map.1 he
    exact h.allowed t ht d hd
  typed q hq := by
    obtain ⟨p, hp, rfl⟩ := mem_relabel_places.1 hq
    exact h.typed p hp

section Lookups

lemma place_relabel (h' : (net.relabel f).WellFormed) (hp : p ∈ net.places) :
    (net.relabel f).place (f p.name) = .ok (p.relabel f) :=
  place_eq_ok_iff.2 (h'.place?_of_mem (relabel_mem_places hp))

lemma transition_relabel (h' : (net.relabel f).WellFormed) (ht : t ∈ net.transitions) :
    (net.relabel f).transition (f t.name) = .ok (t.relabel f) :=
  transition_eq_ok_iff.2 (h'.transition?_of_mem (relabel_mem_transitions ht))

lemma Finds.relabel (h : net.WellFormed) (h' : (net.relabel f).WellFormed) (hl : net.Finds l) :
    ∀ e ∈ l, ∃ p, net.place e.1 = .ok p ∧ (net.relabel f).place (f e.1) = .ok (p.relabel f) := by
  intro e he
  obtain ⟨p, hfound⟩ := hl e he
  obtain ⟨hp, hn⟩ := h.keyed.mem_of_place? (place_eq_ok_iff.1 hfound)
  exact ⟨p, hfound, hn ▸ place_relabel h' hp⟩

lemma allArcs_relabel {test test' : String → Arc → Except Error Bool}
    (h : ∀ e ∈ l, test' (f e.1) e.2 = test e.1 e.2) :
    allArcs test' (l.map (Prod.map f id)) = allArcs test l := by
  induction l with
  | nil => rfl
  | cons e l ih =>
    obtain ⟨he, hl⟩ := List.forall_mem_cons.1 h
    rw [List.map_cons, allArcs, Prod.map_fst, Prod.map_snd, id, he, ih hl, allArcs]

lemma isOk_check_relabel (p : Place) (values : List Value) :
    ((p.relabel f).check values).isOk = (p.check values).isOk := by
  rw [Bool.eq_iff_iff, isOk_check_iff, isOk_check_iff]
  rfl

lemma available_relabel (h : net.WellFormed) (h' : (net.relabel f).WellFormed) (hl : net.Finds l) :
    allArcs ((net.relabel f).available b) (l.map (Prod.map f id)) =
      allArcs (net.available b) l := by
  refine allArcs_relabel fun e he => ?_
  obtain ⟨p, hp, hp'⟩ := hl.relabel h h' e he
  rw [available, available, hp, hp']
  rfl

lemma typesRespected_relabel (h : net.WellFormed) (h' : (net.relabel f).WellFormed) (hl : net.Finds l) :
    allArcs ((net.relabel f).typesRespected b) (l.map (Prod.map f id)) =
      allArcs (net.typesRespected b) l := by
  refine allArcs_relabel fun e he => ?_
  obtain ⟨p, hp, hp'⟩ := hl.relabel h h' e he
  rw [typesRespected, typesRespected, hp, hp']
  simp only [except_ok_bind, isOk_check_relabel]
  rfl

lemma check_relabel (h : net.WellFormed) (h' : (net.relabel f).WellFormed) (hin : net.Finds t.inputs)
    (hout : net.Finds t.outputs) (tokens input : Bool) :
    (net.relabel f).check (t.relabel f) b tokens input = net.check t b tokens input := by
  have hinputs : (t.relabel f).inputs = t.inputs.map (Prod.map f id) := rfl
  have houtputs : (t.relabel f).outputs = t.outputs.map (Prod.map f id) := rfl
  simp only [check, hinputs, houtputs, available_relabel h h' hin, typesRespected_relabel h h' hin,
    typesRespected_relabel h h' hout]
  rfl

end Lookups

section Searches

lemma inputModes_relabel (h : net.WellFormed) (h' : (net.relabel f).WellFormed) (hl : net.Finds l) :
    (net.relabel f).inputModes (l.map (Prod.map f id)) = net.inputModes l := by
  induction l with
  | nil => rfl
  | cons e l ih =>
    obtain ⟨p, hp, hp'⟩ := hl.relabel h h' e List.mem_cons_self
    rw [List.map_cons, inputModes, Prod.map_fst, Prod.map_snd, id, hp',
      ih fun d hd => hl d (List.mem_cons_of_mem _ hd), inputModes, hp]
    rfl

lemma modes_relabel (h : net.WellFormed) (h' : (net.relabel f).WellFormed)
    (ht : t ∈ net.transitions) : (net.relabel f).modes (f t.name) = net.modes t.name := by
  have hin := h.finds ht .input
  have hout := h.finds ht .output
  have hinputs : (net.relabel f).inputModes (t.relabel f).inputs = net.inputModes t.inputs :=
    inputModes_relabel h h' hin
  rw [modes, modes, transition_relabel h' ht, transition_eq_ok_iff.2 (h.transition?_of_mem ht)]
  simp only [except_ok_bind, modesOf, hinputs, check_relabel h h' hin hout]

end Searches

section Markings

lemma relabel_inj (h' : (net.relabel f).WellFormed) {p q : Place} (hp : p ∈ net.places)
    (hq : q ∈ net.places) (hn : f p.name = f q.name) : p = q := by
  have hnodup := h'.places_nodup
  rw [places_relabel, List.map_map] at hnodup
  exact List.inj_on_of_nodup_map hnodup hp hq hn

lemma Covers.tokens_relabel (h' : (net.relabel f).WellFormed) (hm : net.Covers m)
    (hp : p ∈ net.places) : (m.relabel f).tokens (f p.name) = m.tokens p.name := by
  refine Marking.tokens_relabel fun k hk hn => ?_
  obtain ⟨q, hq, rfl⟩ := hm k hk
  rw [relabel_inj h' hp hq hn]

lemma Covers.relabel (hm : net.Covers m) : (net.relabel f).Covers (m.relabel f) := by
  intro k hk
  obtain ⟨n, hn, rfl⟩ := Marking.mem_places_relabel hk
  obtain ⟨p, hp, rfl⟩ := hm n hn
  exact ⟨_, relabel_mem_places hp, rfl⟩

lemma Covers.eq_relabel (h' : (net.relabel f).WellFormed) (hm : net.Covers m)
    (hn : (net.relabel f).Covers n)
    (heq : ∀ p ∈ net.places, n.tokens (f p.name) = m.tokens p.name) : n = m.relabel f := by
  refine Marking.ext_tokens fun k => ?_
  by_cases hk : ∃ p ∈ net.places, f p.name = k
  · obtain ⟨p, hp, rfl⟩ := hk
    rw [heq p hp, hm.tokens_relabel h' hp]
  · have hempty : ∀ r : Marking, (net.relabel f).Covers r → r.tokens k = Bag.empty := by
      intro r hr
      by_contra hc
      obtain ⟨q, hq, rfl⟩ := hr k (Marking.mem_places_iff.2 hc)
      obtain ⟨p, hp, rfl⟩ := mem_relabel_places.1 hq
      exact hk ⟨p, hp, rfl⟩
    rw [hempty n hn, hempty _ hm.relabel]

lemma marking_relabel (h : net.WellFormed) (h' : (net.relabel f).WellFormed) :
    (net.relabel f).marking = net.marking.relabel f :=
  covers_marking.eq_relabel h' covers_marking fun _ hp =>
    (tokens_marking h' (relabel_mem_places hp)).trans (tokens_marking h hp).symm

lemma relabel_add (h' : (net.relabel f).WellFormed) (hm : net.Covers m) (hn : net.Covers n) :
    (m + n).relabel f = m.relabel f + n.relabel f := by
  refine ((hm.add hn).eq_relabel h' (hm.relabel.add hn.relabel) fun _ hp => ?_).symm
  rw [Marking.tokens_add, Marking.tokens_add, hm.tokens_relabel h' hp, hn.tokens_relabel h' hp]

lemma restore_relabel (h' : (net.relabel f).WellFormed) (hm : net.Covers m) :
    (net.relabel f).restore (m.relabel f) = (net.restore m).relabel f := by
  rw [restore, relabel, relabel, restore, Net.mk.injEq, List.map_map, List.map_map]
  refine ⟨rfl, List.map_congr_left fun e he => ?_, rfl, rfl⟩
  have htokens := hm.tokens_relabel h' (List.mem_map_of_mem he)
  rw [Function.comp, Function.comp, Place.relabel, htokens]
  rfl

lemma accepts_relabel (h' : (net.relabel f).WellFormed) (hm : net.Covers m) :
    (net.relabel f).Accepts (m.relabel f) ↔ net.Accepts m := by
  rw [Accepts, Accepts, places_relabel, List.forall_mem_map]
  refine forall₂_congr fun p hp => ?_
  have htokens : (m.relabel f).tokens (p.relabel f).name = m.tokens p.name :=
    hm.tokens_relabel h' hp
  rw [htokens]
  rfl

end Markings

section Flows

lemma arcFlows_relabel (l : List (String × Arc)) :
    (net.relabel f).arcFlows b (l.map (Prod.map f id)) =
      (net.arcFlows b l).map (List.map (Prod.map f id)) := by
  induction l with
  | nil => rfl
  | cons e l ih =>
    have hscope : (net.relabel f).scope b = net.scope b := rfl
    rw [List.map_cons, arcFlows, Prod.map_fst, Prod.map_snd, id, hscope, ih, arcFlows]
    cases e.2.flow (net.scope b) with
    | error e => rfl
    | ok flow => cases net.arcFlows b l <;> rfl

def relabelFlow (f : String → String) (flow : Marking × Marking) : Marking × Marking :=
  (flow.1.relabel f, flow.2.relabel f)

lemma ofList_relabel (h : net.WellFormed) (h' : (net.relabel f).WellFormed)
    (ht : t ∈ net.transitions) (side : Side) {fs : List (String × Bag)}
    (hfs : net.arcFlows b (t.arcs side) = .ok fs) :
    Marking.ofList (fs.map (Prod.map f id)) = (Marking.ofList fs).relabel f := by
  have hfs' : (net.relabel f).arcFlows b ((t.relabel f).arcs side) =
      .ok (fs.map (Prod.map f id)) := by
    rw [Transition.arcs_relabel, arcFlows_relabel, hfs]
    rfl
  have hcovers := covers_arcFlows h ht side hfs
  refine hcovers.eq_relabel h' (covers_arcFlows h' (relabel_mem_transitions ht) side hfs') ?_
  intro p hp
  rw [Marking.tokens_ofList, Marking.tokens_ofList, total_relabel]
  intro e he hn
  have hkey : e.1 ∈ t.keys side := by
    rw [Transition.keys, ← arcFlows_keys hfs]
    exact List.mem_map_of_mem he
  obtain ⟨q, hq, hqe⟩ := h.keys_places t ht side e.1 hkey
  rw [← hqe] at hn ⊢
  rw [relabel_inj h' hp hq hn]

lemma flow_relabel (h : net.WellFormed) (h' : (net.relabel f).WellFormed)
    (ht : t ∈ net.transitions) : (net.relabel f).flow (f t.name) b =
      ((net.flow t.name b).map (relabelFlow f)).mapError (Error.relabel f) := by
  have hin := h.finds ht .input
  have hout := h.finds ht .output
  have hinputs : (net.relabel f).arcFlows b (t.relabel f).inputs =
      (net.arcFlows b t.inputs).map (List.map (Prod.map f id)) := arcFlows_relabel t.inputs
  have houtputs : (net.relabel f).arcFlows b (t.relabel f).outputs =
      (net.arcFlows b t.outputs).map (List.map (Prod.map f id)) := arcFlows_relabel t.outputs
  rw [flow, flow, transition_relabel h' ht, transition_eq_ok_iff.2 (h.transition?_of_mem ht),
    except_ok_bind, except_ok_bind, flowOf, flowOf, enabledBy, enabledBy,
    check_relabel h h' hin hout, hinputs, houtputs]
  cases hcheck : net.check t b true true with
  | error e => exact congrArg Except.error (ofValues_check hin hout _ _ e hcheck).relabel.symm
  | ok enabled =>
    cases enabled with
    | false => rfl
    | true =>
      cases hc : net.arcFlows b t.inputs with
      | error e => exact congrArg Except.error (ofValues_arcFlows _ e hc).relabel.symm
      | ok consumed =>
        cases hp : net.arcFlows b t.outputs with
        | error e => exact congrArg Except.error (ofValues_arcFlows _ e hp).relabel.symm
        | ok produced =>
          exact congrArg Except.ok (Prod.ext (ofList_relabel h h' ht .input hc)
            (ofList_relabel h h' ht .output hp))

end Flows

end Net

end ColouredPetri
