import ColouredPetri.Proofs.Nets.Connections
import ColouredPetri.Proofs.Nets.Joins

namespace ColouredPetri

lemma mapM_eq_ok {ε α β : Type} {f : α → Except ε β} {g : α → β} {l : List α}
    (h : ∀ a ∈ l, f a = .ok (g a)) : l.mapM f = .ok (l.map g) := by
  induction l with
  | nil => rfl
  | cons a l ih =>
    obtain ⟨ha, hl⟩ := List.forall_mem_cons.1 h
    rw [List.mapM_cons, ha, except_ok_bind, ih hl]
    rfl

lemma exists_mapM_eq_ok {ε α β : Type} {f : α → Except ε β} {l : List α}
    (h : ∀ a ∈ l, ∃ b, f a = .ok b) : ∃ found, l.mapM f = .ok found := by
  induction l with
  | nil => exact ⟨[], rfl⟩
  | cons a l ih =>
    obtain ⟨⟨b, hb⟩, hl⟩ := List.forall_mem_cons.1 h
    obtain ⟨found, hfound⟩ := ih hl
    exact ⟨b :: found, by rw [List.mapM_cons, hb, hfound]; rfl⟩

namespace Net

variable {net : Net} {side : Side} {target : String} {places : List Place}

lemma mergedPlace_bare (target : String) (first : Place) (rest : List Place) :
    (mergedPlace target first rest).name = target ∧
      ∀ side, (mergedPlace target first rest).links side = [] := by
  rw [mergedPlace]
  have hstart : (first.copyAs target).name = target ∧
      ∀ side, (first.copyAs target).links side = [] :=
    ⟨rfl, fun side => by cases side <;> rfl⟩
  generalize first.copyAs target = acc at hstart
  induction rest generalizing acc with
  | nil => exact hstart
  | cons p rest ih =>
    refine ih _ ⟨hstart.1, fun side => ?_⟩
    cases side with
    | input => exact hstart.2 .input
    | output => exact hstart.2 .output

def linkArcs (net : Net) (side : Side) (places : List Place) : List (String × Arc) :=
  places.flatMap fun p => (p.links side).map fun n => (n, net.linkArc side p.name n)

lemma arcsOf_eq (side : Side) (h : net.WellFormed) (hp : ∀ p ∈ places, p ∈ net.places) {s : Net}
    (hs : s.transitionMap = net.transitionMap) :
    (do
      let arcs ← places.mapM fun p => (p.links side).mapM fun trans =>
        return (trans, ← arcOf side s p.name trans)
      return arcs.flatten : Except Error (List (String × Arc))) =
      .ok (net.linkArcs side places) := by
  have hrun : (places.mapM fun p => (p.links side).mapM fun trans =>
      (do return (trans, ← arcOf side s p.name trans) : Except Error (String × Arc))) =
      .ok (places.map fun p => (p.links side).map fun n => (n, net.linkArc side p.name n)) := by
    refine mapM_eq_ok fun p hm => mapM_eq_ok fun n hn => ?_
    have hfound : arcOf side s p.name n = arcOf side net p.name n := by
      rw [arcOf_eq, arcOf_eq, transition, transition, transition?, transition?, hs]
    rw [hfound, arcOf_eq_linkArc h (hp p hm) hn]
    rfl
  rw [hrun, except_ok_bind, ← List.flatMap_def]
  rfl

lemma members_linkArcs (h : net.WellFormed) (hp : ∀ p ∈ places, p ∈ net.places) {t : Transition}
    (ht : t ∈ net.transitions) : members t.name (net.linkArcs side places) =
      places.filterMap fun p => (t.arcs side).lookup p.name := by
  induction places with
  | nil => rfl
  | cons p places ih =>
    obtain ⟨hpm, hp⟩ := List.forall_mem_cons.1 hp
    rw [linkArcs, List.flatMap_cons, members_append, ← linkArcs, ih hp]
    have hone : members t.name ((p.links side).map fun n => (n, net.linkArc side p.name n)) =
        ((t.arcs side).lookup p.name).toList := by
      rw [← filter_links h hpm ht, members, List.filter_map, List.map_map]
      rfl
    rw [hone, List.filterMap_cons]
    cases (t.arcs side).lookup p.name <;> rfl

section Groups

variable {arcs : List (String × Arc)} {place trans : String → String}

def jointConnection (place trans : String → String) (e : String × List Arc) : Connection :=
  ⟨place e.1, trans e.1, jointArc e.2⟩

lemma connectable_groups (hp : ∀ e ∈ arcs, ∃ p ∈ net.places, p.name = place e.1)
    (ht : ∀ e ∈ arcs, ∃ t ∈ net.transitions, t.name = trans e.1 ∧ place e.1 ∉ t.keys side)
    (hends : ∀ k l, place k = place l → trans k = trans l → k = l)
    (hv : ∀ e ∈ arcs, e.2.validate = .ok ())
    (ha : side = .input → ∀ e ∈ arcs, e.2.inputAllowed = true) :
    Connectable net side ((groups arcs).map (jointConnection place trans)) := by
  have hmem : ∀ e ∈ groups arcs, ∀ a ∈ e.2, (e.1, a) ∈ arcs := fun e he a hae =>
    mem_of_mem_members ((mem_groups he).2 ▸ hae)
  have hsome : ∀ e ∈ groups arcs, ∃ a, (e.1, a) ∈ arcs := fun e he => by
    obtain ⟨a, ha⟩ := List.exists_mem_of_ne_nil _ (mem_groups he).1
    exact ⟨a, hmem e he a ha⟩
  refine ⟨List.forall_mem_map.2 fun e he => ?_, List.forall_mem_map.2 fun e he => ?_, ?_,
    List.forall_mem_map.2 fun e he => ?_, fun hs => List.forall_mem_map.2 fun e he => ?_⟩
  · obtain ⟨a, hae⟩ := hsome e he
    exact hp _ hae
  · obtain ⟨a, hae⟩ := hsome e he
    exact ht _ hae
  · have hpairs : (((groups arcs).map Prod.fst).map fun k => (place k, trans k)).Nodup :=
      groups_nodup.map fun k l h => hends k l (congrArg Prod.fst h) (congrArg Prod.snd h)
    rwa [List.map_map] at hpairs ⊢
  · exact jointArc_valid (mem_groups he).1 fun a hae => hv _ (hmem e he a hae)
  · exact jointArc_allowed fun a hae => ha hs _ (hmem e he a hae)

lemma addJoint_eq {e : String × List Arc} (he : e ∈ groups arcs)
    (hv : ∀ e ∈ arcs, e.2.validate = .ok ()) (p t : String) (s : Net) :
    (do addArc side p t (← look fun _ => joinArcs e.2) : Edit Unit) s =
      addArc side p t (jointArc e.2) s := by
  have hvalid : ∀ a ∈ e.2, a.validate = .ok () := fun a hae =>
    hv _ (mem_of_mem_members ((mem_groups he).2 ▸ hae))
  have hjoin := joinArcs_eq (flatten_ne_nil (mem_groups he).1 hvalid)
  exact bind_of_ok _ (look_eq_ok_iff.2 ⟨by rw [hjoin]; rfl, rfl⟩)

end Groups

def jointArcs (target : String) (labels : List Arc) : List (String × Arc) :=
  if labels = [] then [] else [(target, jointArc labels)]

lemma newArcs_groups {arcs : List (String × Arc)} {n : String} :
    newArcs ((groups arcs).map (jointConnection (fun _ => target) id)) n =
      jointArcs target (members n arcs) := by
  have hfilter : ((groups arcs).map (jointConnection (fun _ => target) id)).filter (·.trans == n) =
      ((groups arcs).filter (·.1 == n)).map (jointConnection (fun _ => target) id) :=
    List.filter_map
  rw [newArcs, hfilter, filter_key groups_nodup, lookup_groups, jointArcs]
  by_cases hm : members n arcs = []
  · rw [if_pos hm, if_pos hm]
    rfl
  · rw [if_neg hm, if_neg hm]
    rfl

section Merges

variable {first : Place} {rest : List Place}

def withMerged (net : Net) (p : Place) (places : List Place) : Net :=
  net.withNodes
    (net.places ++ [p.moreLinks fun side => (groups (net.linkArcs side places)).map Prod.fst])
    (net.transitions.map fun t => t.moreArcs fun side =>
      jointArcs p.name (places.filterMap fun q => (t.arcs side).lookup q.name))

lemma addJoints_eq (h : net.WellFormed) (hp : ∀ p ∈ places, p ∈ net.places) {p : Place}
    (hn : p.name ∉ net.names) (hw : (net.withPlace p).WellFormed) :
    (do
      (groups (net.linkArcs .input places)).forM fun e => addJointInput p.name e.1 e.2
      (groups (net.linkArcs .output places)).forM fun e => addJointOutput p.name e.1 e.2 :
        Edit Unit) (net.withPlace p) = .ok () (net.withMerged p places) := by
  have harcs : ∀ side, ∀ e ∈ net.linkArcs side places, ∃ q ∈ net.places,
      ∃ t ∈ net.transitions, t.name = e.1 ∧ (q.name, e.2) ∈ t.arcs side := by
    intro side e he
    obtain ⟨q, hq, he⟩ := List.mem_flatMap.1 he
    obtain ⟨n, hlink, rfl⟩ := List.mem_map.1 he
    obtain ⟨t, ht, htn, hmem⟩ := linkArc_mem h (hp q hq) hlink
    exact ⟨q, hp q hq, t, ht, htn, hmem⟩
  have hvalid : ∀ side, ∀ e ∈ net.linkArcs side places, e.2.validate = .ok () := by
    intro side e he
    obtain ⟨q, -, t, ht, -, hmem⟩ := harcs side e he
    exact h.valid t ht side (q.name, e.2) hmem
  have hjoin : ∀ side (s : Net) (e : String × List Arc), e ∈ groups (net.linkArcs side places) →
      (do addArc side p.name e.1 (← look fun _ => joinArcs e.2) : Edit Unit) s =
        addArc side p.name e.1 (jointArc e.2) s :=
    fun side s e he => addJoint_eq he (hvalid side) p.name e.1 s
  refine (forM_connected (fun _ => True) (fun side => groups (net.linkArcs side places))
    (fun _ => jointConnection (fun _ => p.name) id)
    (fun side e => do addArc side p.name e.1 (← look fun _ => joinArcs e.2)) hw trivial
    (fun side s e he _ => hjoin side s e he) (fun _ _ _ _ _ => trivial) fun side => ?_).trans ?_
  · refine connectable_groups (fun e _ => ⟨p, mem_withPlace.2 (.inr rfl), rfl⟩) (fun e he => ?_)
      (fun _ _ _ hkl => hkl) (hvalid side) fun hs e he => ?_
    · obtain ⟨q, -, t, ht, htn, -⟩ := harcs side e he
      exact ⟨t, ht, htn, fun hk => hn (h.key_mem_names ht hk)⟩
    · obtain ⟨q, -, t, ht, -, hmem⟩ := harcs side e he
      subst hs
      exact h.allowed t ht (q.name, e.2) hmem
  · rw [connected_withPlace hn fun side => List.forall_mem_map.2 fun _ _ => rfl, withMerged]
    simp only [newArcs_groups, List.map_map]
    refine congrArg (EStateM.Result.ok () <| net.withNodes _ ·) (List.map_congr_left fun t ht => ?_)
    simp only [members_linkArcs h hp ht]

lemma addPlace_eq (h : net.Keyed) {p : Place} (hn : p.name ∉ net.names)
    (hl : ∀ side, p.links side = []) :
    addPlace p net = .ok () (net.withPlace p) := by
  have hbare : { p with pre := [], post := [] } = p :=
    congrArg₂ (fun pre post => { p with pre := pre, post := post }) (hl .output).symm
      (hl .input).symm
  rw [addPlace_eq_step, step_eq_ok_iff, (h.ensureFresh_eq_ok_iff (u := ())).2 hn, except_ok_bind,
    hbare]
  rfl

lemma mem_places_of_mapM (h : net.Keyed) {sources : List String}
    (hfind : sources.mapM net.place = .ok places) :
    ∀ p ∈ places, p ∈ net.places := fun p hp => by
  obtain ⟨name, -, hname⟩ := (mem_of_mapM_ok hfind).1 p hp
  exact (h.mem_of_place? (place_eq_ok_iff.1 hname)).1

lemma mergePlaces_eq (h : net.WellFormed) {sources : List String}
    (hfind : sources.mapM net.place = .ok (first :: rest)) (hn : target ∉ net.names) :
    mergePlaces target sources net =
      .ok () (net.withMerged (mergedPlace target first rest) (first :: rest)) := by
  have hplaces := mem_places_of_mapM h.keyed hfind
  obtain ⟨hfirst, hrest⟩ := List.forall_mem_cons.1 hplaces
  have htyped : (mergedPlace target first rest).Typed :=
    mergedPlace_typed (h.typed first hfirst) fun p hp => h.typed p (hrest p hp)
  obtain ⟨hname, hlinks⟩ := mergedPlace_bare target first rest
  have hadd : addPlace (mergedPlace target first rest) net =
      .ok () (net.withPlace (mergedPlace target first rest)) :=
    addPlace_eq h.keyed (hname.symm ▸ hn) hlinks
  have hw := (keeps_addPlace htyped).of_ok h hadd
  have hjoints := addJoints_eq h hplaces (hname.symm ▸ hn) hw
  rw [hname] at hjoints
  have hlook : look (fun net => sources.mapM net.place) net = .ok (first :: rest) net :=
    look_eq_ok_iff.2 ⟨hfind, rfl⟩
  have hinputs : look (fun net => do return groups (← net.inputsOf (first :: rest)))
      (net.withPlace (mergedPlace target first rest)) =
        .ok (groups (net.linkArcs .input (first :: rest))) _ :=
    look_eq_ok_iff.2 ⟨except_bind_eq_ok.2 ⟨_, arcsOf_eq .input h hplaces rfl, rfl⟩, rfl⟩
  have houtputs : look (fun net => do return groups (← net.outputsOf (first :: rest)))
      (net.withPlace (mergedPlace target first rest)) =
        .ok (groups (net.linkArcs .output (first :: rest))) _ :=
    look_eq_ok_iff.2 ⟨except_bind_eq_ok.2 ⟨_, arcsOf_eq .output h hplaces rfl, rfl⟩, rfl⟩
  refine (bind_of_ok _ hlook).trans ((bind_of_ok _ hadd).trans ?_)
  refine (bind_of_ok _ hinputs).trans ((bind_of_ok _ houtputs).trans ?_)
  exact hjoints

lemma addBare_eq (h : net.Keyed) (guard : Formula) (hn : target ∉ net.names) :
    addBare target guard net = .ok () (net.withTransition (.bare target guard)) := by
  rw [addBare_eq_step, step_eq_ok_iff, (h.ensureFresh_eq_ok_iff (u := ())).2 hn, except_ok_bind]
  rfl

lemma mergeTransitions_eq (h : net.WellFormed) {sources : List String} {ts : List Transition}
    (hfind : sources.mapM net.transition = .ok ts) (hne : ts ≠ []) (hn : target ∉ net.names) :
    mergeTransitions target sources net =
      .ok () ((net.withTransition (.bare target (jointGuard ts))).connected fun side =>
        (groups (ts.flatMap (·.arcs side))).map (jointConnection id fun _ => target)) := by
  have hts : ∀ t ∈ ts, t ∈ net.transitions := fun t ht => by
    obtain ⟨name, -, hname⟩ := (mem_of_mapM_ok hfind).1 t ht
    exact (h.keyed.mem_of_transition? (transition_eq_ok_iff.1 hname)).1
  have harcs : ∀ side, ∀ e ∈ ts.flatMap (·.arcs side), ∃ t ∈ net.transitions, e ∈ t.arcs side := by
    intro side e he
    obtain ⟨t, ht, he⟩ := List.mem_flatMap.1 he
    exact ⟨t, hts t ht, he⟩
  have hvalid : ∀ side, ∀ e ∈ ts.flatMap (·.arcs side), e.2.validate = .ok () := fun side e he => by
    obtain ⟨t, ht, he⟩ := harcs side e he
    exact h.valid t ht side e he
  have hadd := addBare_eq h.keyed (jointGuard ts) hn
  have hw := (keeps_addBare target (jointGuard ts)).of_ok h hadd
  have hlook : look (fun net => sources.mapM net.transition) net = .ok ts net :=
    look_eq_ok_iff.2 ⟨hfind, rfl⟩
  have hjoin : ∀ side (s : Net) (e : String × List Arc), e ∈ groups (ts.flatMap (·.arcs side)) →
      (do addArc side e.1 target (← look fun _ => joinArcs e.2) : Edit Unit) s =
        addArc side e.1 target (jointArc e.2) s :=
    fun side s e he => addJoint_eq he (hvalid side) e.1 target s
  refine (bind_of_ok _ hlook).trans ?_
  have hsome : ts.isEmpty = false := by simpa using hne
  simp only [hsome]
  refine (bind_of_ok _ hadd).trans ?_
  refine forM_connected (fun _ => True) (fun side => groups (ts.flatMap (·.arcs side)))
    (fun _ => jointConnection id fun _ => target)
    (fun side e => do addArc side e.1 target (← look fun _ => joinArcs e.2)) hw trivial
    (fun side s e he _ => hjoin side s e he) (fun _ _ _ _ _ => trivial) fun side => ?_
  refine connectable_groups (fun e he => ?_) (fun e _ => ?_) (fun _ _ hkl _ => hkl) (hvalid side)
    fun hs e he => ?_
  · obtain ⟨t, ht, he⟩ := harcs side e he
    exact h.keys_places t ht side e.1 (List.mem_map_of_mem he)
  · refine ⟨.bare target (jointGuard ts), mem_withTransition.2 (.inr rfl), rfl, ?_⟩
    cases side <;> exact List.not_mem_nil
  · obtain ⟨t, ht, he⟩ := harcs side e he
    subst hs
    exact h.allowed t ht e he

end Merges

end Net

end ColouredPetri
