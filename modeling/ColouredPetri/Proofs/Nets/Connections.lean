import ColouredPetri.Proofs.Descriptions.Rebuilding
import ColouredPetri.Proofs.Nets.Copies

namespace ColouredPetri

@[simp] lemma Place.withLinks_self (p : Place) (side : Side) :
    p.withLinks side (p.links side) = p := by
  cases side <;> rfl

@[simp] lemma Place.withLinks_withLinks (p : Place) (side : Side) (l m : List String) :
    (p.withLinks side l).withLinks side m = p.withLinks side m := by
  cases side <;> rfl

@[simp] lemma Transition.withArcs_self (t : Transition) (side : Side) :
    t.withArcs side (t.arcs side) = t := by
  cases side <;> rfl

@[simp] lemma Transition.withArcs_withArcs (t : Transition) (side : Side)
    (l m : List (String × Arc)) : (t.withArcs side l).withArcs side m = t.withArcs side m := by
  cases side <;> rfl

def Place.moreLinks (p : Place) (more : Side → List String) : Place :=
  { p with post := p.post ++ more .input, pre := p.pre ++ more .output }

def Transition.moreArcs (t : Transition) (more : Side → List (String × Arc)) : Transition :=
  { t with inputs := t.inputs ++ more .input, outputs := t.outputs ++ more .output }

lemma Place.moreLinks_links (p : Place) (more : Side → List String) (side : Side) :
    (p.moreLinks more).links side = p.links side ++ more side := by
  cases side <;> rfl

lemma Transition.moreArcs_arcs (t : Transition) (more : Side → List (String × Arc))
    (side : Side) : (t.moreArcs more).arcs side = t.arcs side ++ more side := by
  cases side <;> rfl

@[simp] lemma Place.moreLinks_name (p : Place) (more : Side → List String) :
    (p.moreLinks more).name = p.name := rfl

@[simp] lemma Transition.moreArcs_name (t : Transition) (more : Side → List (String × Arc)) :
    (t.moreArcs more).name = t.name := rfl

lemma Place.moreLinks_moreLinks (p : Place) (l m : Side → List String) :
    (p.moreLinks l).moreLinks m = p.moreLinks fun side => l side ++ m side := by
  simp [Place.moreLinks]

lemma Transition.moreArcs_moreArcs (t : Transition) (l m : Side → List (String × Arc)) :
    (t.moreArcs l).moreArcs m = t.moreArcs fun side => l side ++ m side := by
  simp [Transition.moreArcs]

lemma Place.moreLinks_nil (p : Place) : (p.moreLinks fun _ => []) = p := by
  simp [Place.moreLinks]

lemma Transition.moreArcs_nil (t : Transition) : (t.moreArcs fun _ => []) = t := by
  simp [Transition.moreArcs]

structure Connection where
  place : String
  trans : String
  arc : Arc

namespace Net

variable {net : Net} {side : Side} {c : Connection} {l m : List Connection}

def newLinks (l : List Connection) (place : String) : List String :=
  (l.filter (·.place == place)).map Connection.trans

def newArcs (l : List Connection) (trans : String) : List (String × Arc) :=
  (l.filter (·.trans == trans)).map fun c => (c.place, c.arc)

def connectAll (net : Net) (side : Side) (l : List Connection) : Net :=
  net.withNodes (net.places.map fun p => p.withLinks side (p.links side ++ newLinks l p.name))
    (net.transitions.map fun t => t.withArcs side (t.arcs side ++ newArcs l t.name))

lemma connectAll_nil (h : net.Keyed) : net.connectAll side [] = net := by
  simp [connectAll, newLinks, newArcs, h.withNodes_self]

lemma connectAll_connectAll :
    (net.connectAll side l).connectAll side m = net.connectAll side (l ++ m) := by
  simp [connectAll, newLinks, newArcs, Function.comp_def, Place.withLinks_links,
    Transition.withArcs_arcs]

lemma mem_connectAll_places {p : Place} (hp : p ∈ net.places) :
    p.withLinks side (p.links side ++ newLinks l p.name) ∈ (net.connectAll side l).places := by
  rw [connectAll, places_withNodes]
  exact List.mem_map_of_mem hp

lemma mem_connectAll_transitions {t : Transition} (ht : t ∈ net.transitions) :
    t.withArcs side (t.arcs side ++ newArcs l t.name) ∈ (net.connectAll side l).transitions := by
  rw [connectAll, transitions_withNodes]
  exact List.mem_map_of_mem ht

structure Connectable (net : Net) (side : Side) (l : List Connection) : Prop where
  places : ∀ c ∈ l, ∃ p ∈ net.places, p.name = c.place
  transitions : ∀ c ∈ l, ∃ t ∈ net.transitions, t.name = c.trans ∧ c.place ∉ t.keys side
  nodup : (l.map fun c => (c.place, c.trans)).Nodup
  valid : ∀ c ∈ l, c.arc.validate = .ok ()
  allowed : side = .input → ∀ c ∈ l, c.arc.inputAllowed = true

lemma connectAll_eq_relink (h : net.WellFormed) {p : Place} {t : Transition}
    (hp : p ∈ net.places) (ht : t ∈ net.transitions) (hk : p.name ∉ t.keys side) {arc : Arc} :
    net.connectAll side [⟨p.name, t.name, arc⟩] = net.relink side p.name t.name
      (t.arcs side ++ [(p.name, arc)]) (insertName (p.links side) t.name) := by
  have hlinks : insertName (p.links side) t.name = p.links side ++ [t.name] := by
    have hn : t.name ∉ p.links side := fun hn => hk ((h.adjacent p hp t ht side).1 hn)
    rw [insertName, if_neg (by simpa using hn)]
  rw [connectAll, relink, hlinks]
  refine congrArg₂ net.withNodes (List.map_congr_left fun q hq => ?_)
    (List.map_congr_left fun u hu => ?_)
  · by_cases hn : q.name = p.name
    · simp [newLinks, h.place_eq hq hp hn]
    · simp [newLinks, hn, Ne.symm hn]
  · by_cases hn : u.name = t.name
    · simp [newArcs, h.transition_eq hu ht hn]
    · simp [newArcs, hn, Ne.symm hn]

lemma addArc_connectable (h : net.WellFormed) (hc : Connectable net side (c :: l)) :
    addArc side c.place c.trans c.arc net = .ok () (net.connectAll side [c]) ∧
      Connectable (net.connectAll side [c]) side l := by
  obtain ⟨p, hp, hpn⟩ := hc.places c List.mem_cons_self
  obtain ⟨t, ht, htn, hk⟩ := hc.transitions c List.mem_cons_self
  obtain ⟨place, trans, arc⟩ := c
  subst hpn htn
  have hvalid := hc.valid _ List.mem_cons_self
  have hallowed : side = .input → arc.inputAllowed = true := fun hs =>
    hc.allowed hs _ List.mem_cons_self
  constructor
  · obtain ⟨net', hadd⟩ := addArc_succeeds h hp ht hk hvalid hallowed
    obtain ⟨q, hq, u, hu, hqn, hun, -, -, -, rfl⟩ := addArc_ok h hadd
    obtain rfl := h.place_eq hq hp hqn
    obtain rfl := h.transition_eq hu ht hun
    rw [hadd, connectAll_eq_relink h hq hu hk]
  · obtain ⟨hnot, hnodup⟩ := List.nodup_cons.1 hc.nodup
    refine ⟨fun d hd => ?_, fun d hd => ?_, hnodup,
      fun d hd => hc.valid d (List.mem_cons_of_mem _ hd),
      fun hs d hd => hc.allowed hs d (List.mem_cons_of_mem _ hd)⟩
    · obtain ⟨q, hq, hqn⟩ := hc.places d (List.mem_cons_of_mem _ hd)
      exact ⟨_, mem_connectAll_places hq, by simpa using hqn⟩
    · obtain ⟨u, hu, hun, hud⟩ := hc.transitions d (List.mem_cons_of_mem _ hd)
      refine ⟨_, mem_connectAll_transitions hu, by simpa using hun, fun hmem => ?_⟩
      rw [Transition.keys, Transition.withArcs_arcs, if_pos rfl, List.map_append,
        List.mem_append] at hmem
      rcases hmem with hmem | hmem
      · exact hud hmem
      · obtain ⟨e, he, hplace⟩ := List.mem_map.1 hmem
        rw [newArcs, List.mem_map] at he
        obtain ⟨b, hb, rfl⟩ := he
        obtain ⟨hb, htrans⟩ := List.mem_filter.1 hb
        obtain rfl := List.mem_singleton.1 hb
        refine hnot (List.mem_map.2 ⟨d, hd, ?_⟩)
        rw [← hplace, ← hun, ← beq_iff_eq.1 htrans]

/-- A loop whose rounds add connections adds them all at once. What a round reads of the net may
not depend on the connections that are added. -/
lemma forM_connect {α : Type} {I : Net → Prop} {f : α → Edit Unit} {conn : α → Connection}
    {items : List α} (h : net.WellFormed) (hI : I net)
    (hf : ∀ s a, a ∈ items → I s → f a s = addArc side (conn a).place (conn a).trans (conn a).arc s)
    (hkeep : ∀ s a, a ∈ items → I s → I (s.connectAll side [conn a]))
    (hc : Connectable net side (items.map conn)) :
    items.forM f net = .ok () (net.connectAll side (items.map conn)) ∧
      (net.connectAll side (items.map conn)).WellFormed ∧
      I (net.connectAll side (items.map conn)) := by
  induction items generalizing net with
  | nil =>
    rw [List.map_nil, connectAll_nil h.keyed]
    exact ⟨rfl, h, hI⟩
  | cons a items ih =>
    obtain ⟨hadd, hrest⟩ := addArc_connectable h hc
    have h₁ := (keeps_addArc side _ _ _).of_ok h hadd
    obtain ⟨hloop, hw⟩ := ih h₁ (hkeep net a List.mem_cons_self hI)
      (fun s b hb => hf s b (List.mem_cons_of_mem _ hb))
      (fun s b hb => hkeep s b (List.mem_cons_of_mem _ hb)) hrest
    rw [connectAll_connectAll] at hloop hw
    refine ⟨forM_cons_eq_ok.2 ⟨_, ?_, hloop⟩, hw⟩
    rw [hf net a List.mem_cons_self hI, hadd]

def connected (net : Net) (conns : Side → List Connection) : Net :=
  (net.connectAll .input (conns .input)).connectAll .output (conns .output)

lemma connected_eq {conns : Side → List Connection} : net.connected conns =
    net.withNodes
      (net.places.map fun p => p.moreLinks fun side => newLinks (conns side) p.name)
      (net.transitions.map fun t => t.moreArcs fun side => newArcs (conns side) t.name) := by
  simp only [connected, connectAll, withNodes_withNodes, places_withNodes, transitions_withNodes,
    List.map_map]
  rfl

lemma Connectable.output (h : Connectable net .output m) :
    Connectable (net.connectAll .input l) .output m := by
  refine ⟨fun c hc => ?_, fun c hc => ?_, h.nodup, h.valid, nofun⟩
  · obtain ⟨p, hp, hn⟩ := h.places c hc
    exact ⟨_, mem_connectAll_places hp, hn⟩
  · obtain ⟨t, ht, hn, hk⟩ := h.transitions c hc
    exact ⟨_, mem_connectAll_transitions ht, hn, hk⟩

lemma forM_connected {α : Type} (I : Net → Prop) (items : Side → List α)
    (conn : Side → α → Connection) (f : Side → α → Edit Unit) (h : net.WellFormed) (hI : I net)
    (hf : ∀ side s a, a ∈ items side → I s →
      f side a s = addArc side (conn side a).place (conn side a).trans (conn side a).arc s)
    (hkeep : ∀ side s a, a ∈ items side → I s → I (s.connectAll side [conn side a]))
    (hc : ∀ side, Connectable net side ((items side).map (conn side))) :
    (do (items .input).forM (f .input); (items .output).forM (f .output) : Edit Unit) net =
      .ok () (net.connected fun side => (items side).map (conn side)) := by
  obtain ⟨hinput, hw, hI⟩ := forM_connect h hI (hf .input) (hkeep .input) (hc .input)
  obtain ⟨houtput, -, -⟩ := forM_connect hw hI (hf .output) (hkeep .output) (hc .output).output
  exact (bind_of_ok _ hinput).trans houtput

section Fresh

variable {conns : Side → List Connection}

lemma newLinks_of_ne {place : String} (h : ∀ c ∈ l, c.place ≠ place) : newLinks l place = [] := by
  rw [newLinks, List.filter_eq_nil_iff.2 fun c hc => by simpa using h c hc, List.map_nil]

lemma newLinks_of_eq {place : String} (h : ∀ c ∈ l, c.place = place) :
    newLinks l place = l.map Connection.trans := by
  rw [newLinks, List.filter_eq_self.2 fun c hc => by simpa using h c hc]

lemma newArcs_of_ne {trans : String} (h : ∀ c ∈ l, c.trans ≠ trans) : newArcs l trans = [] := by
  rw [newArcs, List.filter_eq_nil_iff.2 fun c hc => by simpa using h c hc, List.map_nil]

lemma newArcs_of_eq {trans : String} (h : ∀ c ∈ l, c.trans = trans) :
    newArcs l trans = l.map fun c => (c.place, c.arc) := by
  rw [newArcs, List.filter_eq_self.2 fun c hc => by simpa using h c hc]

lemma connected_withPlace {p : Place} (hn : p.name ∉ net.names)
    (hc : ∀ side, ∀ c ∈ conns side, c.place = p.name) :
    (net.withPlace p).connected conns = net.withNodes
      (net.places ++ [p.moreLinks fun side => (conns side).map Connection.trans])
      (net.transitions.map fun t => t.moreArcs fun side => newArcs (conns side) t.name) := by
  have hothers : (net.places.map fun q => q.moreLinks fun side => newLinks (conns side) q.name) =
      net.places := by
    refine (List.map_congr_left fun q hq => ?_).trans (List.map_id _)
    have hne : ∀ side, newLinks (conns side) q.name = [] := fun side =>
      newLinks_of_ne fun c hcs heq => hn (hc side c hcs ▸ heq ▸ place_name_mem hq)
    simp only [hne, Place.moreLinks_nil, id]
  have hself : ∀ side, newLinks (conns side) p.name = (conns side).map Connection.trans :=
    fun side => newLinks_of_eq (hc side)
  rw [connected_eq, places_withPlace, List.map_append, hothers, List.map_singleton]
  simp only [hself]
  rfl

lemma connected_withTransition {t : Transition} (hn : t.name ∉ net.names)
    (hc : ∀ side, ∀ c ∈ conns side, c.trans = t.name) :
    (net.withTransition t).connected conns = net.withNodes
      (net.places.map fun p => p.moreLinks fun side => newLinks (conns side) p.name)
      (net.transitions ++
        [t.moreArcs fun side => (conns side).map fun c => (c.place, c.arc)]) := by
  have hothers : (net.transitions.map fun u => u.moreArcs fun side =>
      newArcs (conns side) u.name) = net.transitions := by
    refine (List.map_congr_left fun u hu => ?_).trans (List.map_id _)
    have hne : ∀ side, newArcs (conns side) u.name = [] := fun side =>
      newArcs_of_ne fun c hcs heq => hn (hc side c hcs ▸ heq ▸ transition_name_mem hu)
    simp only [hne, Transition.moreArcs_nil, id]
  have hself : ∀ side, newArcs (conns side) t.name =
      (conns side).map fun c => (c.place, c.arc) := fun side => newArcs_of_eq (hc side)
  rw [connected_eq, transitions_withTransition, List.map_append, hothers, List.map_singleton]
  simp only [hself]
  rfl

end Fresh

section LinkArc

variable {p : Place} {t : Transition} {n : String}

def linkArc (net : Net) (side : Side) (place trans : String) : Arc :=
  ((net.transition? trans).bind fun t => (t.arcs side).lookup place).getD default

lemma lookup_linkArc (h : net.WellFormed) (hp : p ∈ net.places) (ht : t ∈ net.transitions)
    (hl : t.name ∈ p.links side) :
    (t.arcs side).lookup p.name = some (net.linkArc side p.name t.name) := by
  have hkey : p.name ∈ t.keys side := (h.adjacent p hp t ht side).1 hl
  obtain ⟨arc, ha⟩ := Option.isSome_iff_exists.1 (lookup_isSome_iff.2 hkey)
  rw [linkArc, h.transition?_of_mem ht, Option.bind_some, ha]
  rfl

lemma arcOf_eq_linkArc (h : net.WellFormed) (hp : p ∈ net.places) (hl : n ∈ p.links side) :
    arcOf side net p.name n = .ok (net.linkArc side p.name n) := by
  obtain ⟨t, ht, rfl⟩ := h.links_transitions p hp side n hl
  rw [arcOf_eq, transition_eq_ok_iff.2 (h.transition?_of_mem ht), except_ok_bind,
    lookup_linkArc h hp ht hl]
  rfl

lemma lookup_of_notMem_links (h : net.WellFormed) (hp : p ∈ net.places)
    (ht : t ∈ net.transitions) (hl : t.name ∉ p.links side) :
    (t.arcs side).lookup p.name = none :=
  lookup_eq_none_iff_notMem.2 (mt (h.adjacent p hp t ht side).2 hl)

lemma filter_links (h : net.WellFormed) (hp : p ∈ net.places) (ht : t ∈ net.transitions) :
    ((p.links side).filter (· == t.name)).map (net.linkArc side p.name) =
      ((t.arcs side).lookup p.name).toList := by
  by_cases hl : t.name ∈ p.links side
  · rw [lookup_linkArc h hp ht hl, List.filter_beq,
      List.count_eq_one_of_mem (h.links_nodup p hp side) hl]
    rfl
  · rw [lookup_of_notMem_links h hp ht hl, List.filter_eq_nil_iff.2 fun n hn => by
      simpa using ne_of_mem_of_not_mem hn hl]
    rfl

lemma linkArc_mem (h : net.WellFormed) (hp : p ∈ net.places) (hl : n ∈ p.links side) :
    ∃ t ∈ net.transitions, t.name = n ∧ (p.name, net.linkArc side p.name n) ∈ t.arcs side := by
  obtain ⟨t, ht, rfl⟩ := h.links_transitions p hp side n hl
  obtain ⟨front, back, hsplit, -⟩ := List.lookup_eq_some_iff.1 (lookup_linkArc h hp ht hl)
  exact ⟨t, ht, rfl, hsplit ▸ List.mem_append_right _ List.mem_cons_self⟩

end LinkArc

end Net

end ColouredPetri
