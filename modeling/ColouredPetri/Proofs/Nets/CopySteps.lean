import ColouredPetri.Proofs.Nets.Merging
import ColouredPetri.Proofs.Nets.Rollback

namespace ColouredPetri

namespace Net

variable {net : Net} {p : Place} {t : Transition} {n : String} {names l : List String}

def copiedArcs (source : String) (names : List String) (arcs : List (String × Arc)) :
    List (String × Arc) :=
  (arcs.lookup source).toList.flatMap fun arc => names.map fun n => (n, arc)

def withPlaceCopies (p : Place) (net : Net) (names : List String) : Net :=
  net.withNodes (net.places ++ names.map fun n => { p with name := n })
    (net.transitions.map fun t => t.moreArcs fun side => copiedArcs p.name names (t.arcs side))

def withTransitionCopies (t : Transition) (net : Net) (names : List String) : Net :=
  net.withNodes
    (net.places.map fun p => p.moreLinks fun side => if t.name ∈ p.links side then names else [])
    (net.transitions ++ names.map fun n => { t with name := n })

lemma lookup_copiedArcs {source : String} {arcs : List (String × Arc)} :
    (arcs ++ copiedArcs source l arcs).lookup source = arcs.lookup source := by
  rw [List.lookup_append, copiedArcs]
  cases arcs.lookup source <;> rfl

lemma copiedArcs_append {source : String} {m : List String} {arcs : List (String × Arc)} :
    copiedArcs source (l ++ m) arcs = copiedArcs source l arcs ++ copiedArcs source m arcs := by
  rw [copiedArcs, copiedArcs, copiedArcs]
  cases arcs.lookup source <;> simp

lemma withPlaceCopies_append {m : List String} :
    withPlaceCopies p (withPlaceCopies p net l) m = withPlaceCopies p net (l ++ m) := by
  simp only [withPlaceCopies, withNodes_withNodes, places_withNodes, transitions_withNodes,
    List.map_map, List.map_append, List.append_assoc]
  congr 2
  funext t
  rw [Function.comp_apply, Transition.moreArcs_moreArcs]
  congr 1
  funext side
  rw [Transition.moreArcs_arcs, copiedArcs_append]
  congr 1
  rw [copiedArcs, lookup_copiedArcs]
  rfl

lemma withTransitionCopies_append (h : t.name ∉ l) {m : List String} :
    withTransitionCopies t (withTransitionCopies t net l) m =
      withTransitionCopies t net (l ++ m) := by
  simp only [withTransitionCopies, withNodes_withNodes, places_withNodes, transitions_withNodes,
    List.map_map, List.map_append, List.append_assoc]
  congr 2
  funext p
  rw [Function.comp_apply, Place.moreLinks_moreLinks]
  congr 1
  funext side
  rw [Place.moreLinks_links]
  by_cases hl : t.name ∈ p.links side <;> simp [hl, h]

lemma withPlaceCopies_names {m : String} :
    m ∈ (withPlaceCopies p net l).names ↔ m ∈ net.names ∨ m ∈ l := by
  simp only [names, withPlaceCopies, places_withNodes, transitions_withNodes, List.map_append,
    List.map_map, Function.comp_def, Transition.moreArcs_name, List.mem_append, List.map_id_fun',
    id]
  rw [or_right_comm]

lemma withTransitionCopies_names {m : String} :
    m ∈ (withTransitionCopies t net l).names ↔ m ∈ net.names ∨ m ∈ l := by
  simp only [names, withTransitionCopies, places_withNodes, transitions_withNodes, List.map_append,
    List.map_map, Function.comp_def, Place.moreLinks_name, List.mem_append, List.map_id_fun', id,
    or_assoc]

section Steps

variable {side : Side}

lemma transition?_connectAll {s : Net} (h : s.Keyed) {conns : List Connection} :
    (s.connectAll side conns).transition? n =
      (s.transition? n).map fun t => t.withArcs side (t.arcs side ++ newArcs conns t.name) := by
  rw [connectAll, transition?_withNodes, h.transition?_eq, List.find?_map]
  simp only [Function.comp_def, Transition.withArcs_name]

lemma arcOf_connectAll {s : Net} (hk : s.Keyed) {source : String} {side' : Side}
    {conns : List Connection}
    (h : ∀ c ∈ conns, c.place ≠ source) :
    arcOf side' (s.connectAll side conns) source n = arcOf side' s source n := by
  have hnone : ∀ trans, (newArcs conns trans).lookup source = none := fun trans => by
    rw [lookup_eq_none_iff_notMem]
    intro hmem
    obtain ⟨e, he, rfl⟩ := List.mem_map.1 hmem
    obtain ⟨c, hc, rfl⟩ := List.mem_map.1 he
    exact h c (List.mem_filter.1 hc).1 rfl
  rw [arcOf_eq, arcOf_eq, transition, transition, transition?_connectAll hk]
  cases s.transition? n with
  | none => rfl
  | some t =>
    have hlookup : ((t.withArcs side (t.arcs side ++ newArcs conns t.name)).arcs side').lookup
        source = (t.arcs side').lookup source := by
      rw [Transition.withArcs_arcs]
      split
      · next hs => rw [List.lookup_append, hnone, Option.or_none, hs]
      · rfl
    rw [Option.map_some]
    simp only [except_ok_bind, hlookup]

lemma newArcs_copies (h : net.WellFormed) (hp : p ∈ net.places) (ht : t ∈ net.transitions) :
    newArcs ((p.links side).map fun a => ⟨n, a, net.linkArc side p.name a⟩) t.name =
      copiedArcs p.name [n] (t.arcs side) := by
  have hfilter : (((p.links side).map fun a => (⟨n, a, net.linkArc side p.name a⟩ : Connection)).filter
      (·.trans == t.name)) = ((p.links side).filter (· == t.name)).map fun a =>
        ⟨n, a, net.linkArc side p.name a⟩ := List.filter_map
  rw [newArcs, hfilter, copiedArcs, ← filter_links h hp ht, List.map_map, List.flatMap_map]
  exact List.map_eq_flatMap

lemma connectable_copies (h : net.WellFormed) (hp : p ∈ net.places) (hn : n ∉ net.names)
    (side : Side) : Connectable (net.withPlace (p.copyAs n)) side
      ((p.links side).map fun a => ⟨n, a, net.linkArc side p.name a⟩) := by
  refine ⟨List.forall_mem_map.2 fun a _ => ⟨p.copyAs n, mem_withPlace.2 (.inr rfl), rfl⟩,
    List.forall_mem_map.2 fun a ha => ?_, ?_, List.forall_mem_map.2 fun a ha => ?_,
    fun hs => List.forall_mem_map.2 fun a ha => ?_⟩
  · obtain ⟨t, ht, hta⟩ := h.links_transitions p hp side a ha
    exact ⟨t, ht, hta, fun hk => hn (h.key_mem_names ht hk)⟩
  · rw [List.map_map]
    exact (h.links_nodup p hp side).map fun _ _ heq => congrArg Prod.snd heq
  · obtain ⟨t, ht, -, hmem⟩ := linkArc_mem h hp ha
    exact h.valid t ht side _ hmem
  · obtain ⟨t, ht, -, hmem⟩ := linkArc_mem h hp ha
    subst hs
    exact h.allowed t ht _ hmem

lemma copyPlace_step (h : net.WellFormed) (hp : p ∈ net.places) (hn : n ∉ net.names) :
    (do
      addPlace (p.copyAs n)
      p.post.forM (copyInput p.name n)
      p.pre.forM (copyOutput p.name n) : Edit Unit) net =
      .ok () (withPlaceCopies p net [n]) := by
  have hadd : addPlace (p.copyAs n) net = .ok () (net.withPlace (p.copyAs n)) :=
    addPlace_eq h.keyed hn fun side => by cases side <;> rfl
  have hw := (keeps_addPlace (p := p.copyAs n) (h.typed p hp)).of_ok h hadd
  have hne : n ≠ p.name := fun heq => hn (heq ▸ place_name_mem hp)
  refine (bind_of_ok _ hadd).trans ((forM_connected
    (fun s => s.Keyed ∧ ∀ side, ∀ a ∈ p.links side,
      arcOf side s p.name a = .ok (net.linkArc side p.name a))
    p.links (fun side a => ⟨n, a, net.linkArc side p.name a⟩)
    (fun side a => do addArc side n a (← look fun s => arcOf side s p.name a)) hw
    ⟨hw.keyed, fun side a ha => ?_⟩ (fun side s a ha hI => ?_)
    (fun side s a _ hI => ⟨keyed_withNodes, fun side' b hb => ?_⟩)
    (connectable_copies h hp hn)).trans ?_)
  · rw [← arcOf_eq_linkArc h hp ha, arcOf_eq, arcOf_eq]
    rfl
  · exact bind_of_ok _ (look_eq_ok_iff.2 ⟨hI.2 side a ha, rfl⟩)
  · rw [arcOf_connectAll hI.1 fun c hc => by rwa [List.mem_singleton.1 hc], hI.2 side' b hb]
  · rw [connected_withPlace hn fun side => List.forall_mem_map.2 fun _ _ => rfl, withPlaceCopies]
    have hlinks : ((p.copyAs n).moreLinks fun side => ((p.links side).map fun a =>
        (⟨n, a, net.linkArc side p.name a⟩ : Connection)).map Connection.trans) =
          { p with name := n } := by
      simp only [List.map_map, Function.comp_def, List.map_id_fun', id]
      rfl
    simp only [Place.copyAs] at hlinks ⊢
    rw [hlinks]
    refine congrArg (EStateM.Result.ok () <| net.withNodes _ ·)
      (List.map_congr_left fun t ht => ?_)
    simp only [newArcs_copies h hp ht]

lemma newLinks_copies (h : net.WellFormed) (hp : p ∈ net.places) (ht : t ∈ net.transitions) :
    newLinks ((t.arcs side).map fun e => ⟨e.1, n, e.2⟩) p.name =
      if t.name ∈ p.links side then [n] else [] := by
  have hfilter : (((t.arcs side).map fun e => (⟨e.1, n, e.2⟩ : Connection)).filter
      (·.place == p.name)) = ((t.arcs side).filter (·.1 == p.name)).map fun e => ⟨e.1, n, e.2⟩ :=
    List.filter_map
  rw [newLinks, hfilter, filter_key (h.keys_nodup t ht side)]
  by_cases hl : t.name ∈ p.links side
  · rw [lookup_linkArc h hp ht hl, if_pos hl]
    rfl
  · rw [lookup_of_notMem_links h hp ht hl, if_neg hl]
    rfl

lemma copyTransition_step (h : net.WellFormed) (ht : t ∈ net.transitions) (hn : n ∉ net.names) :
    addTransition { t with name := n } net = .ok () (withTransitionCopies t net [n]) := by
  have hadd := addBare_eq h.keyed t.guard hn
  have hw := (keeps_addBare n t.guard).of_ok h hadd
  have hconnect : connect n t.inputs t.outputs (net.withTransition (.bare n t.guard)) =
      .ok () (withTransitionCopies t net [n]) := by
    refine (forM_connected (fun _ => True) t.arcs
      (fun _ e => ⟨e.1, n, e.2⟩) (fun side e => addArc side e.1 n e.2) hw trivial
      (fun _ _ _ _ _ => rfl) (fun _ _ _ _ _ => trivial) fun side => ?_).trans ?_
    · refine ⟨List.forall_mem_map.2 fun e he => ?_, List.forall_mem_map.2 fun e _ => ?_, ?_,
        List.forall_mem_map.2 fun e he => h.valid t ht side e he,
        fun hs => List.forall_mem_map.2 fun e he => ?_⟩
      · exact h.keys_places t ht side e.1 (List.mem_map_of_mem he)
      · refine ⟨.bare n t.guard, mem_withTransition.2 (.inr rfl), rfl, ?_⟩
        cases side <;> exact List.not_mem_nil
      · have hpairs : ((t.keys side).map fun k => (k, n)).Nodup :=
          (h.keys_nodup t ht side).map fun _ _ heq => congrArg Prod.fst heq
        rw [List.map_map]
        rwa [Transition.keys, List.map_map] at hpairs
      · subst hs
        exact h.allowed t ht e he
    · rw [connected_withTransition hn fun side => List.forall_mem_map.2 fun _ _ => rfl,
        withTransitionCopies]
      have harcs : ((Transition.bare n t.guard).moreArcs fun side => ((t.arcs side).map fun e =>
          (⟨e.1, n, e.2⟩ : Connection)).map fun c => (c.place, c.arc)) = { t with name := n } := by
        simp only [List.map_map, Function.comp_def, List.map_id_fun', id]
        rfl
      rw [harcs]
      refine congrArg (EStateM.Result.ok () <| net.withNodes · _)
        (List.map_congr_left fun p hp => ?_)
      simp only [newLinks_copies h hp ht]
  rw [addTransition, bind_of_ok _ hadd, undoing]
  simp only [hconnect]

end Steps

section Loop

variable {step : String → Edit Unit} {grow : Net → List String → Net} {I : Net → Prop}

/-- What copying to several names does: the copies are made in order, up to the first name that a
node has by then. -/
def CopiesTo (net : Net) (act : Edit Unit) (grow : List String → Net) (targets : List String) :
    Prop :=
  ∃ made rest, targets = made ++ rest ∧ made.Nodup ∧ (∀ n ∈ made, n ∉ net.names) ∧
    match rest with
    | [] => act net = .ok () (grow made)
    | n :: _ => (n ∈ net.names ∨ n ∈ made) ∧
      ∃ e, (grow made).ensureFresh n = .error e ∧ act net = .error e (grow made)

lemma forM_copiesTo (hI : I net) (hkeyed : ∀ s, I s → s.Keyed)
    (hok : ∀ s n, I s → n ∉ s.names → step n s = .ok () (grow s [n]) ∧ I (grow s [n]))
    (htaken : ∀ s n e, I s → s.ensureFresh n = .error e → step n s = .error e s)
    (hnil : ∀ s, I s → grow s [] = s)
    (hcons : ∀ s n l, I s → n ∉ s.names → grow (grow s [n]) l = grow s (n :: l))
    (hnames : ∀ s l m, m ∈ (grow s l).names ↔ m ∈ s.names ∨ m ∈ l) (targets : List String) :
    net.CopiesTo (targets.forM step) (grow net) targets := by
  induction targets generalizing net with
  | nil => exact ⟨[], [], rfl, List.nodup_nil, nofun, by rw [hnil net hI]; rfl⟩
  | cons n targets ih =>
    cases hfresh : net.ensureFresh n with
    | error e =>
      have htaken := htaken net n e hI hfresh
      have hmem : n ∈ net.names := by
        by_contra hn
        rw [((hkeyed net hI).ensureFresh_eq_ok_iff (u := ())).2 hn] at hfresh
        cases hfresh
      refine ⟨[], n :: targets, rfl, List.nodup_nil, nofun, .inl hmem, e, ?_, ?_⟩
      · rwa [hnil net hI]
      · rw [hnil net hI]
        exact forM_cons_eq_error.2 (.inl htaken)
    | ok u =>
      have hn := (hkeyed net hI).ensureFresh_eq_ok_iff.1 hfresh
      obtain ⟨hstep, hI₁⟩ := hok net n hI hn
      obtain ⟨made, rest, rfl, hnodup, hfresh, hrest⟩ := ih hI₁
      have hnot : n ∉ made := fun hm => hfresh n hm ((hnames _ _ _).2 (.inr List.mem_cons_self))
      refine ⟨n :: made, rest, rfl, List.nodup_cons.2 ⟨hnot, hnodup⟩,
        List.forall_mem_cons.2 ⟨hn, fun m hm hmem => hfresh m hm ((hnames _ _ _).2 (.inl hmem))⟩, ?_⟩
      rw [hcons net n made hI hn] at hrest
      cases rest with
      | nil => exact forM_cons_eq_ok.2 ⟨_, hstep, hrest⟩
      | cons m rest =>
        obtain ⟨hm, e, he, hrun⟩ := hrest
        refine ⟨?_, e, he, forM_cons_eq_error.2 (.inr ⟨_, hstep, hrun⟩)⟩
        rw [hnames] at hm
        simpa [or_assoc] using hm

end Loop

end Net

end ColouredPetri
