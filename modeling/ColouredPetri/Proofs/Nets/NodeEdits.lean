import ColouredPetri.Proofs.Nets.ArcEdits

namespace ColouredPetri

namespace Net

variable {net : Net}

def withPlace (net : Net) (p : Place) : Net :=
  { net with placeMap := net.placeMap ++ [(p.name, p)] }

def withTransition (net : Net) (t : Transition) : Net :=
  { net with transitionMap := net.transitionMap ++ [(t.name, t)] }

def withoutPlace (net : Net) (name : String) : Net :=
  { net with placeMap := net.placeMap.filter (·.1 != name) }

def withoutTransition (net : Net) (name : String) : Net :=
  { net with transitionMap := net.transitionMap.filter (·.1 != name) }

lemma places_withPlace (net : Net) (p : Place) : (net.withPlace p).places = net.places ++ [p] :=
  List.map_append

lemma transitions_withTransition (net : Net) (t : Transition) :
    (net.withTransition t).transitions = net.transitions ++ [t] := List.map_append

lemma mem_withPlace {p q : Place} : q ∈ (net.withPlace p).places ↔ q ∈ net.places ∨ q = p := by
  rw [places_withPlace, List.mem_append, List.mem_singleton]

lemma mem_withTransition {t u : Transition} :
    u ∈ (net.withTransition t).transitions ↔ u ∈ net.transitions ∨ u = t := by
  rw [transitions_withTransition, List.mem_append, List.mem_singleton]

lemma mem_withoutPlace (h : net.Keyed) {n : String} {q : Place} :
    q ∈ (net.withoutPlace n).places ↔ q ∈ net.places ∧ q.name ≠ n := by
  rw [withoutPlace, places, h.filter_places, List.mem_filter, bne_iff_ne]

lemma mem_withoutTransition (h : net.Keyed) {n : String} {u : Transition} :
    u ∈ (net.withoutTransition n).transitions ↔ u ∈ net.transitions ∧ u.name ≠ n := by
  rw [withoutTransition, transitions, h.filter_transitions, List.mem_filter, bne_iff_ne]

lemma withPlace_wellFormed (h : net.WellFormed) {p : Place} (hn : p.name ∉ net.names)
    (hl : ∀ side, p.links side = []) (ht : p.Typed) : (net.withPlace p).WellFormed where
  keyed := ⟨List.forall_mem_append.2 ⟨h.keyed.places, List.forall_mem_singleton.2 rfl⟩,
    h.keyed.transitions⟩
  names_nodup := by
    have hperm : (net.withPlace p).names.Perm (p.name :: net.names) := by
      rw [names, places_withPlace, List.map_append, List.append_assoc]
      exact List.perm_middle
    exact hperm.nodup_iff.2 (List.nodup_cons.2 ⟨hn, h.names_nodup⟩)
  keys_nodup := h.keys_nodup
  links_nodup q hq side := by
    rcases mem_withPlace.1 hq with hq | rfl
    · exact h.links_nodup q hq side
    · simp [hl]
  keys_places t ht side n hk := by
    obtain ⟨q, hq, hqn⟩ := h.keys_places t ht side n hk
    exact ⟨q, mem_withPlace.2 (.inl hq), hqn⟩
  links_transitions q hq side n hk := by
    rcases mem_withPlace.1 hq with hq | rfl
    · exact h.links_transitions q hq side n hk
    · simp [hl] at hk
  adjacent q hq t ht side := by
    rcases mem_withPlace.1 hq with hq | rfl
    · exact h.adjacent q hq t ht side
    · exact iff_of_false (by simp [hl]) fun hk => hn (h.key_mem_names ht hk)
  valid := h.valid
  allowed := h.allowed
  typed q hq := by
    rcases mem_withPlace.1 hq with hq | rfl
    · exact h.typed q hq
    · exact ht

lemma withTransition_wellFormed (h : net.WellFormed) {t : Transition} (hn : t.name ∉ net.names)
    (ha : ∀ side, t.arcs side = []) : (net.withTransition t).WellFormed where
  keyed := ⟨h.keyed.places,
    List.forall_mem_append.2 ⟨h.keyed.transitions, List.forall_mem_singleton.2 rfl⟩⟩
  names_nodup := by
    have hperm : (net.withTransition t).names.Perm (t.name :: net.names) := by
      rw [names, transitions_withTransition, List.map_append, ← List.append_assoc]
      exact List.perm_append_singleton _ _
    exact hperm.nodup_iff.2 (List.nodup_cons.2 ⟨hn, h.names_nodup⟩)
  keys_nodup u hu side := by
    rcases mem_withTransition.1 hu with hu | rfl
    · exact h.keys_nodup u hu side
    · simp [Transition.keys, ha]
  links_nodup := h.links_nodup
  keys_places u hu side n hk := by
    rcases mem_withTransition.1 hu with hu | rfl
    · exact h.keys_places u hu side n hk
    · simp [Transition.keys, ha] at hk
  links_transitions p hp side n hk := by
    obtain ⟨u, hu, hun⟩ := h.links_transitions p hp side n hk
    exact ⟨u, mem_withTransition.2 (.inl hu), hun⟩
  adjacent p hp u hu side := by
    rcases mem_withTransition.1 hu with hu | rfl
    · exact h.adjacent p hp u hu side
    · exact iff_of_false (fun hk => hn (h.link_mem_names hp hk)) (by simp [Transition.keys, ha])
  valid u hu side e he := by
    rcases mem_withTransition.1 hu with hu | rfl
    · exact h.valid u hu side e he
    · simp [ha] at he
  allowed u hu e he := by
    rcases mem_withTransition.1 hu with hu | rfl
    · exact h.allowed u hu e he
    · simp [ha] at he
  typed := h.typed

lemma withoutPlace_wellFormed (h : net.WellFormed) {p : Place} (hp : p ∈ net.places)
    (hl : ∀ side, p.links side = []) : (net.withoutPlace p.name).WellFormed where
  keyed := ⟨fun e he => h.keyed.places e (List.mem_filter.1 he).1, h.keyed.transitions⟩
  names_nodup := h.names_nodup.sublist (((List.filter_sublist.map _).map _).append_right _)
  keys_nodup := h.keys_nodup
  links_nodup q hq := h.links_nodup q ((mem_withoutPlace h.keyed).1 hq).1
  keys_places t ht side n hk := by
    obtain ⟨q, hq, rfl⟩ := h.keys_places t ht side n hk
    refine ⟨q, (mem_withoutPlace h.keyed).2 ⟨hq, fun hqp => ?_⟩, rfl⟩
    rw [hqp, ← h.adjacent p hp t ht side, hl] at hk
    cases hk
  links_transitions q hq := h.links_transitions q ((mem_withoutPlace h.keyed).1 hq).1
  adjacent q hq := h.adjacent q ((mem_withoutPlace h.keyed).1 hq).1
  valid := h.valid
  allowed := h.allowed
  typed q hq := h.typed q ((mem_withoutPlace h.keyed).1 hq).1

lemma withoutTransition_wellFormed (h : net.WellFormed) {t : Transition} (ht : t ∈ net.transitions)
    (hk : ∀ side, t.keys side = []) : (net.withoutTransition t.name).WellFormed where
  keyed := ⟨h.keyed.places, fun e he => h.keyed.transitions e (List.mem_filter.1 he).1⟩
  names_nodup := h.names_nodup.sublist (((List.filter_sublist.map _).map _).append_left _)
  keys_nodup u hu := h.keys_nodup u ((mem_withoutTransition h.keyed).1 hu).1
  links_nodup := h.links_nodup
  keys_places u hu := h.keys_places u ((mem_withoutTransition h.keyed).1 hu).1
  links_transitions p hp side n hn := by
    obtain ⟨u, hu, rfl⟩ := h.links_transitions p hp side n hn
    refine ⟨u, (mem_withoutTransition h.keyed).2 ⟨hu, fun hut => ?_⟩, rfl⟩
    rw [hut, h.adjacent p hp t ht side, hk] at hn
    cases hn
  adjacent p hp u hu := h.adjacent p hp u ((mem_withoutTransition h.keyed).1 hu).1
  valid u hu := h.valid u ((mem_withoutTransition h.keyed).1 hu).1
  allowed u hu := h.allowed u ((mem_withoutTransition h.keyed).1 hu).1
  typed := h.typed

lemma addPlace_eq_step {p : Place} : addPlace p = step fun net => do
    net.ensureFresh p.name
    return ((), net.withPlace { p with pre := [], post := [] }) :=
  look_bind_step (fun net : Net => net.ensureFresh p.name) fun _ net =>
    .ok ((), net.withPlace { p with pre := [], post := [] })

lemma addBare_eq_step {name : String} {guard : Formula} : addBare name guard = step fun net => do
    net.ensureFresh name
    return ((), net.withTransition (.bare name guard)) :=
  look_bind_step (fun net : Net => net.ensureFresh name) fun _ net =>
    .ok ((), net.withTransition (.bare name guard))

lemma atomic_addPlace {p : Place} : Atomic (addPlace p) := by
  rw [addPlace_eq_step]
  exact atomic_step _

lemma atomic_addBare {name : String} {guard : Formula} : Atomic (addBare name guard) := by
  rw [addBare_eq_step]
  exact atomic_step _

lemma keeps_addPlace {p : Place} (hp : p.Typed) : Keeps WellFormed (addPlace p) := by
  refine keeps_of_atomic atomic_addPlace fun net u net' h hs => ?_
  rw [addPlace_eq_step, step_eq_ok_iff] at hs
  obtain ⟨_, hfresh, hs⟩ := except_bind_eq_ok.1 hs
  cases hs
  refine withPlace_wellFormed h (h.keyed.ensureFresh_eq_ok_iff.1 hfresh) (fun side => ?_) hp
  cases side <;> rfl

lemma keeps_addBare (name : String) (guard : Formula) : Keeps WellFormed (addBare name guard) := by
  refine keeps_of_atomic atomic_addBare fun net u net' h hs => ?_
  rw [addBare_eq_step, step_eq_ok_iff] at hs
  obtain ⟨_, hfresh, hs⟩ := except_bind_eq_ok.1 hs
  cases hs
  refine withTransition_wellFormed h (h.keyed.ensureFresh_eq_ok_iff.1 hfresh) fun side => ?_
  cases side <;> rfl

lemma removeArc_links {net' : Net} (h : net.WellFormed) {side : Side} {place trans : String}
    {arc : Arc} (hs : removeArc side place trans net = .ok arc net') :
    (∀ q ∈ net.places, ∃ q' ∈ net'.places, q'.name = q.name ∧
      ∀ s, q'.links s = if q.name = place ∧ s = side then (q.links s).erase trans
        else q.links s) ∧
    ∀ u ∈ net.transitions, ∃ u' ∈ net'.transitions, u'.name = u.name ∧
      ∀ s, u'.arcs s = if u.name = trans ∧ s = side then Transition.withoutArc (u.arcs s) place
        else u.arcs s := by
  obtain ⟨p, hp, t, ht, rfl, rfl, -, rfl⟩ := removeArc_ok h hs
  constructor
  · intro q hq
    obtain ⟨q', hq', hn, hl⟩ := exists_relinked_place hq
    refine ⟨q', hq', hn, fun s => ?_⟩
    rw [hl]
    split
    · next hsame => rw [h.place_eq hq hp hsame.1, hsame.2]
    · rfl
  · intro u hu
    obtain ⟨u', hu', hn, ha⟩ := exists_relinked_transition hu
    refine ⟨u', hu', hn, fun s => ?_⟩
    rw [ha]
    split
    · next hsame => rw [h.transition_eq hu ht hsame.1, hsame.2]
    · rfl

lemma forM_removeArc_links (side : Side) {l : List String} {net' : Net} {u : Unit}
    (h : net.WellFormed) {p : Place} (hp : p ∈ net.places) (hl : p.links side ⊆ l)
    (hs : (l.forM fun n => do let _ ← removeArc side p.name n : Edit Unit) net = .ok u net') :
    net'.WellFormed ∧ ∃ p' ∈ net'.places, p'.name = p.name ∧ p'.links side = [] ∧
      ∀ s ≠ side, p'.links s = p.links s := by
  induction l generalizing net p with
  | nil =>
    cases hs
    exact ⟨h, p, hp, rfl, List.subset_nil.1 hl, fun _ _ => rfl⟩
  | cons n l ih =>
    obtain ⟨net₁, hone, hs⟩ := forM_cons_eq_ok.1 hs
    obtain ⟨arc, net₁, hone, hpure⟩ := bind_eq_ok.1 hone
    cases hpure
    have h₁ : net₁.WellFormed := (keeps_removeArc side p.name n).of_ok h hone
    obtain ⟨p₁, hp₁, hn₁, hl₁⟩ := (removeArc_links h hone).1 p hp
    have hsub : p₁.links side ⊆ l := by
      rw [hl₁, if_pos ⟨rfl, rfl⟩]
      intro m hm
      have hm := (h.links_nodup p hp side).mem_erase_iff.1 hm
      exact (List.mem_cons.1 (hl hm.2)).resolve_left hm.1
    obtain ⟨h', p', hp', hn', hnil, hother⟩ := ih h₁ hp₁ hsub (hn₁ ▸ hs)
    refine ⟨h', p', hp', hn'.trans hn₁, hnil, fun s hs => ?_⟩
    rw [hother s hs, hl₁, if_neg fun h => hs h.2]

lemma forM_removeArc_arcs (side : Side) {l : List (String × Arc)} {net' : Net} {u : Unit}
    (h : net.WellFormed) {t : Transition} (ht : t ∈ net.transitions) (hl : t.arcs side ⊆ l)
    (hs : (l.forM fun e => do let _ ← removeArc side e.1 t.name : Edit Unit) net = .ok u net') :
    net'.WellFormed ∧ ∃ t' ∈ net'.transitions, t'.name = t.name ∧ t'.arcs side = [] ∧
      ∀ s ≠ side, t'.arcs s = t.arcs s := by
  induction l generalizing net t with
  | nil =>
    cases hs
    exact ⟨h, t, ht, rfl, List.subset_nil.1 hl, fun _ _ => rfl⟩
  | cons e l ih =>
    obtain ⟨net₁, hone, hs⟩ := forM_cons_eq_ok.1 hs
    obtain ⟨arc, net₁, hone, hpure⟩ := bind_eq_ok.1 hone
    cases hpure
    have h₁ : net₁.WellFormed := (keeps_removeArc side e.1 t.name).of_ok h hone
    obtain ⟨t₁, ht₁, hn₁, ha₁⟩ := (removeArc_links h hone).2 t ht
    have hsub : t₁.arcs side ⊆ l := by
      rw [ha₁, if_pos ⟨rfl, rfl⟩]
      intro d hd
      have hd := List.mem_filter.1 hd
      refine (List.mem_cons.1 (hl hd.1)).resolve_left fun hde => ?_
      simp [hde] at hd
    obtain ⟨h', t', ht', hn', hnil, hother⟩ := ih h₁ ht₁ hsub (hn₁ ▸ hs)
    refine ⟨h', t', ht', hn'.trans hn₁, hnil, fun s hs => ?_⟩
    rw [hother s hs, ha₁, if_neg fun h => hs h.2]

lemma forM_removeArc_succeeds {α : Type} (side : Side) {items : List α} {place trans : α → String}
    (h : net.WellFormed)
    (hl : ∀ a ∈ items, ∃ t ∈ net.transitions, t.name = trans a ∧ place a ∈ t.keys side)
    (hn : (items.map fun a => (place a, trans a)).Nodup) : ∃ net',
      (items.forM fun a => do let _ ← removeArc side (place a) (trans a) : Edit Unit) net =
        .ok () net' := by
  induction items generalizing net with
  | nil => exact ⟨net, rfl⟩
  | cons a items ih =>
    obtain ⟨⟨t, ht, hta, ha⟩, hl⟩ := List.forall_mem_cons.1 hl
    obtain ⟨hnot, hn⟩ := List.nodup_cons.1 hn
    obtain ⟨p, hp, hpa⟩ := h.keys_places t ht side (place a) ha
    obtain ⟨arc, net₁, hone⟩ := removeArc_succeeds h hp ht (hpa ▸ ha)
    rw [hpa, hta] at hone
    have h₁ : net₁.WellFormed := (keeps_removeArc side _ _).of_ok h hone
    have hl₁ : ∀ b ∈ items, ∃ u ∈ net₁.transitions, u.name = trans b ∧ place b ∈ u.keys side := by
      intro b hb
      obtain ⟨u, hu, hub, hkey⟩ := hl b hb
      obtain ⟨u₁, hu₁, hun, harcs⟩ := (removeArc_links h hone).2 u hu
      refine ⟨u₁, hu₁, hun.trans hub, ?_⟩
      rw [Transition.keys, harcs]
      split
      · next hsame =>
        refine (keys_withoutArc _ _ _).2 ⟨hkey, fun hplace => hnot ?_⟩
        exact List.mem_map.2 ⟨b, hb, Prod.ext hplace (hub.symm.trans hsame.1)⟩
      · exact hkey
    obtain ⟨net', hrest⟩ := ih h₁ hl₁ hn
    exact ⟨net', forM_cons_eq_ok.2 ⟨net₁, bind_eq_ok.2 ⟨arc, net₁, hone, rfl⟩, hrest⟩⟩

lemma forM_removeArc_arcs_succeeds (side : Side) (h : net.WellFormed) {t : Transition}
    (ht : t ∈ net.transitions) : ∃ net',
      ((t.arcs side).forM fun e => do let _ ← removeArc side e.1 t.name : Edit Unit) net =
        .ok () net' := by
  refine forM_removeArc_succeeds side h
    (fun e he => ⟨t, ht, rfl, List.mem_map_of_mem he⟩) ?_
  have hpairs : ((t.keys side).map fun n => (n, t.name)).Nodup :=
    (h.keys_nodup t ht side).map fun _ _ heq => congrArg Prod.fst heq
  rwa [Transition.keys, List.map_map] at hpairs

lemma forM_removeArc_links_succeeds (side : Side) (h : net.WellFormed) {p : Place}
    (hp : p ∈ net.places) : ∃ net',
      ((p.links side).forM fun n => do let _ ← removeArc side p.name n : Edit Unit) net =
        .ok () net' := by
  refine forM_removeArc_succeeds side h (fun n hn => ?_)
    ((h.links_nodup p hp side).map fun _ _ heq => congrArg Prod.snd heq)
  obtain ⟨t, ht, rfl⟩ := h.links_transitions p hp side n hn
  exact ⟨t, ht, rfl, (h.adjacent p hp t ht side).1 hn⟩

lemma keeps_forM_removeArc {α : Type} (side : Side) (l : List α) (f g : α → String) :
    Keeps WellFormed (l.forM fun a => do let _ ← removeArc side (f a) (g a) : Edit Unit) :=
  keeps_forM fun _ _ => keeps_bind (keeps_removeArc _ _ _) fun _ => keeps_pure _

lemma keeps_removePlace (name : String) : Keeps WellFormed (removePlace name) := by
  intro net h
  refine after_bind (keeps_look _ net h) fun p₀ net₀ hlook => ?_
  obtain ⟨hp, rfl⟩ := look_eq_ok_iff.1 hlook
  obtain ⟨hp₀, rfl⟩ := h.keyed.mem_of_place? (place_eq_ok_iff.1 hp)
  refine after_bind (keeps_forM_removeArc .output _ _ _ _ h) fun _ net₁ hpre => ?_
  obtain ⟨h₁, p₁, hp₁, hn₁, hpre₁, hpost₁⟩ :=
    forM_removeArc_links .output h hp₀ (List.Subset.refl _) hpre
  refine after_bind (keeps_forM_removeArc .input _ _ _ _ h₁) fun _ net₂ hpost => ?_
  obtain ⟨h₂, p₂, hp₂, hn₂, hpost₂, hpre₂⟩ := forM_removeArc_links .input h₁ hp₁
    (hpost₁ .input (by decide) ▸ List.Subset.refl _) (hn₁ ▸ hpost)
  refine after_bind (keeps_look _ _ h₂) fun q net₃ hs => ?_
  obtain ⟨-, rfl⟩ := look_eq_ok_iff.1 hs
  rw [← hn₁, ← hn₂]
  refine withoutPlace_wellFormed h₂ hp₂ fun side => ?_
  cases side with
  | input => exact hpost₂
  | output => rw [hpre₂ .output (by decide), hpre₁]

lemma keeps_removeTransition (name : String) : Keeps WellFormed (removeTransition name) := by
  intro net h
  refine after_bind (keeps_look _ net h) fun t₀ net₀ hlook => ?_
  obtain ⟨ht, rfl⟩ := look_eq_ok_iff.1 hlook
  obtain ⟨ht₀, rfl⟩ := h.keyed.mem_of_transition? (transition_eq_ok_iff.1 ht)
  refine after_bind (keeps_forM_removeArc .input _ _ _ _ h) fun _ net₁ hins => ?_
  obtain ⟨h₁, t₁, ht₁, hn₁, hins₁, houts₁⟩ :=
    forM_removeArc_arcs .input h ht₀ (List.Subset.refl _) hins
  refine after_bind (keeps_forM_removeArc .output _ _ _ _ h₁) fun _ net₂ houts => ?_
  obtain ⟨h₂, t₂, ht₂, hn₂, houts₂, hins₂⟩ := forM_removeArc_arcs .output h₁ ht₁
    (houts₁ .output (by decide) ▸ List.Subset.refl _) (hn₁ ▸ houts)
  refine after_bind (keeps_look _ _ h₂) fun u net₃ hs => ?_
  obtain ⟨-, rfl⟩ := look_eq_ok_iff.1 hs
  rw [← hn₁, ← hn₂]
  refine withoutTransition_wellFormed h₂ ht₂ fun side => ?_
  cases side with
  | input => rw [Transition.keys, hins₂ .input (by decide), hins₁, List.map_nil]
  | output => rw [Transition.keys, houts₂, List.map_nil]

lemma removeTransition_succeeds (h : net.WellFormed) {t : Transition} (ht : t ∈ net.transitions) :
    ∃ u net', removeTransition t.name net = .ok u net' := by
  -- its places know the transition, so that none of the removals of its arcs fails
  have hfind : look (fun net => net.transition t.name) net = .ok t net :=
    look_eq_ok_iff.2 ⟨transition_eq_ok_iff.2 (h.transition?_of_mem ht), rfl⟩
  obtain ⟨net₁, hins⟩ := forM_removeArc_arcs_succeeds .input h ht
  obtain ⟨h₁, t₁, ht₁, hn₁, -, houts₁⟩ :=
    forM_removeArc_arcs .input h ht (List.Subset.refl _) hins
  obtain ⟨net₂, houts⟩ := forM_removeArc_arcs_succeeds .output h₁ ht₁
  rw [houts₁ .output (by decide)] at houts
  obtain ⟨h₂, t₂, ht₂, hn₂, -, -⟩ := forM_removeArc_arcs .output h₁ ht₁
    (houts₁ .output (by decide) ▸ List.Subset.refl _) houts
  rw [hn₁] at houts hn₂
  have hlast : net₂.transition t.name = .ok t₂ :=
    transition_eq_ok_iff.2 (hn₂ ▸ h₂.transition?_of_mem ht₂)
  refine ⟨t₂, net₂.withoutTransition t.name, bind_eq_ok.2 ⟨t, net, hfind, ?_⟩⟩
  refine bind_eq_ok.2 ⟨(), net₁, hins, bind_eq_ok.2 ⟨(), net₂, houts, ?_⟩⟩
  exact bind_of_ok _ (look_eq_ok_iff.2 ⟨hlast, rfl⟩)

lemma removePlace_succeeds (h : net.WellFormed) {p : Place} (hp : p ∈ net.places) :
    ∃ q net', removePlace p.name net = .ok q net' := by
  -- the place knows its arcs, so that none of their removals fails
  have hfind : look (fun net => net.place p.name) net = .ok p net :=
    look_eq_ok_iff.2 ⟨place_eq_ok_iff.2 (h.place?_of_mem hp), rfl⟩
  obtain ⟨net₁, hpre⟩ := forM_removeArc_links_succeeds .output h hp
  obtain ⟨h₁, p₁, hp₁, hn₁, -, hpost₁⟩ :=
    forM_removeArc_links .output h hp (List.Subset.refl _) hpre
  obtain ⟨net₂, hpost⟩ := forM_removeArc_links_succeeds .input h₁ hp₁
  rw [hpost₁ .input (by decide)] at hpost
  obtain ⟨h₂, p₂, hp₂, hn₂, -, -⟩ := forM_removeArc_links .input h₁ hp₁
    (hpost₁ .input (by decide) ▸ List.Subset.refl _) hpost
  rw [hn₁] at hpost hn₂
  have hlast : net₂.place p.name = .ok p₂ :=
    place_eq_ok_iff.2 (hn₂ ▸ h₂.place?_of_mem hp₂)
  refine ⟨p₂, net₂.withoutPlace p.name, bind_eq_ok.2 ⟨p, net, hfind, ?_⟩⟩
  refine bind_eq_ok.2 ⟨(), net₁, hpre, bind_eq_ok.2 ⟨(), net₂, hpost, ?_⟩⟩
  exact bind_of_ok _ (look_eq_ok_iff.2 ⟨hlast, rfl⟩)

end Net

end ColouredPetri
