import ColouredPetri.Proofs.Nets.NodeEdits
import ColouredPetri.Proofs.Nets.Relabelling

namespace ColouredPetri

namespace Net

def renamed (old new n : String) : String := if n == old then new else n

variable {net : Net} {old new : String}

lemma renamed_inj {a b : String} (ha : a ≠ new) (hb : b ≠ new) :
    renamed old new a = renamed old new b ↔ a = b := by
  simp only [renamed, beq_iff_eq]
  by_cases hao : a = old <;> by_cases hbo : b = old
  · simp [hao, hbo]
  · simp [hao, hbo, hb.symm, Ne.symm hbo]
  · simp [hao, hbo, ha]
  · simp [hao, hbo]

lemma renamed_injOn (hnew : new ∉ net.names) :
    Set.InjOn (renamed old new) {n | n ∈ net.names} := fun _ ha _ hb =>
  (renamed_inj (ne_of_mem_of_not_mem ha hnew) (ne_of_mem_of_not_mem hb hnew)).1

lemma renamed_of_ne {n : String} (hn : n ≠ old) : renamed old new n = n := by
  rw [renamed, if_neg (by simpa using hn)]

lemma renameKey_eq {α : Type} (l : List (String × α)) :
    renameKey old new l = l.map fun e => (renamed old new e.1, e.2) := by
  refine List.map_congr_left fun e _ => ?_
  rw [renamed]
  split <;> rfl

lemma Keyed.hasNode_eq_false_iff (h : net.Keyed) : net.hasNode new = false ↔ new ∉ net.names := by
  rw [← h.ensureFresh_eq_ok_iff (u := ()), hasNode, Bool.or_eq_false_iff, ensureFresh]
  cases net.hasPlace new <;> cases net.hasTransition new <;> simp

lemma Keyed.hasNode_iff (h : net.Keyed) : net.hasNode new = true ↔ new ∈ net.names := by
  rw [← Bool.not_eq_false, h.hasNode_eq_false_iff, not_not]

section Keys

variable {β : Type} {items : List (String × β)}

lemma renameKey_keys (items : List (String × β)) :
    (renameKey old new items).map Prod.fst = (items.map Prod.fst).map (renamed old new) := by
  rw [renameKey_eq, List.map_map, List.map_map]
  rfl

lemma renameKey_keys_nodup (hkeys : (items.map Prod.fst).Nodup) (hnew : new ∉ items.map Prod.fst) :
    ((renameKey old new items).map Prod.fst).Nodup := by
  rw [renameKey_keys]
  exact hkeys.map_on fun a ha b hb =>
    (renamed_inj (ne_of_mem_of_not_mem ha hnew) (ne_of_mem_of_not_mem hb hnew)).1

lemma mem_renameKey_keys (hold : old ∈ items.map Prod.fst) :
    new ∈ (renameKey old new items).map Prod.fst := by
  rw [renameKey_keys]
  exact List.mem_map.2 ⟨old, hold, if_pos (beq_self_eq_true old)⟩

lemma updateKey_renameKey (hnew : new ∉ items.map Prod.fst) (f : β → β) :
    updateKey new f (renameKey old new items) =
      items.map fun e => (renamed old new e.1, if e.1 == old then f e.2 else e.2) := by
  rw [updateKey, renameKey, List.map_map]
  refine List.map_congr_left fun e he => ?_
  have hne : e.1 ≠ new := ne_of_mem_of_not_mem (List.mem_map_of_mem he) hnew
  by_cases ho : e.1 = old
  · simp [renamed, ho]
  · simp [renamed, ho, hne]

end Keys

section Updates

variable {α β : Type} {l : List α} {k : α → String} {f : β → β} {items : List (String × β)}
  {n : String}

@[simp] lemma updateKey_keys (n : String) (f : β → β) (items : List (String × β)) :
    (updateKey n f items).map Prod.fst = items.map Prod.fst := by
  rw [updateKey, List.map_map]
  refine List.map_congr_left fun e _ => ?_
  rw [Function.comp_apply]
  split <;> rfl

lemma updateKey_const (hkeys : (items.map Prod.fst).Nodup) {b : β} (hb : (n, b) ∈ items) :
    updateKey n (fun _ => f b) items = updateKey n f items := by
  refine List.map_congr_left fun e he => ?_
  by_cases hn : e.1 = n
  · rw [List.inj_on_of_nodup_map hkeys he hb hn]
  · rw [if_neg (by simpa using hn), if_neg (by simpa using hn)]

lemma updateKey_cons {names : List String} (hn : n ∉ names) (items : List (String × β)) :
    ((updateKey n f items).map fun e => if e.1 ∈ names then (e.1, f e.2) else e) =
      items.map fun e => if e.1 ∈ n :: names then (e.1, f e.2) else e := by
  rw [updateKey, List.map_map]
  refine List.map_congr_left fun e _ => ?_
  by_cases he : e.1 = n
  · simp [he, hn]
  · simp [he]

lemma forM_update_keys {update : String → Edit Unit} (put : List (String × β) → Net)
    (hl : (l.map k).Nodup)
    (hone : ∀ n ∈ l.map k, ∀ current : List (String × β),
      current.map Prod.fst = items.map Prod.fst →
      update n (put current) = .ok () (put (updateKey n f current)))
    (hother : ∀ e ∈ items, e.1 ∉ l.map k → f e.2 = e.2) :
    (l.forM fun a => update (k a)) (put items) =
      .ok () (put (items.map fun e => (e.1, f e.2))) := by
  have hloop : (l.forM fun a => update (k a)) (put items) =
      .ok () (put (items.map fun e => if e.1 ∈ l.map k then (e.1, f e.2) else e)) := by
    clear hother
    induction l generalizing items with
    | nil => simp [pure, EStateM.pure]
    | cons a l ih =>
      obtain ⟨ha, hrest⟩ := List.forall_mem_cons.1 hone
      obtain ⟨hnot, hl⟩ := List.nodup_cons.1 hl
      have hkeys := updateKey_keys (k a) f items
      have hloop := ih hl fun n hn current hc => hrest n hn current (hc.trans hkeys)
      refine forM_cons_eq_ok.2 ⟨_, ha items rfl, hloop.trans ?_⟩
      rw [updateKey_cons hnot, List.map_cons]
  rw [hloop]
  refine congrArg (fun l => EStateM.Result.ok () (put l)) (List.map_congr_left fun e he => ?_)
  split
  · rfl
  · next hn => rw [hother e he hn]

lemma mem_of_lookup {b : β} (h : items.lookup n = some b) : (n, b) ∈ items := by
  obtain ⟨front, back, rfl, -⟩ := List.lookup_eq_some_iff.1 h
  exact List.mem_append_right _ List.mem_cons_self

lemma updateTransition_at (net : Net) {f : Transition → Transition}
    (h : (net.transitionMap.map Prod.fst).Nodup) (hn : n ∈ net.transitionMap.map Prod.fst) :
    updateTransition f n net = .ok () (net.mapTransition n f) := by
  obtain ⟨t, ht⟩ := Option.isSome_iff_exists.1 (lookup_isSome_iff.2 hn)
  have hfind : net.transition n = .ok t := transition_eq_ok_iff.2 ht
  rw [updateTransition, changeTransition_eq_step, step_eq_ok_iff, hfind, mapTransition,
    ← updateKey_const h (mem_of_lookup ht)]
  rfl

lemma updatePlace_at (net : Net) {f : Place → Place} (h : (net.placeMap.map Prod.fst).Nodup)
    (hn : n ∈ net.placeMap.map Prod.fst) :
    updatePlace f n net = .ok () (net.mapPlace n f) := by
  obtain ⟨p, hp⟩ := Option.isSome_iff_exists.1 (lookup_isSome_iff.2 hn)
  rw [updatePlace_of_ok (place_eq_ok_iff.2 hp), mapPlace, mapPlace,
    updateKey_const h (mem_of_lookup hp)]

lemma forM_updateTransition (net : Net) {f : Transition → Transition} {names : List String}
    (h : (net.transitionMap.map Prod.fst).Nodup) (hl : names.Nodup)
    (hm : ∀ n ∈ names, n ∈ net.transitionMap.map Prod.fst)
    (hother : ∀ e ∈ net.transitionMap, e.1 ∉ names → f e.2 = e.2) :
    names.forM (updateTransition f) net =
      .ok () { net with transitionMap := net.transitionMap.map fun e => (e.1, f e.2) } := by
  rw [← List.map_id names] at hl hm hother
  exact forM_update_keys (fun items => { net with transitionMap := items }) hl
    (fun n hn current hc => updateTransition_at { net with transitionMap := current }
      (hc ▸ h) (hc ▸ hm n hn)) hother

lemma forM_updatePlace (net : Net) {f : Place → Place} (h : (net.placeMap.map Prod.fst).Nodup)
    (hl : (l.map k).Nodup) (hm : ∀ n ∈ l.map k, n ∈ net.placeMap.map Prod.fst)
    (hother : ∀ e ∈ net.placeMap, e.1 ∉ l.map k → f e.2 = e.2) :
    (l.forM fun a => updatePlace f (k a)) net =
      .ok () { net with placeMap := net.placeMap.map fun e => (e.1, f e.2) } :=
  forM_update_keys (fun items => { net with placeMap := items }) hl
    (fun n hn current hc => updatePlace_at { net with placeMap := current }
      (hc ▸ h) (hc ▸ hm n hn)) hother

end Updates

lemma renameKey_of_notMem {α : Type} {l : List (String × α)} (h : old ∉ l.map Prod.fst) :
    renameKey old new l = l := by
  refine (List.map_congr_left fun e he => ?_).trans (List.map_id l)
  have hne : ¬ (e.1 == old) = true := fun heq => h (List.mem_map.2 ⟨e, he, beq_iff_eq.1 heq⟩)
  rw [if_neg hne]
  rfl

lemma renameMember_of_notMem {l : List String} (h : old ∉ l) : renameMember old new l = l := by
  refine (List.map_congr_left fun n hn => ?_).trans (List.map_id l)
  have hne : ¬ (n == old) = true := fun heq => h (beq_iff_eq.1 heq ▸ hn)
  rw [if_neg hne]
  rfl

lemma renameInput_of_notMem {t : Transition} (h : old ∉ t.keys .input) :
    renameInput old new t = t :=
  congrArg (fun arcs => { t with inputs := arcs }) (renameKey_of_notMem h)

lemma renameOutput_of_notMem {t : Transition} (h : old ∉ t.keys .output) :
    renameOutput old new t = t :=
  congrArg (fun arcs => { t with outputs := arcs }) (renameKey_of_notMem h)

lemma renamePre_of_notMem {p : Place} (h : old ∉ p.links .output) : renamePre old new p = p :=
  congrArg (fun links => { p with pre := links }) (renameMember_of_notMem h)

lemma renamePost_of_notMem {p : Place} (h : old ∉ p.links .input) : renamePost old new p = p :=
  congrArg (fun links => { p with post := links }) (renameMember_of_notMem h)

section Neighbours

variable (h : net.WellFormed) {p : Place} {t : Transition} {side : Side} {n : String}

include h

lemma WellFormed.placeKeys_nodup : (net.placeMap.map Prod.fst).Nodup :=
  h.keyed.placeKeys_eq ▸ h.places_nodup

lemma WellFormed.transitionKeys_nodup : (net.transitionMap.map Prod.fst).Nodup :=
  h.keyed.transitionKeys_eq ▸ h.transitions_nodup

lemma WellFormed.key_mem_placeKeys (ht : t ∈ net.transitions) (hn : n ∈ t.keys side) :
    n ∈ net.placeMap.map Prod.fst :=
  h.keyed.placeKeys_eq ▸ List.mem_map.2 (h.keys_places t ht side n hn)

lemma WellFormed.link_mem_transitionKeys (hp : p ∈ net.places) (hn : n ∈ p.links side) :
    n ∈ net.transitionMap.map Prod.fst :=
  h.keyed.transitionKeys_eq ▸ List.mem_map.2 (h.links_transitions p hp side n hn)

lemma notMem_keys (hp : p ∈ net.places) {e : String × Transition} (he : e ∈ net.transitionMap)
    (hn : e.1 ∉ p.links side) : p.name ∉ e.2.keys side := fun hk =>
  hn (h.keyed.transitions e he ▸ (h.adjacent p hp e.2 (List.mem_map_of_mem he) side).2 hk)

lemma notMem_links (ht : t ∈ net.transitions) {e : String × Place} (he : e ∈ net.placeMap)
    (hn : e.1 ∉ t.keys side) : t.name ∉ e.2.links side := fun hl =>
  hn (h.keyed.places e he ▸ (h.adjacent e.2 (List.mem_map_of_mem he) t ht side).1 hl)

lemma rename_in_transitions (hp : p ∈ net.places) : (do
      p.pre.forM (updateTransition (renameOutput p.name new))
      p.post.forM (updateTransition (renameInput p.name new)) : Edit Unit) net =
    .ok () { net with transitionMap := net.transitionMap.map fun e =>
      (e.1, renameInput p.name new (renameOutput p.name new e.2)) } := by
  have hpre := forM_updateTransition net (f := renameOutput p.name new) h.transitionKeys_nodup
    (h.links_nodup p hp .output) (fun n => h.link_mem_transitionKeys hp) fun e he hn =>
      renameOutput_of_notMem (notMem_keys h hp he hn)
  have hkeys : (net.transitionMap.map fun e => (e.1, renameOutput p.name new e.2)).map Prod.fst =
      net.transitionMap.map Prod.fst := List.map_map
  have hpost := forM_updateTransition
    { net with transitionMap :=
      net.transitionMap.map fun e => (e.1, renameOutput p.name new e.2) }
    (f := renameInput p.name new) (hkeys ▸ h.transitionKeys_nodup) (h.links_nodup p hp .input)
    (fun n hn => hkeys ▸ h.link_mem_transitionKeys hp hn) fun e he hn => by
      obtain ⟨d, hd, rfl⟩ := List.mem_map.1 he
      have hnot : p.name ∉ d.2.keys .input := notMem_keys h hp hd hn
      exact renameInput_of_notMem hnot
  refine (bind_of_ok _ hpre).trans (hpost.trans ?_)
  rw [List.map_map]
  rfl

lemma rename_in_places (ht : t ∈ net.transitions) : (do
      t.inputs.forM fun e => updatePlace (renamePost t.name new) e.1
      t.outputs.forM fun e => updatePlace (renamePre t.name new) e.1 : Edit Unit) net =
    .ok () { net with placeMap := net.placeMap.map fun e =>
      (e.1, renamePre t.name new (renamePost t.name new e.2)) } := by
  have hins := forM_updatePlace net (f := renamePost t.name new) h.placeKeys_nodup
    (h.keys_nodup t ht .input) (fun n => h.key_mem_placeKeys ht) fun e he hn =>
      renamePost_of_notMem (notMem_links h ht he hn)
  have hkeys : (net.placeMap.map fun e => (e.1, renamePost t.name new e.2)).map Prod.fst =
      net.placeMap.map Prod.fst := List.map_map
  have houts := forM_updatePlace
    { net with placeMap := net.placeMap.map fun e => (e.1, renamePost t.name new e.2) }
    (f := renamePre t.name new) (hkeys ▸ h.placeKeys_nodup) (h.keys_nodup t ht .output)
    (fun n hn => hkeys ▸ h.key_mem_placeKeys ht hn) fun e he hn => by
      obtain ⟨d, hd, rfl⟩ := List.mem_map.1 he
      have hnot : t.name ∉ d.2.links .output := notMem_links h ht hd hn
      exact renamePre_of_notMem hnot
  refine (bind_of_ok _ hins).trans (houts.trans ?_)
  rw [List.map_map]
  rfl

end Neighbours

section Records

variable {p : Place} {t : Transition}

lemma relabel_of_notMem_links (h : ∀ side, old ∉ p.links side) :
    p.relabel (renamed old new) = if p.name == old then { p with name := new } else p := by
  have hlinks : ∀ side, (p.links side).map (renamed old new) = p.links side :=
    fun side => renameMember_of_notMem (h side)
  have hname : p.relabel (renamed old new) = { p with name := renamed old new p.name } :=
    congrArg₂ (fun pre post => { p with name := renamed old new p.name, pre, post })
      (hlinks .output) (hlinks .input)
  rw [hname, renamed]
  split <;> rfl

lemma relabel_of_notMem_keys (h : ∀ side, old ∉ t.keys side) :
    t.relabel (renamed old new) = if t.name == old then { t with name := new } else t := by
  have harcs : ∀ side, (t.arcs side).map (Prod.map (renamed old new) id) = t.arcs side :=
    fun side => (renameKey_eq _).symm.trans (renameKey_of_notMem (h side))
  have hname : t.relabel (renamed old new) = { t with name := renamed old new t.name } :=
    congrArg₂ (fun inputs outputs => { t with name := renamed old new t.name, inputs, outputs })
      (harcs .input) (harcs .output)
  rw [hname, renamed]
  split <;> rfl

lemma rename_links_eq (h : p.name ≠ old) :
    renamePre old new (renamePost old new p) = p.relabel (renamed old new) := by
  rw [Place.relabel, renamed_of_ne h]
  rfl

lemma rename_arcs_eq (h : t.name ≠ old) :
    renameInput old new (renameOutput old new t) = t.relabel (renamed old new) := by
  rw [Transition.relabel, renamed_of_ne h, renameInput, renameOutput, renameKey_eq, renameKey_eq]
  rfl

end Records

lemma renameNode_of_place (h : net.WellFormed) {p : Place} (hp : p ∈ net.places)
    (hnew : net.hasNode new = false) :
    renameNode p.name new net = .ok () (net.relabel (renamed p.name new)) := by
  have hrun : renameNode p.name new net = ((do
      p.pre.forM (updateTransition (renameOutput p.name new))
      p.post.forM (updateTransition (renameInput p.name new)) : Edit Unit) >>= fun _ => do
      modify fun net => { net with placeMap := renameKey p.name new net.placeMap }
      updatePlace (fun p => { p with name := new }) new) net := by
    refine (bind_of_ok (x := get) (t := net) _ rfl).trans ?_
    simp only [hnew, h.place?_of_mem hp, bind_assoc]
    rfl
  have hfresh : new ∉ net.placeMap.map Prod.fst := h.keyed.placeKeys_eq ▸ fun hn =>
    h.keyed.hasNode_eq_false_iff.1 hnew (List.mem_append_left _ hn)
  have hold : p.name ∈ net.placeMap.map Prod.fst :=
    h.keyed.placeKeys_eq ▸ List.mem_map_of_mem hp
  rw [hrun, bind_of_ok _ (rename_in_transitions h hp)]
  refine (updatePlace_at _ (renameKey_keys_nodup h.placeKeys_nodup hfresh)
    (mem_renameKey_keys hold)).trans (congrArg (EStateM.Result.ok ()) ?_)
  rw [mapPlace, updateKey_renameKey hfresh, relabel, Net.mk.injEq]
  refine ⟨rfl, List.map_congr_left fun e he => ?_, List.map_congr_left fun e he => ?_, rfl⟩
  · have hlinks : ∀ side, p.name ∉ e.2.links side := fun side hn => by
      obtain ⟨t, ht, htn⟩ := h.links_transitions e.2 (List.mem_map_of_mem he) side _ hn
      exact h.name_ne hp ht htn.symm
    rw [relabel_of_notMem_links hlinks, h.keyed.places e he]
  · have hne : e.2.name ≠ p.name := (h.name_ne hp (List.mem_map_of_mem he)).symm
    rw [rename_arcs_eq hne, renamed_of_ne (h.keyed.transitions e he ▸ hne)]

lemma renameNode_of_transition (h : net.WellFormed) {t : Transition} (ht : t ∈ net.transitions)
    (hnew : net.hasNode new = false) :
    renameNode t.name new net = .ok () (net.relabel (renamed t.name new)) := by
  have hplace : net.place? t.name = none := by
    rw [h.keyed.place?_eq]
    exact List.find?_eq_none.2 fun _ hp hn => h.name_ne hp ht (beq_iff_eq.1 hn)
  have hrun : renameNode t.name new net = ((do
      t.inputs.forM fun e => updatePlace (renamePost t.name new) e.1
      t.outputs.forM fun e => updatePlace (renamePre t.name new) e.1 : Edit Unit) >>= fun _ => do
      modify fun net => { net with transitionMap := renameKey t.name new net.transitionMap }
      updateTransition (fun t => { t with name := new }) new) net := by
    refine (bind_of_ok (x := get) (t := net) _ rfl).trans ?_
    simp only [hnew, hplace, h.transition?_of_mem ht, bind_assoc]
    rfl
  have hfresh : new ∉ net.transitionMap.map Prod.fst := h.keyed.transitionKeys_eq ▸ fun hn =>
    h.keyed.hasNode_eq_false_iff.1 hnew (List.mem_append_right _ hn)
  have hold : t.name ∈ net.transitionMap.map Prod.fst :=
    h.keyed.transitionKeys_eq ▸ List.mem_map_of_mem ht
  rw [hrun, bind_of_ok _ (rename_in_places h ht)]
  refine (updateTransition_at _ (renameKey_keys_nodup h.transitionKeys_nodup hfresh)
    (mem_renameKey_keys hold)).trans (congrArg (EStateM.Result.ok ()) ?_)
  rw [mapTransition, updateKey_renameKey hfresh, relabel, Net.mk.injEq]
  refine ⟨rfl, List.map_congr_left fun e he => ?_, List.map_congr_left fun e he => ?_, rfl⟩
  · have hne : e.2.name ≠ t.name := h.name_ne (List.mem_map_of_mem he) ht
    rw [rename_links_eq hne, renamed_of_ne (h.keyed.places e he ▸ hne)]
  · have hkeys : ∀ side, t.name ∉ e.2.keys side := fun side hn => by
      obtain ⟨p, hp, hpn⟩ := h.keys_places e.2 (List.mem_map_of_mem he) side _ hn
      exact h.name_ne hp ht hpn
    rw [relabel_of_notMem_keys hkeys, h.keyed.transitions e he]

lemma renameNode_eq (h : net.WellFormed) (hold : net.hasNode old = true)
    (hnew : net.hasNode new = false) :
    renameNode old new net = .ok () (net.relabel (renamed old new)) := by
  rw [hasNode, Bool.or_eq_true] at hold
  rcases hold with hold | hold
  · obtain ⟨p, hfound⟩ := Option.isSome_iff_exists.1 hold
    obtain ⟨hp, rfl⟩ := h.keyed.mem_of_place? hfound
    exact renameNode_of_place h hp hnew
  · obtain ⟨t, hfound⟩ := Option.isSome_iff_exists.1 hold
    obtain ⟨ht, rfl⟩ := h.keyed.mem_of_transition? hfound
    exact renameNode_of_transition h ht hnew

lemma renameNode_taken (hnew : net.hasNode new = true) :
    renameNode old new net = .error (.structural (.nodeExists .node new)) net := by
  refine (bind_of_ok (x := get) (t := net) _ rfl).trans ?_
  simp only [hnew]
  rfl

lemma renameNode_absent (hold : net.hasNode old = false) (hnew : net.hasNode new = false) :
    renameNode old new net = .error (.structural (.nodeNotFound .node old)) net := by
  rw [hasNode, Bool.or_eq_false_iff] at hold
  refine (bind_of_ok (x := get) (t := net) _ rfl).trans ?_
  simp only [hnew, Option.not_isSome_iff_eq_none.1 (Bool.eq_false_iff.1 hold.1),
    Option.not_isSome_iff_eq_none.1 (Bool.eq_false_iff.1 hold.2)]
  rfl

lemma keeps_renameNode (old new : String) : Keeps WellFormed (renameNode old new) := by
  intro net h
  cases hnew : net.hasNode new with
  | true =>
    rwa [after_of_error (renameNode_taken hnew)]
  | false =>
    cases hold : net.hasNode old with
    | true =>
      rw [after_of_ok (renameNode_eq h hold hnew)]
      exact h.relabel (renamed_injOn (h.keyed.hasNode_eq_false_iff.1 hnew))
    | false =>
      rwa [after_of_error (renameNode_absent hold hnew)]

end Net

end ColouredPetri
