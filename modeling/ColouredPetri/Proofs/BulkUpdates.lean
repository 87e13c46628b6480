import ColouredPetri.Proofs.FiringOutcome

/-! Updates of a whole marking. What a marking has for places that the net lacks is passed over, so
that each update means the part of the marking that is within the net: it is done for this part as
a whole, or it fails and nothing has changed. -/

namespace ColouredPetri

lemma Marking.isSubset_iff {m n : Marking} :
    m.isSubset n = true ↔ ∀ p, (m.tokens p).isSubset (n.tokens p) = true := by
  rw [isSubset, List.all_eq_true]
  constructor
  · intro h p
    by_cases hp : m.tokens p = Bag.empty
    · rw [hp]
      rfl
    · have hget : m.get? p = some (m.tokens p) := get?_eq_some_iff.2 ⟨rfl, hp⟩
      exact h (p, m.tokens p) (Table.get?_eq_some_iff.1 hget)
  · intro h e he
    have htokens : m.tokens e.1 = e.2 := tokens_of_get? (get?_of_mem he)
    rw [← htokens]
    exact h e.1

namespace Net

variable {net net' s : Net} {m : Marking} {u : Unit}

def within (net : Net) (m : Marking) : Marking :=
  Marking.ofList (m.entries.filter fun e => net.hasPlace e.1)

lemma tokens_within (name : String) :
    (net.within m).tokens name = if net.hasPlace name then m.tokens name else Bag.empty := by
  rw [within, Marking.tokens_ofList, Table.total_filter, Marking.total_eq_tokens]
  rfl

lemma tokens_within_place (h : net.Keyed) {p : Place} (hp : p ∈ net.places) :
    (net.within m).tokens p.name = m.tokens p.name := by
  rw [tokens_within, if_pos (h.hasPlace_iff.2 ⟨_, hp, rfl⟩)]

lemma covers_within (h : net.Keyed) : net.Covers (net.within m) := by
  intro name hn
  rw [Marking.mem_places_iff, tokens_within] at hn
  by_cases hp : net.hasPlace name = true
  · exact h.hasPlace_iff.1 hp
  · rw [if_neg hp] at hn
    exact absurd rfl hn

lemma accepts_within (h : net.Keyed) : net.Accepts (net.within m) ↔ net.Accepts m :=
  forall₂_congr fun p hp => by rw [tokens_within_place h hp]

lemma restore_within (h : net.Keyed) : net.restore (net.within m) = net.restore m :=
  restore_congr fun _ hp => tokens_within_place h hp

lemma Remarked.hasPlace_eq (hr : net.Remarked s) (name : String) :
    s.hasPlace name = net.hasPlace name := by
  obtain ⟨k, -, rfl⟩ := hr
  rw [hasPlace, hasPlace, place?_restore, Option.isSome_map]

lemma Remarked.within_eq (hr : net.Remarked s) : s.within m = net.within m := by
  simp only [within, hr.hasPlace_eq]

lemma forM_ifPlace {act : String × Bag → Edit Unit} (hk : ∀ e, Keeps net.Remarked (act e))
    (l : List (String × Bag)) (hs : net.Remarked s) :
    (l.forM fun e => ifPlace e.1 (act e)) s =
      ((l.filter fun e => net.hasPlace e.1).forM act) s := by
  induction l generalizing s with
  | nil => rfl
  | cons e l ih =>
    have hone : ifPlace e.1 (act e) s = if net.hasPlace e.1 then act e s else .ok () s := by
      rw [← hs.hasPlace_eq]
      change (if s.hasPlace e.1 then act e else pure ()) s = _
      split <;> rfl
    by_cases he : net.hasPlace e.1 = true
    · rw [if_pos he] at hone
      rw [List.filter_cons_of_pos (by simpa using he)]
      change (ifPlace e.1 (act e) >>= fun _ => l.forM _) s = (act e >>= fun _ => List.forM _ act) s
      cases hr : act e s with
      | ok v t =>
        rw [hr] at hone
        rw [bind_of_ok _ hone, bind_of_ok _ hr]
        exact ih ((hk e).of_ok hs hr)
      | error d t =>
        rw [hr] at hone
        rw [bind_of_error _ hone, bind_of_error _ hr]
    · rw [if_neg he] at hone
      rw [List.filter_cons_of_neg (by simpa using he)]
      change (ifPlace e.1 (act e) >>= fun _ => l.forM _) s = _
      rw [bind_of_ok _ hone]
      exact ih hs

lemma entries_within (h : net.Keyed) {m : Marking} :
    ∀ e ∈ m.entries.filter fun e => net.hasPlace e.1, ∃ p ∈ net.places, p.name = e.1 := by
  intro e he
  exact h.hasPlace_iff.1 (by simpa using (List.mem_filter.1 he).2)

lemma setMarking_eq_ok_iff_within (h : net.WellFormed) : setMarking m net = .ok u net' ↔
    net.Accepts (net.within m) ∧ net' = net.restore (net.within m) := by
  rw [setMarking_eq_ok_iff h, accepts_within h.keyed, restore_within h.keyed]

lemma addMarking_eq_ok_iff (h : net.WellFormed) : addMarking m net = .ok u net' ↔
    net.Accepts (net.within m) ∧ net' = net.restore (net.marking + net.within m) := by
  have hrun : (m.entries.forM fun e => ifPlace e.1 (addTokens e.1 e.2)) net =
      ((m.entries.filter fun e => net.hasPlace e.1).forM fun e => addTokens e.1 e.2)
        (net.restore net.marking) := by
    rw [restore_marking h]
    exact forM_ifPlace (fun _ => keeps_addTokens h) _ (remarked_self h)
  have haccepts : net.Accepts (net.within m) ↔
      ∀ e ∈ m.entries.filter fun e => net.hasPlace e.1, ∀ p ∈ net.places, p.name = e.1 →
        ∀ v ∈ e.2.toList, p.type.accepts v = true := by
    rw [accepts_within h.keyed, accepts_iff_entries]
    constructor
    · intro ha e he
      exact ha e (List.mem_filter.1 he).1
    · intro ha e he p hp hn
      have hplace : net.hasPlace e.1 = true := hn ▸ h.keyed.hasPlace_iff.2 ⟨_, hp, rfl⟩
      exact ha e (List.mem_filter.2 ⟨he, by simpa using hplace⟩) p hp hn
  rw [addMarking, withRollback_eq_ok_iff, hrun, forM_addTokens_restore h (entries_within h.keyed),
    haccepts]
  rfl

lemma removeMarking_eq_ok_iff (h : net.WellFormed) : removeMarking m net = .ok u net' ↔
    ∃ left, left + net.within m = net.marking ∧ net' = net.restore left := by
  have hrun : (m.entries.forM fun e => ifPlace e.1 (removeTokens e.1 e.2)) net =
      ((m.entries.filter fun e => net.hasPlace e.1).forM fun e => removeTokens e.1 e.2)
        (net.restore net.marking) := by
    rw [restore_marking h]
    exact forM_ifPlace (fun _ => keeps_removeTokens h) _ (remarked_self h)
  rw [removeMarking, withRollback_eq_ok_iff, hrun,
    forM_removeTokens_restore h (entries_within h.keyed)]
  rfl

lemma addMarking_error {e : Error} (h : net.WellFormed) (hs : addMarking m net = .error e net') :
    net' = net :=
  withRollback_error h (keeps_forM fun _ _ => keeps_ifPlace (keeps_addTokens h)) hs

lemma removeMarking_error {e : Error} (h : net.WellFormed)
    (hs : removeMarking m net = .error e net') : net' = net :=
  withRollback_error h (keeps_forM fun _ _ => keeps_ifPlace (keeps_removeTokens h)) hs

lemma removeMarking_of_addMarking (h : net.WellFormed) (hs : addMarking m net = .ok u net') :
    removeMarking m net' = .ok u net := by
  obtain ⟨ha, rfl⟩ := (addMarking_eq_ok_iff h).1 hs
  have haccepts : net.Accepts (net.marking + net.within m) := (accepts_marking h).add ha
  have hremarked : net.Remarked (net.restore (net.marking + net.within m)) := ⟨_, haccepts, rfl⟩
  have hmarking : (net.restore (net.marking + net.within m)).marking =
      net.marking + net.within m :=
    marking_restore h (covers_marking.add (covers_within h.keyed))
  apply (removeMarking_eq_ok_iff (h.restore haccepts)).2
  refine ⟨net.marking, ?_, ?_⟩
  · rw [hremarked.within_eq, hmarking]
  · rw [restore_restore, restore_marking h]

theorem bulk_updates (h : net.Built) (m : Marking) :
    ((∃ net', setMarking m net = .ok () net') ↔ net.Accepts (net.within m)) ∧
    (∀ net', setMarking m net = .ok () net' → net'.marking = net.within m) ∧
    ((∃ net', addMarking m net = .ok () net') ↔ net.Accepts (net.within m)) ∧
    (∀ net', addMarking m net = .ok () net' → net'.marking = net.marking + net.within m) ∧
    ((∃ net', removeMarking m net = .ok () net') ↔
      (net.within m).isSubset net.marking = true) ∧
    (∀ net', removeMarking m net = .ok () net' →
      net.marking.sub (net.within m) = .ok net'.marking) ∧
    (∀ act ∈ [setMarking m, addMarking m, removeMarking m], ∀ e net',
      act net = .error e net' → net' = net) ∧
    setMarking net.marking net = .ok () net ∧
    ∀ net', addMarking m net = .ok () net' → removeMarking m net' = .ok () net := by
  have hw := h.wellFormed
  refine ⟨?_, ?_, ?_, ?_, ?_, ?_, ?_, ?_, ?_⟩
  · simp only [setMarking_eq_ok_iff_within hw]
    exact ⟨fun ⟨_, ha, _⟩ => ha, fun ha => ⟨_, ha, rfl⟩⟩
  · intro net' hs
    obtain ⟨-, rfl⟩ := (setMarking_eq_ok_iff_within hw).1 hs
    exact marking_restore hw (covers_within hw.keyed)
  · simp only [addMarking_eq_ok_iff hw]
    exact ⟨fun ⟨_, ha, _⟩ => ha, fun ha => ⟨_, ha, rfl⟩⟩
  · intro net' hs
    obtain ⟨-, rfl⟩ := (addMarking_eq_ok_iff hw).1 hs
    exact marking_restore hw (covers_marking.add (covers_within hw.keyed))
  · simp only [removeMarking_eq_ok_iff hw]
    rw [Marking.isSubset_iff, ← Marking.exists_add_iff]
    exact ⟨fun ⟨_, left, hl, _⟩ => ⟨left, hl⟩, fun ⟨left, hl⟩ => ⟨_, left, hl, rfl⟩⟩
  · intro net' hs
    obtain ⟨left, hl, rfl⟩ := (removeMarking_eq_ok_iff hw).1 hs
    have hcovers : net.Covers left := Covers.of_add (n := net.within m) (hl ▸ covers_marking)
    rw [marking_restore hw hcovers]
    exact Marking.sub_eq_ok_iff.2 hl
  · intro act hact e net' hs
    simp only [List.mem_cons, List.not_mem_nil, or_false] at hact
    rcases hact with rfl | rfl | rfl
    · exact (setMarking_error hw hs).2
    · exact addMarking_error hw hs
    · exact removeMarking_error hw hs
  · apply (setMarking_eq_ok_iff hw).2
    exact ⟨accepts_marking hw, (restore_marking hw).symm⟩
  · exact fun net' hs => removeMarking_of_addMarking hw hs

def delivery : Marking :=
  Marking.ofList [("p", Bag.ofList [.int 2]), ("q", Bag.ofList [.int 3]), ("r", Bag.ofList [.dot])]

theorem bulk_updates_delivery : refill.Built ∧ ∃ net',
    addMarking delivery refill = .ok () net' ∧
    net'.marking = refill.marking + refill.within delivery ∧
    removeMarking delivery net' = .ok () refill ∧
    ∃ e, removeMarking delivery refill = .error e refill := by
  obtain ⟨-, -, -, hadd, -, -, herror, -, hback⟩ := bulk_updates refill_built delivery
  refine ⟨refill_built, _, rfl, hadd _ rfl, hback _ rfl, ?_⟩
  have hfail : ∃ e net', removeMarking delivery refill = .error e net' := ⟨_, _, rfl⟩
  obtain ⟨e, net', hfail⟩ := hfail
  obtain rfl := herror _ (by simp) e net' hfail
  exact ⟨e, hfail⟩

end Net

end ColouredPetri
