import ColouredPetri.Proofs.Nets.Restore
import ColouredPetri.Proofs.Nets.Steps

namespace ColouredPetri

namespace Net

section Steps

variable {net net' : Net} {m : Marking} {p : Place} {u : Unit}

lemma mapPlace_restore (h : net.WellFormed) (hp : p ∈ net.places) (bag : Bag) :
    (net.restore m).mapPlace p.name (fun _ => { p with tokens := bag }) =
      net.restore (m.set p.name bag) := by
  simp only [mapPlace, updateKey, restore, List.map_map, Net.mk.injEq, true_and, and_true]
  refine List.map_congr_left fun e he => ?_
  have hkey := h.keyed.places e he
  rw [Function.comp_apply, Marking.tokens_set]
  by_cases hn : e.2.name = p.name
  · rw [hkey, h.place_eq (List.mem_map_of_mem he) hp hn, if_pos (beq_self_eq_true _), if_pos rfl]
  · rw [hkey, if_neg (by simpa using hn), if_neg hn]

lemma editTokens_restore (h : net.WellFormed) (hp : p ∈ net.places)
    {f : Place → Except TokenError Place} :
    editTokens p.name f (net.restore m) = .ok u net' ↔
      ∃ q, f { p with tokens := m.tokens p.name } = .ok q ∧
        net' = (net.restore m).mapPlace p.name fun _ => q := by
  have hplace : (net.restore m).place p.name = .ok { p with tokens := m.tokens p.name } :=
    place_eq_ok_iff.2 (by rw [place?_restore, h.place?_of_mem hp]; rfl)
  rw [editTokens_eq_step, step_eq_ok_iff]
  simp only [hplace, except_ok_bind, lift_token, except_bind_eq_ok, mapError_eq_ok_iff,
    except_pure, Except.ok.injEq, Prod.mk.injEq, true_and, @eq_comm _ net']

lemma check_eq_ok_iff {p : Place} {values : List Value} :
    p.check values = .ok u ↔ ∀ v ∈ values, p.type.accepts v = true := by
  rw [Place.check]
  cases hf : values.find? fun v => !p.type.accepts v with
  | none =>
    refine iff_of_true rfl fun v hv => ?_
    simpa using List.find?_eq_none.1 hf v hv
  | some v =>
    refine iff_of_false (fun h => by cases h) fun h => ?_
    have := List.find?_some hf
    simp [h v (List.mem_of_find?_eq_some hf)] at this

lemma check_eq_error {p : Place} {values : List Value} {d : TokenError}
    (hs : p.check values = .error d) :
    ∃ v ∈ values, p.type.accepts v = false ∧ d = .forbidden p.name v := by
  rw [Place.check] at hs
  split at hs
  · next v hf =>
    cases hs
    exact ⟨v, List.mem_of_find?_eq_some hf, by simpa using List.find?_some hf, rfl⟩
  · cases hs

lemma editTokens_error (h : net.WellFormed) (hp : p ∈ net.places)
    {f : Place → Except TokenError Place} {e : Error}
    (hs : editTokens p.name f (net.restore m) = .error e net') :
    ∃ d, f { p with tokens := m.tokens p.name } = .error d ∧ e = .token d := by
  have hplace : (net.restore m).place p.name = .ok { p with tokens := m.tokens p.name } :=
    place_eq_ok_iff.2 (by rw [place?_restore, h.place?_of_mem hp]; rfl)
  rw [editTokens_eq_step, step_eq_error_iff] at hs
  obtain ⟨hs, -⟩ := hs
  simp only [hplace, except_ok_bind, lift_token] at hs
  cases hf : f { p with tokens := m.tokens p.name } with
  | ok q =>
    rw [hf] at hs
    cases hs
  | error d =>
    rw [hf] at hs
    cases hs
    exact ⟨d, rfl, rfl⟩

lemma remove_eq_ok_iff {p q : Place} {bag : Bag} :
    p.remove bag.toList = .ok q ↔ ∃ left, left + bag = p.tokens ∧ q = { p with tokens := left } := by
  rw [Place.remove, Bag.remove_toList]
  simp only [← Bag.sub_eq_ok_iff]
  cases p.tokens.sub bag with
  | error e => exact ⟨fun h => (by cases h), fun ⟨_, h, _⟩ => by cases h⟩
  | ok c => exact ⟨fun h => by cases h; exact ⟨c, rfl, rfl⟩, fun ⟨_, h, hq⟩ => by cases h; rw [hq]⟩

lemma add_eq_ok_iff {p q : Place} {bag : Bag} : p.add bag.toList = .ok q ↔
    (∀ v ∈ bag.toList, p.type.accepts v = true) ∧ q = { p with tokens := p.tokens + bag } := by
  rw [Place.add, Bag.addAll_toList, ← check_eq_ok_iff (u := ())]
  cases p.check bag.toList with
  | error e => exact ⟨fun h => (by cases h), fun ⟨h, _⟩ => by cases h⟩
  | ok c => exact ⟨fun h => by cases h; exact ⟨rfl, rfl⟩, fun ⟨_, hq⟩ => by rw [hq]⟩

lemma reset_eq_ok_iff {p q : Place} {bag : Bag} : p.reset bag.toList = .ok q ↔
    (∀ v ∈ bag.toList, p.type.accepts v = true) ∧ q = { p with tokens := bag } := by
  rw [Place.reset, Bag.ofList_toList, ← check_eq_ok_iff (u := ())]
  cases p.check bag.toList with
  | error e => exact ⟨fun h => (by cases h), fun ⟨h, _⟩ => by cases h⟩
  | ok c => exact ⟨fun h => by cases h; exact ⟨rfl, rfl⟩, fun ⟨_, hq⟩ => by rw [hq]⟩

lemma removeTokens_restore (h : net.WellFormed) (hp : p ∈ net.places) {bag : Bag} :
    removeTokens p.name bag (net.restore m) = .ok u net' ↔
      ∃ left, left + Marking.single p.name bag = m ∧ net' = net.restore left := by
  rw [removeTokens, editTokens_restore h hp]
  simp only [remove_eq_ok_iff]
  constructor
  · rintro ⟨q, ⟨c, hc, rfl⟩, rfl⟩
    refine ⟨m.set p.name c, ?_, mapPlace_restore h hp c⟩
    rw [← Marking.addTokens_eq_add]
    refine Marking.ext_tokens fun name => ?_
    rw [Marking.tokens_addTokens, Marking.tokens_set]
    split
    · next hn => rw [hn, hc]
    · rfl
  · rintro ⟨left, rfl, rfl⟩
    refine ⟨_, ⟨left.tokens p.name, ?_, rfl⟩, ?_⟩
    · rw [← Marking.addTokens_eq_add, Marking.tokens_addTokens, if_pos rfl]
    · refine (restore_congr fun q _ => ?_).trans (mapPlace_restore h hp _).symm
      rw [Marking.tokens_set, ← Marking.addTokens_eq_add, Marking.tokens_addTokens]
      split
      · next hn => rw [hn]
      · rfl

lemma addTokens_restore (h : net.WellFormed) (hp : p ∈ net.places) {bag : Bag} :
    addTokens p.name bag (net.restore m) = .ok u net' ↔
      (∀ v ∈ bag.toList, p.type.accepts v = true) ∧
        net' = net.restore (m + Marking.single p.name bag) := by
  have hset : m.set p.name (m.tokens p.name + bag) = m + Marking.single p.name bag :=
    Marking.addTokens_eq_add m p.name bag
  rw [addTokens, editTokens_restore h hp]
  simp only [add_eq_ok_iff]
  constructor
  · rintro ⟨q, ⟨hc, rfl⟩, rfl⟩
    exact ⟨hc, hset ▸ mapPlace_restore h hp _⟩
  · rintro ⟨hc, rfl⟩
    exact ⟨_, ⟨hc, rfl⟩, hset ▸ (mapPlace_restore h hp _).symm⟩

lemma addTokens_error (h : net.WellFormed) (hp : p ∈ net.places) {bag : Bag} {e : Error}
    (hs : addTokens p.name bag (net.restore m) = .error e net') :
    ∃ v ∈ bag.toList, p.type.accepts v = false ∧ e = .token (.forbidden p.name v) := by
  obtain ⟨d, hd, rfl⟩ := editTokens_error h hp hs
  rw [Place.add] at hd
  split at hd
  · next hc =>
    cases hd
    obtain ⟨v, hv, hrefused, rfl⟩ := check_eq_error hc
    exact ⟨v, hv, hrefused, rfl⟩
  · cases hd

lemma resetTokens_restore (h : net.WellFormed) (hp : p ∈ net.places) {n : Marking} :
    resetTokens n p.name (net.restore m) = .ok u net' ↔
      (∀ v ∈ (n.tokens p.name).toList, p.type.accepts v = true) ∧
        net' = net.restore (m.set p.name (n.tokens p.name)) := by
  rw [resetTokens, editTokens_restore h hp, ← mapPlace_restore h hp]
  cases hn : n.get? p.name with
  | some bag =>
    rw [Marking.tokens_of_get? hn]
    simp only [reset_eq_ok_iff]
    constructor
    · rintro ⟨q, ⟨hc, rfl⟩, hnet⟩
      exact ⟨hc, hnet⟩
    · rintro ⟨hc, hnet⟩
      exact ⟨_, ⟨hc, rfl⟩, hnet⟩
  | none =>
    have : n.tokens p.name = Bag.empty := by rw [Marking.tokens, hn]; rfl
    rw [this]
    constructor
    · rintro ⟨q, hq, hnet⟩
      cases hq
      exact ⟨fun v hv => (by cases hv), hnet⟩
    · rintro ⟨-, hnet⟩
      exact ⟨_, rfl, hnet⟩

lemma resetTokens_error (h : net.WellFormed) (hp : p ∈ net.places) {n : Marking} {e : Error}
    (hs : resetTokens n p.name (net.restore m) = .error e net') :
    ∃ v ∈ (n.tokens p.name).toList, p.type.accepts v = false ∧
      e = .token (.forbidden p.name v) := by
  obtain ⟨d, hd, rfl⟩ := editTokens_error h hp hs
  cases hn : n.get? p.name with
  | none =>
    simp only [hn] at hd
    cases hd
  | some bag =>
    simp only [hn, Place.reset, Bag.ofList_toList] at hd
    split at hd
    · next hc =>
      cases hd
      obtain ⟨v, hv, hrefused, rfl⟩ := check_eq_error hc
      exact ⟨v, Marking.tokens_of_get? hn ▸ hv, hrefused, rfl⟩
    · cases hd

end Steps

section Loops

variable {net net' : Net} {m : Marking} {u : Unit} {l : List (String × Bag)}

lemma forM_removeTokens_restore (h : net.WellFormed)
    (hl : ∀ e ∈ l, ∃ p ∈ net.places, p.name = e.1) :
    (l.forM fun e => removeTokens e.1 e.2) (net.restore m) = .ok u net' ↔
      ∃ left, left + Marking.ofList l = m ∧ net' = net.restore left := by
  induction l generalizing m with
  | nil =>
    constructor
    · intro hs
      cases hs
      exact ⟨m, add_zero m, rfl⟩
    · rintro ⟨left, hm, rfl⟩
      rw [← hm, show left + Marking.ofList [] = left from add_zero left]
      rfl
  | cons e l ih =>
    obtain ⟨p, hp, hn⟩ := hl e List.mem_cons_self
    have ih' := fun k : Marking => @ih k fun d hd => hl d (List.mem_cons_of_mem _ hd)
    rw [forM_cons_eq_ok, ← hn]
    simp only [removeTokens_restore h hp, Marking.ofList_cons, ← hn, ← add_assoc]
    constructor
    · rintro ⟨t, ⟨k, rfl, rfl⟩, hs⟩
      obtain ⟨left, rfl, rfl⟩ := (ih' k).1 hs
      exact ⟨left, rfl, rfl⟩
    · rintro ⟨left, rfl, rfl⟩
      exact ⟨_, ⟨_, rfl, rfl⟩, (ih' _).2 ⟨left, rfl, rfl⟩⟩

lemma forM_addTokens_restore (h : net.WellFormed)
    (hl : ∀ e ∈ l, ∃ p ∈ net.places, p.name = e.1) :
    (l.forM fun e => addTokens e.1 e.2) (net.restore m) = .ok u net' ↔
      (∀ e ∈ l, ∀ p ∈ net.places, p.name = e.1 → ∀ v ∈ e.2.toList, p.type.accepts v = true) ∧
        net' = net.restore (m + Marking.ofList l) := by
  induction l generalizing m with
  | nil =>
    rw [show m + Marking.ofList [] = m from add_zero m]
    exact ⟨fun hs => by cases hs; exact ⟨nofun, rfl⟩, fun ⟨_, hs⟩ => hs ▸ rfl⟩
  | cons e l ih =>
    obtain ⟨p, hp, hn⟩ := hl e List.mem_cons_self
    have ih' := fun k : Marking => @ih k fun d hd => hl d (List.mem_cons_of_mem _ hd)
    have hfirst : (∀ q ∈ net.places, q.name = p.name → ∀ v ∈ e.2.toList,
        q.type.accepts v = true) ↔ ∀ v ∈ e.2.toList, p.type.accepts v = true :=
      ⟨fun hq => hq p hp rfl, fun hv q hq hqp => h.place_eq hq hp hqp ▸ hv⟩
    have hsum : m + Marking.single p.name e.2 + Marking.ofList l =
        m + (Marking.ofList l + Marking.single p.name e.2) := by
      rw [add_assoc, add_comm (Marking.ofList l)]
    rw [forM_cons_eq_ok, List.forall_mem_cons, ← hn, hfirst, Marking.ofList_cons, ← hn,
      ← hsum]
    simp only [addTokens_restore h hp]
    constructor
    · rintro ⟨t, ⟨hv, rfl⟩, hs⟩
      obtain ⟨hrest, rfl⟩ := (ih' _).1 hs
      exact ⟨⟨hv, hrest⟩, rfl⟩
    · rintro ⟨⟨hv, hrest⟩, rfl⟩
      exact ⟨_, ⟨hv, rfl⟩, (ih' _).2 ⟨hrest, rfl⟩⟩

lemma forM_addTokens_error (h : net.WellFormed)
    (hl : ∀ e ∈ l, ∃ p ∈ net.places, p.name = e.1) {err : Error}
    (hs : (l.forM fun e => addTokens e.1 e.2) (net.restore m) = .error err net') :
    ∃ e ∈ l, ∃ p ∈ net.places, p.name = e.1 ∧ ∃ v ∈ e.2.toList,
      p.type.accepts v = false ∧ err = .token (.forbidden p.name v) := by
  induction l generalizing m with
  | nil => cases hs
  | cons e l ih =>
    obtain ⟨p, hp, hn⟩ := hl e List.mem_cons_self
    rw [forM_cons_eq_error, ← hn] at hs
    rcases hs with hs | ⟨t, hone, hs⟩
    · exact ⟨e, List.mem_cons_self, p, hp, hn, addTokens_error h hp hs⟩
    · obtain ⟨-, rfl⟩ := (addTokens_restore h hp).1 hone
      obtain ⟨d, hd, hrest⟩ := ih (fun d hd => hl d (List.mem_cons_of_mem _ hd)) hs
      exact ⟨d, List.mem_cons_of_mem _ hd, hrest⟩

lemma accepts_iff_entries : net.Accepts m ↔
    ∀ e ∈ m.entries, ∀ p ∈ net.places, p.name = e.1 → ∀ v ∈ e.2.toList,
      p.type.accepts v = true := by
  constructor
  · intro h e he p hp hn
    rw [← Marking.tokens_of_get? (Marking.get?_of_mem he), ← hn]
    exact h p hp
  · intro h p hp v hv
    have hne : m.tokens p.name ≠ Bag.empty := fun hc => by rw [hc] at hv; cases hv
    exact h (p.name, m.tokens p.name)
      (Table.get?_eq_some_iff.1 (Marking.get?_eq_some_iff.2 ⟨rfl, hne⟩)) p hp rfl v hv

lemma tokens_foldl_set (l : List Place) (m k : Marking) (name : String) :
    (l.foldl (fun acc p => acc.set p.name (m.tokens p.name)) k).tokens name =
      if name ∈ l.map Place.name then m.tokens name else k.tokens name := by
  induction l generalizing k with
  | nil => rfl
  | cons p l ih =>
    rw [List.foldl_cons, ih, Marking.tokens_set, List.map_cons]
    by_cases hl : name ∈ l.map Place.name
    · rw [if_pos hl, if_pos (List.mem_cons_of_mem _ hl)]
    · by_cases hp : name = p.name
      · rw [if_neg hl, if_pos hp, if_pos (hp ▸ List.mem_cons_self), hp]
      · rw [if_neg hl, if_neg hp, if_neg (fun h => (List.mem_cons.1 h).elim hp hl)]

lemma forM_resetTokens_restore (h : net.WellFormed) {l : List Place} (hl : l ⊆ net.places)
    {k : Marking} : (l.forM fun p => resetTokens m p.name) (net.restore k) = .ok u net' ↔
      (∀ p ∈ l, ∀ v ∈ (m.tokens p.name).toList, p.type.accepts v = true) ∧
        net' = net.restore (l.foldl (fun acc p => acc.set p.name (m.tokens p.name)) k) := by
  induction l generalizing k with
  | nil => exact ⟨fun hs => by cases hs; exact ⟨nofun, rfl⟩, fun ⟨_, hs⟩ => hs ▸ rfl⟩
  | cons p l ih =>
    obtain ⟨hp, hl⟩ := List.cons_subset.1 hl
    rw [forM_cons_eq_ok, List.forall_mem_cons, List.foldl_cons]
    simp only [resetTokens_restore h hp]
    constructor
    · rintro ⟨t, ⟨hv, rfl⟩, hs⟩
      obtain ⟨hrest, rfl⟩ := (ih hl).1 hs
      exact ⟨⟨hv, hrest⟩, rfl⟩
    · rintro ⟨⟨hv, hrest⟩, rfl⟩
      exact ⟨_, ⟨hv, rfl⟩, (ih hl).2 ⟨hrest, rfl⟩⟩

lemma forM_resetTokens_error (h : net.WellFormed) {l : List Place} (hl : l ⊆ net.places)
    {k : Marking} {e : Error}
    (hs : (l.forM fun p => resetTokens m p.name) (net.restore k) = .error e net') :
    ∃ p ∈ l, ∃ v ∈ (m.tokens p.name).toList, p.type.accepts v = false ∧
      e = .token (.forbidden p.name v) := by
  induction l generalizing k with
  | nil => cases hs
  | cons p l ih =>
    obtain ⟨hp, hl⟩ := List.cons_subset.1 hl
    rw [forM_cons_eq_error] at hs
    rcases hs with hs | ⟨t, hone, hs⟩
    · exact ⟨p, List.mem_cons_self, resetTokens_error h hp hs⟩
    · obtain ⟨-, rfl⟩ := (resetTokens_restore h hp).1 hone
      obtain ⟨q, hq, hrest⟩ := ih hl hs
      exact ⟨q, List.mem_cons_of_mem _ hq, hrest⟩

end Loops

def Remarked (net net' : Net) : Prop := ∃ m, net.Accepts m ∧ net' = net.restore m

section Rollback

variable {net net' : Net} {m : Marking} {u : Unit} {name : String} {bag : Bag}

lemma remarked_self (h : net.WellFormed) : net.Remarked net :=
  ⟨net.marking, accepts_marking h, (restore_marking h).symm⟩

lemma Remarked.wellFormed (h : net.WellFormed) (hr : net.Remarked net') : net'.WellFormed := by
  obtain ⟨m, ha, rfl⟩ := hr
  exact h.restore ha

lemma Remarked.restore_eq (hr : net.Remarked net') : net'.restore m = net.restore m := by
  obtain ⟨n, -, rfl⟩ := hr
  exact restore_restore

lemma editTokens_place (h : net.WellFormed) {f : Place → Except TokenError Place}
    (hs : editTokens name f (net.restore m) = .ok u net') :
    ∃ p ∈ net.places, p.name = name := by
  rw [editTokens_eq_step, step_eq_ok_iff] at hs
  obtain ⟨q, hq, -⟩ := except_bind_eq_ok.1 hs
  rw [place_eq_ok_iff, place?_restore, Option.map_eq_some_iff] at hq
  obtain ⟨p, hp, -⟩ := hq
  exact ⟨p, h.keyed.mem_of_place? hp⟩

lemma keeps_removeTokens (h : net.WellFormed) : Keeps net.Remarked (removeTokens name bag) := by
  refine keeps_of_atomic atomic_editTokens fun s u net' hr hs => ?_
  obtain ⟨m, ha, rfl⟩ := hr
  obtain ⟨p, hp, rfl⟩ := editTokens_place h hs
  obtain ⟨left, rfl, rfl⟩ := (removeTokens_restore h hp).1 hs
  exact ⟨left, ha.of_add, rfl⟩

lemma keeps_addTokens (h : net.WellFormed) : Keeps net.Remarked (addTokens name bag) := by
  refine keeps_of_atomic atomic_editTokens fun s u net' hr hs => ?_
  obtain ⟨m, ha, rfl⟩ := hr
  obtain ⟨p, hp, rfl⟩ := editTokens_place h hs
  obtain ⟨hv, rfl⟩ := (addTokens_restore h hp).1 hs
  refine ⟨_, ha.add fun q hq v hqv => ?_, rfl⟩
  rw [Marking.single, Marking.tokens_set] at hqv
  split at hqv
  · next hn =>
    obtain rfl := h.place_eq hq hp hn
    exact hv v hqv
  · cases hqv

lemma keeps_resetTokens (h : net.WellFormed) : Keeps net.Remarked (resetTokens m name) := by
  refine keeps_of_atomic atomic_editTokens fun s u net' hr hs => ?_
  obtain ⟨k, ha, rfl⟩ := hr
  obtain ⟨p, hp, rfl⟩ := editTokens_place h hs
  obtain ⟨hv, rfl⟩ := (resetTokens_restore h hp).1 hs
  refine ⟨_, fun q hq v hqv => ?_, rfl⟩
  rw [Marking.tokens_set] at hqv
  split at hqv
  · next hn =>
    obtain rfl := h.place_eq hq hp hn
    exact hv v hqv
  · exact ha q hq v hqv

lemma keeps_ifPlace {act : Edit Unit} (ha : Keeps net.Remarked act) :
    Keeps net.Remarked (ifPlace name act) := by
  intro s hs
  refine after_bind hs fun a t hr => ?_
  cases hr
  split
  · exact ha _ hs
  · exact hs

lemma withRollback_eq_ok_iff {act : Edit Unit} :
    withRollback act net = .ok u net' ↔ act net = .ok u net' := by
  rw [withRollback]
  cases act net with
  | ok a t => exact Iff.rfl
  | error e t => exact ⟨fun h => (by cases h), fun h => by cases h⟩

lemma withRollback_fails {act : Edit Unit} {e : Error}
    (h : withRollback act net = .error e net') : ∃ net₁, act net = .error e net₁ := by
  rw [withRollback] at h
  cases hact : act net with
  | ok a net₁ =>
    rw [hact] at h
    cases h
  | error d net₁ =>
    rw [hact] at h
    cases h
    exact ⟨net₁, rfl⟩

lemma withRollback_error {act : Edit Unit} {e : Error} (h : net.WellFormed)
    (ha : Keeps net.Remarked act) (hs : withRollback act net = .error e net') : net' = net := by
  have hr := ha net (remarked_self h)
  rw [withRollback] at hs
  cases hact : act net with
  | ok a t =>
    rw [hact] at hs
    cases hs
  | error d t =>
    rw [hact] at hs
    cases hs
    rw [after_of_error hact] at hr
    rw [hr.restore_eq, restore_marking h]

lemma keeps_withRollback {act : Edit Unit}
    (ha : ∀ net : Net, net.WellFormed → Keeps net.Remarked act) :
    Keeps WellFormed (withRollback act) := by
  intro net h
  cases hs : withRollback act net with
  | ok a net' =>
    have hr := ha net h net (remarked_self h)
    rw [after_of_ok (withRollback_eq_ok_iff.1 hs)] at hr
    rw [after_of_ok hs]
    exact hr.wellFormed h
  | error e net' => rwa [after_of_error hs, withRollback_error h (ha net h) hs]

lemma keeps_resetAll (h : net.WellFormed) : Keeps net.Remarked (resetAll m) := by
  intro s hs
  refine after_bind hs fun a t hr => ?_
  cases hr
  exact keeps_forM (fun p _ => keeps_resetTokens h) _ hs

lemma keeps_setMarking (m : Marking) : Keeps WellFormed (setMarking m) :=
  keeps_withRollback fun _ h => keeps_resetAll h

lemma keeps_addMarking (m : Marking) : Keeps WellFormed (addMarking m) :=
  keeps_withRollback fun _ h => keeps_forM fun _ _ => keeps_ifPlace (keeps_addTokens h)

lemma keeps_removeMarking (m : Marking) : Keeps WellFormed (removeMarking m) :=
  keeps_withRollback fun _ h => keeps_forM fun _ _ => keeps_ifPlace (keeps_removeTokens h)

lemma resetAll_eq (h : net.WellFormed) :
    resetAll m net =
      (net.places.forM fun p => resetTokens m p.name) (net.restore net.marking) := by
  have hrun : resetAll m net = (net.placeMap.forM fun e => resetTokens m e.1) net := rfl
  rw [restore_marking h, hrun, h.keyed.placeMap_eq, named]
  exact congrFun List.forM_map net

lemma setMarking_eq_ok_iff (h : net.WellFormed) :
    setMarking m net = .ok u net' ↔ net.Accepts m ∧ net' = net.restore m := by
  have hfold : net.restore
      (net.places.foldl (fun acc p => acc.set p.name (m.tokens p.name)) net.marking) =
      net.restore m :=
    restore_congr fun p hp => by rw [tokens_foldl_set, if_pos (List.mem_map_of_mem hp)]
  rw [setMarking, withRollback_eq_ok_iff, resetAll_eq h,
    forM_resetTokens_restore h (List.Subset.refl _), hfold]
  rfl

lemma setMarking_error {e : Error} (h : net.WellFormed) (hs : setMarking m net = .error e net') :
    net.Refuses m e ∧ net' = net := by
  refine ⟨?_, withRollback_error h (keeps_resetAll h) hs⟩
  obtain ⟨net₁, hs⟩ := withRollback_fails hs
  rw [resetAll_eq h] at hs
  exact forM_resetTokens_error h (List.Subset.refl _) hs

end Rollback

end Net

end ColouredPetri
