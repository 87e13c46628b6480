import ColouredPetri.Net.Tokens
import ColouredPetri.Proofs.MarkingArithmetic
import ColouredPetri.Proofs.Nets.WellFormed

namespace ColouredPetri

namespace Net

def Accepts (net : Net) (m : Marking) : Prop :=
  ∀ p ∈ net.places, ∀ v ∈ (m.tokens p.name).toList, p.type.accepts v = true

def Refuses (net : Net) (m : Marking) (e : Error) : Prop :=
  ∃ p ∈ net.places, ∃ v ∈ (m.tokens p.name).toList, p.type.accepts v = false ∧
    e = .token (.forbidden p.name v)

section Restore

variable {net : Net} {m n : Marking}

lemma Refuses.not_accepts {e : Error} (h : net.Refuses m e) : ¬ net.Accepts m := by
  obtain ⟨p, hp, v, hv, hrefused, -⟩ := h
  intro ha
  rw [ha p hp v hv] at hrefused
  cases hrefused

@[simp] lemma restore_restore : (net.restore m).restore n = net.restore n := by
  simp only [restore, List.map_map]
  rfl

lemma restore_congr (h : ∀ p ∈ net.places, m.tokens p.name = n.tokens p.name) :
    net.restore m = net.restore n := by
  rw [restore, restore, Net.mk.injEq]
  exact ⟨rfl, List.map_congr_left fun e he => by rw [h e.2 (List.mem_map_of_mem he)], rfl, rfl⟩

lemma places_restore : (net.restore m).places =
    net.places.map fun p => { p with tokens := m.tokens p.name } := by
  simp only [places, restore, List.map_map]
  rfl

lemma mem_restore_places {q : Place} :
    q ∈ (net.restore m).places ↔ ∃ p ∈ net.places, q = { p with tokens := m.tokens p.name } := by
  simp only [places_restore, List.mem_map, eq_comm]

lemma place?_restore (name : String) : (net.restore m).place? name =
    (net.place? name).map fun p => { p with tokens := m.tokens p.name } := by
  exact lookup_map (l := net.placeMap) fun p => { p with tokens := m.tokens p.name }

@[simp] lemma names_restore : (net.restore m).names = net.names := by
  rw [names, names, places_restore, List.map_map]
  rfl

lemma accepts_restore : (net.restore m).Accepts n ↔ net.Accepts n := by
  constructor
  · exact fun h p hp => h { p with tokens := m.tokens p.name } (mem_restore_places.2 ⟨p, hp, rfl⟩)
  · intro h q hq
    obtain ⟨p, hp, rfl⟩ := mem_restore_places.1 hq
    exact h p hp

lemma refuses_restore {e : Error} : (net.restore m).Refuses n e ↔ net.Refuses n e := by
  constructor
  · rintro ⟨q, hq, hrefused⟩
    obtain ⟨p, hp, rfl⟩ := mem_restore_places.1 hq
    exact ⟨p, hp, hrefused⟩
  · rintro ⟨p, hp, hrefused⟩
    exact ⟨_, mem_restore_places.2 ⟨p, hp, rfl⟩, hrefused⟩

lemma Accepts.of_add (h : net.Accepts (m + n)) : net.Accepts m := fun p hp v hv =>
  h p hp v (by rw [Marking.tokens_add]; exact Bag.mem_toList_sum.2 (.inl hv))

lemma Accepts.add (hm : net.Accepts m) (hn : net.Accepts n) : net.Accepts (m + n) := by
  intro p hp v hv
  rw [Marking.tokens_add] at hv
  exact (Bag.mem_toList_sum.1 hv).elim (hm p hp v) (hn p hp v)

lemma Keyed.restore (h : net.Keyed) : (net.restore m).Keyed :=
  ⟨List.forall_mem_map.2 h.places, h.transitions⟩

lemma WellFormed.restore (h : net.WellFormed) (ha : net.Accepts m) :
    (net.restore m).WellFormed where
  keyed := h.keyed.restore
  names_nodup := by
    rw [names_restore]
    exact h.names_nodup
  keys_nodup := h.keys_nodup
  links_nodup q hq side := by
    obtain ⟨p, hp, rfl⟩ := mem_restore_places.1 hq
    exact h.links_nodup p hp side
  keys_places t ht side k hk := by
    obtain ⟨p, hp, hn⟩ := h.keys_places t ht side k hk
    exact ⟨_, mem_restore_places.2 ⟨p, hp, rfl⟩, hn⟩
  links_transitions q hq side k hk := by
    obtain ⟨p, hp, rfl⟩ := mem_restore_places.1 hq
    exact h.links_transitions p hp side k hk
  adjacent q hq t ht side := by
    obtain ⟨p, hp, rfl⟩ := mem_restore_places.1 hq
    exact h.adjacent p hp t ht side
  valid := h.valid
  allowed := h.allowed
  typed q hq := by
    obtain ⟨p, hp, rfl⟩ := mem_restore_places.1 hq
    exact ha p hp

end Restore

section Marking

variable {net : Net}

lemma tokens_marking (h : net.WellFormed) {p : Place} (hp : p ∈ net.places) :
    net.marking.tokens p.name = p.tokens := by
  rw [marking, Marking.tokens_ofList]
  refine Table.total_of_mem ?_ (List.mem_map_of_mem hp)
  rw [List.map_map]
  exact h.places_nodup

lemma tokens_marking_of_notMem {name : String} (h : ∀ p ∈ net.places, p.name ≠ name) :
    net.marking.tokens name = Bag.empty := by
  rw [marking, Marking.tokens_ofList, Table.total_eq_zero]
  · rfl
  · intro e he
    obtain ⟨p, hp, rfl⟩ := List.mem_map.1 he
    exact (h p hp).symm

lemma restore_marking (h : net.WellFormed) : net.restore net.marking = net := by
  rw [restore, Net.mk.injEq]
  refine ⟨rfl, (List.map_congr_left fun e he => ?_).trans (List.map_id _), rfl, rfl⟩
  rw [tokens_marking h (List.mem_map_of_mem he)]
  rfl

lemma accepts_marking (h : net.WellFormed) : net.Accepts net.marking := by
  intro p hp
  rw [tokens_marking h hp]
  exact h.typed p hp

def Covers (net : Net) (m : Marking) : Prop := ∀ name ∈ m.places, ∃ p ∈ net.places, p.name = name

lemma covers_restore {m n : Marking} : (net.restore m).Covers n ↔ net.Covers n := by
  refine forall₂_congr fun name _ => ?_
  constructor
  · rintro ⟨q, hq, rfl⟩
    obtain ⟨p, hp, rfl⟩ := mem_restore_places.1 hq
    exact ⟨p, hp, rfl⟩
  · rintro ⟨p, hp, rfl⟩
    exact ⟨_, mem_restore_places.2 ⟨p, hp, rfl⟩, rfl⟩

lemma covers_marking : net.Covers net.marking := by
  intro name hn
  by_contra hc
  exact Marking.mem_places_iff.1 hn (tokens_marking_of_notMem fun p hp hpn => hc ⟨p, hp, hpn⟩)

lemma Covers.add {m n : Marking} (hm : net.Covers m) (hn : net.Covers n) : net.Covers (m + n) := by
  intro name h
  rw [Marking.mem_places_iff, Marking.tokens_add, Ne, Bag.sum_eq_empty, not_and_or] at h
  exact h.elim (fun h => hm name (Marking.mem_places_iff.2 h))
    fun h => hn name (Marking.mem_places_iff.2 h)

lemma Covers.of_add {m n : Marking} (h : net.Covers (m + n)) : net.Covers m := by
  intro name hn
  refine h name ?_
  rw [Marking.mem_places_iff] at hn ⊢
  rw [Marking.tokens_add]
  exact fun he => hn (Bag.sum_eq_empty.1 he).1

lemma marking_restore (h : net.WellFormed) {m : Marking} (hm : net.Covers m) :
    (net.restore m).marking = m := by
  refine Marking.ext_tokens fun name => ?_
  rw [marking, Marking.tokens_ofList]
  have hnodup : (((net.restore m).places.map fun p => (p.name, p.tokens)).map Prod.fst).Nodup := by
    rw [places_restore, List.map_map, List.map_map]
    exact h.places_nodup
  by_cases hn : ∃ p ∈ net.places, p.name = name
  · obtain ⟨p, hp, rfl⟩ := hn
    exact Table.total_of_mem hnodup
      (List.mem_map_of_mem (mem_restore_places.2 ⟨p, hp, rfl⟩))
  · rw [Table.total_eq_zero]
    · by_contra hc
      exact hn (hm name (Marking.mem_places_iff.2 (Ne.symm hc)))
    · intro e he
      obtain ⟨q, hq, rfl⟩ := List.mem_map.1 he
      obtain ⟨p, hp, rfl⟩ := mem_restore_places.1 hq
      exact fun hpn => hn ⟨p, hp, hpn.symm⟩

end Marking

end Net

end ColouredPetri
