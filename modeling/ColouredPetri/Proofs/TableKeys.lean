import ColouredPetri.Proofs.TableSums
import Mathlib.Data.List.Sort

namespace ColouredPetri

namespace Table

variable {κ β : Type} [Ord κ]

lemma keys_ascending (t : Table κ β) : t.keys.Pairwise fun k l => compare k l = .lt :=
  List.pairwise_map.2 t.ascending

lemma size_eq_length_keys (t : Table κ β) : t.size = t.keys.length :=
  (List.length_map _).symm

lemma keys_ascending_nat (t : Table Nat β) : t.keys.Pairwise (· < ·) :=
  t.keys_ascending.imp Nat.compare_eq_lt.1

lemma size_erase_le (t : Table κ β) (k : κ) : (t.erase k).size ≤ t.size :=
  List.length_filter_le _ _

lemma keys_erase_nat (t : Table Nat β) (k : Nat) : (t.erase k).keys = t.keys.filter (· != k) := by
  have hsame : ∀ e : Nat × β, (compare k e.1 != .eq) = (e.1 != k) := fun e => by
    rw [Bool.eq_iff_iff, bne_iff_ne, bne_iff_ne, ne_eq, Nat.compare_eq_eq, eq_comm]
  change (t.entries.filter _).map Prod.fst = (t.entries.map Prod.fst).filter _
  rw [List.filter_map]
  exact congrArg (List.map Prod.fst) (List.filter_congr fun e _ => hsame e)

lemma length_put_le (k : κ) (b : β) (l : List (κ × β)) : (put k b l).length ≤ l.length + 1 := by
  induction l with
  | nil => simp [put]
  | cons e l ih =>
    rw [put]
    split <;> simp only [List.length_cons] <;> omega

lemma get?_mapValues {γ : Type} (t : Table κ β) (f : β → γ) (k : κ) :
    (t.mapValues f).get? k = (t.get? k).map f := by
  obtain ⟨l, hl⟩ := t
  change find k (l.map fun e => (e.1, f e.2)) = (find k l).map f
  clear hl
  induction l with
  | nil => rfl
  | cons e l ih =>
    simp only [List.map_cons, find, ih]
    split <;> rfl

section Erase

variable [Std.LawfulEqOrd κ] {t : Table κ β} {k l : κ}

lemma get?_erase_self : (t.erase k).get? k = none := by
  rw [get?_erase, if_pos Std.ReflCmp.compare_self]

lemma get?_erase_of_ne (h : l ≠ k) : (t.erase k).get? l = t.get? l := by
  rw [get?_erase, if_neg (mt compare_eq_iff.1 h)]

end Erase

variable [Std.TransOrd κ]

lemma size_insert_le (t : Table κ β) (k : κ) (b : β) : (t.insert k b).size ≤ t.size + 1 :=
  length_put_le k b t.entries

variable [Std.LawfulEqOrd κ] {t : Table κ β} {k l : κ}

lemma mem_keys_iff : k ∈ t.keys ↔ ∃ b, t.get? k = some b := by
  simp only [keys, List.mem_map, get?_eq_some_iff]
  constructor
  · rintro ⟨e, he, rfl⟩
    exact ⟨e.2, he⟩
  · rintro ⟨b, hb⟩
    exact ⟨_, hb, rfl⟩

lemma contains_iff : t.contains k = true ↔ k ∈ t.keys := by
  rw [contains, Option.isSome_iff_exists, mem_keys_iff]

lemma get?_insert_self (b : β) : (t.insert k b).get? k = some b := by
  rw [get?_insert, if_pos Std.ReflCmp.compare_self]

lemma get?_insert_of_ne (h : l ≠ k) (b : β) : (t.insert k b).get? l = t.get? l := by
  rw [get?_insert, if_neg (mt compare_eq_iff.1 h)]

lemma mem_keys_insert (b : β) : l ∈ (t.insert k b).keys ↔ l ∈ t.keys ∨ l = k := by
  by_cases h : l = k
  · subst h
    simp only [mem_keys_iff, get?_insert_self, or_true, iff_true]
    exact ⟨b, rfl⟩
  · simp only [mem_keys_iff, get?_insert_of_ne h, h, or_false]

lemma mem_keys_erase : l ∈ (t.erase k).keys ↔ l ∈ t.keys ∧ l ≠ k := by
  by_cases h : l = k
  · subst h
    simp [mem_keys_iff, get?_erase_self]
  · simp [mem_keys_iff, get?_erase_of_ne h, h]

lemma get?_foldl_insert {b : β} {l : List (κ × β)} (hl : (l.map Prod.fst).Nodup) :
    (l.foldl (fun t e => t.insert e.1 e.2) t).get? k = some b ↔
      (k, b) ∈ l ∨ k ∉ l.map Prod.fst ∧ t.get? k = some b := by
  induction l generalizing t with
  | nil => simp
  | cons e l ih =>
    obtain ⟨he, hl⟩ := List.nodup_cons.1 hl
    rw [List.foldl_cons, ih hl, List.mem_cons, List.map_cons, List.mem_cons]
    by_cases hk : k = e.1
    · subst hk
      have hnot : (e.1, b) ∉ l := fun h => he (List.mem_map.2 ⟨_, h, rfl⟩)
      rw [get?_insert_self, Option.some.injEq, or_iff_right hnot, and_iff_right he, or_iff_left hnot,
        Prod.ext_iff, and_iff_right rfl, eq_comm]
      exact (or_iff_left fun h => h.1 (.inl rfl)).symm
    · have hne : (k, b) ≠ e := fun h => hk (congrArg Prod.fst h)
      rw [get?_insert_of_ne hk, or_iff_right hne, or_iff_right hk]

lemma get?_ofList {b : β} {l : List (κ × β)} (hl : (l.map Prod.fst).Nodup) :
    (ofList l).get? k = some b ↔ (k, b) ∈ l :=
  (get?_foldl_insert hl).trans (or_iff_left fun h => nomatch h.2)

lemma ofList_entries (t : Table κ β) : ofList t.entries = t :=
  ext_get? fun _ => Option.ext fun _ => by rw [get?_ofList t.nodup_keys, get?_eq_some_iff]

end Table

namespace KeySet

variable {κ : Type} [Ord κ] {s : KeySet κ} {k l : κ}

lemma mem_keys_filter {p : κ → Bool} :
    k ∈ (Table.filter s fun l _ => p l).keys ↔ k ∈ s.keys ∧ p k = true := by
  rw [Table.keys, Table.keys, Table.filter, List.mem_map, List.mem_map]
  constructor
  · rintro ⟨e, he, rfl⟩
    obtain ⟨he, hp⟩ := List.mem_filter.1 he
    exact ⟨⟨e, he, rfl⟩, hp⟩
  · rintro ⟨⟨e, he, rfl⟩, hp⟩
    exact ⟨e, List.mem_filter.2 ⟨he, hp⟩, rfl⟩

variable [Std.TransOrd κ] [Std.LawfulEqOrd κ]

lemma mem_keys_add : l ∈ (add s k).keys ↔ l ∈ s.keys ∨ l = k := Table.mem_keys_insert ()

lemma length_keys_add (hk : k ∉ s.keys) : (add s k).keys.length = s.keys.length + 1 := by
  have hmem : ∀ l, l ∈ (add s k).keys ↔ l ∈ k :: s.keys := fun l => by
    rw [mem_keys_add, List.mem_cons, or_comm]
  have hnodup : (k :: s.keys).Nodup := List.nodup_cons.2 ⟨hk, Table.nodup_keys s⟩
  have hperm : (add s k).keys.Perm (k :: s.keys) :=
    (List.perm_ext_iff_of_nodup (Table.nodup_keys (add s k)) hnodup).2 hmem
  rw [hperm.length_eq, List.length_cons]

lemma keys_add_above {s : KeySet Nat} {k : Nat} (hk : ∀ l ∈ s.keys, l < k) :
    (add s k).keys = s.keys ++ [k] := by
  refine (Table.keys_ascending_nat (add s k)).eq_of_mem_iff ?_ fun l => ?_
  · refine List.pairwise_append.2 ⟨Table.keys_ascending_nat s, List.pairwise_singleton _ k, ?_⟩
    exact fun l hl _ hmem => List.mem_singleton.1 hmem ▸ hk l hl
  · rw [mem_keys_add, List.mem_append, List.mem_singleton]

end KeySet

end ColouredPetri
