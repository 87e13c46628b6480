import ColouredPetri.Marking
import ColouredPetri.Proofs.BagArithmetic
import ColouredPetri.Proofs.Outcomes

namespace ColouredPetri

namespace Marking

lemma tokens_of_get? {m : Marking} {p : String} {bag : Bag} (h : m.get? p = some bag) :
    m.tokens p = bag := by
  rw [tokens, h]
  rfl

lemma get?_of_mem {m : Marking} {e : String × Bag} (h : e ∈ m.entries) :
    m.get? e.1 = some e.2 :=
  Table.get?_eq_some_iff.2 h

lemma ne_empty_of_mem {m : Marking} {e : String × Bag} (h : e ∈ m.entries) : e.2 ≠ Bag.empty :=
  m.nonempty e h

lemma get?_eq_some_iff {m : Marking} {p : String} {bag : Bag} :
    m.get? p = some bag ↔ m.tokens p = bag ∧ bag ≠ Bag.empty := by
  constructor
  · intro h
    exact ⟨tokens_of_get? h, ne_empty_of_mem (Table.get?_eq_some_iff.1 h)⟩
  · rintro ⟨rfl, hne⟩
    cases hp : m.get? p with
    | none =>
      rw [tokens, hp] at hne
      exact absurd rfl hne
    | some bag => rw [tokens_of_get? hp]

lemma mem_places_iff {m : Marking} {p : String} : p ∈ m.places ↔ m.tokens p ≠ Bag.empty := by
  rw [places, Table.keys, List.mem_map]
  constructor
  · rintro ⟨e, he, rfl⟩
    exact tokens_of_get? (get?_of_mem he) ▸ ne_empty_of_mem he
  · intro h
    exact ⟨_, Table.get?_eq_some_iff.1 (get?_eq_some_iff.2 ⟨rfl, h⟩), rfl⟩

@[simp] lemma tokens_empty (p : String) : empty.tokens p = Bag.empty := rfl

lemma total_eq_tokens (m : Marking) (p : String) : Table.total p m.entries = m.tokens p :=
  Table.total_entries m.bags p

lemma tokens_foldl_addTokens (l : List (String × Bag)) (m : Marking) (p : String) :
    (l.foldl (fun acc e => acc.addTokens e.1 e.2) m).tokens p = m.tokens p + Table.total p l := by
  induction l generalizing m with
  | nil => exact (add_zero _).symm
  | cons e l ih =>
    rw [List.foldl_cons, ih, tokens_addTokens, Table.total_cons, ← add_assoc]
    split
    · rfl
    · rw [add_zero]

@[simp] lemma tokens_add (m n : Marking) (p : String) :
    (m + n).tokens p = m.tokens p + n.tokens p := by
  change (n.entries.foldl (fun acc e => acc.addTokens e.1 e.2) m).tokens p = _
  rw [tokens_foldl_addTokens, total_eq_tokens]

lemma tokens_ofList (l : List (String × Bag)) (p : String) :
    (ofList l).tokens p = Table.total p l := by
  rw [ofList, tokens_foldl_addTokens, tokens_empty]
  exact zero_add _

instance : Zero Marking := ⟨empty⟩

instance : AddCancelCommMonoid Marking where
  add_assoc m n k := ext_tokens fun p => by simp only [tokens_add, add_assoc]
  zero_add m := ext_tokens fun p => (tokens_add empty m p).trans (zero_add _)
  add_zero m := ext_tokens fun p => (tokens_add m empty p).trans (add_zero _)
  nsmul := nsmulRec
  add_comm m n := ext_tokens fun p => by simp only [tokens_add, add_comm]
  add_left_cancel m n k h := ext_tokens fun p => by
    have := congrArg (fun l => l.tokens p) h
    simpa using this

def single (p : String) (bag : Bag) : Marking := empty.set p bag

lemma addTokens_eq_add (m : Marking) (p : String) (bag : Bag) :
    m.addTokens p bag = m + single p bag :=
  ext_tokens fun q => by
    rw [tokens_addTokens, tokens_add, single, tokens_set]
    split
    · rfl
    · exact (add_zero _).symm

lemma ofList_cons (e : String × Bag) (l : List (String × Bag)) :
    ofList (e :: l) = ofList l + single e.1 e.2 :=
  ext_tokens fun p => by
    rw [tokens_add, tokens_ofList, tokens_ofList, single, tokens_set, Table.total_cons, add_comm]
    rfl

lemma ofList_entries (m : Marking) : ofList m.entries = m :=
  ext_tokens fun p => by rw [tokens_ofList, total_eq_tokens]

lemma subTokens_eq_ok_iff {m n : Marking} {p : String} {bag : Bag} (hne : bag ≠ Bag.empty) :
    m.subTokens p bag = .ok n ↔ n + single p bag = m := by
  rw [← addTokens_eq_add]
  constructor
  · intro h
    rw [subTokens] at h
    split at h
    · cases h
    · next held hp =>
      split at h
      · cases h
      · next left hl =>
        cases h
        refine ext_tokens fun q => ?_
        rw [tokens_addTokens, tokens_set]
        split
        · next hq => rw [hq, Bag.sub_eq_ok_iff.1 hl, tokens_of_get? hp]
        · rfl
  · rintro rfl
    have hp : (n.addTokens p bag).get? p = some (n.tokens p + bag) := by
      refine get?_eq_some_iff.2 ⟨?_, fun h => hne (Bag.sum_eq_empty.1 h).2⟩
      rw [tokens_addTokens, if_pos rfl]
    rw [subTokens, hp]
    simp only [Bag.sub_eq_ok_iff.2 (rfl : n.tokens p + bag = n.tokens p + bag)]
    congr 1
    refine ext_tokens fun q => ?_
    rw [tokens_set, tokens_addTokens]
    split
    · next hq => rw [hq]
    · rfl

lemma foldlM_subTokens_eq_ok_iff {l : List (String × Bag)} (hl : ∀ e ∈ l, e.2 ≠ Bag.empty)
    {m n : Marking} : l.foldlM (fun acc e => acc.subTokens e.1 e.2) m = .ok n ↔
      n + ofList l = m := by
  induction l generalizing m with
  | nil =>
    rw [show n + ofList [] = n from add_zero n]
    exact ⟨fun h => by cases h; rfl, fun h => by rw [h]; rfl⟩
  | cons e l ih =>
    have ih' := fun k : Marking => @ih (fun d hd => hl d (List.mem_cons_of_mem _ hd)) k
    rw [List.foldlM_cons, except_bind_eq_ok, ofList_cons, ← add_assoc]
    simp only [subTokens_eq_ok_iff (hl e List.mem_cons_self), ih']
    exact ⟨fun ⟨k, hk, h⟩ => by rw [h, hk], fun h => ⟨_, h, rfl⟩⟩

lemma sub_eq_ok_iff {m n left : Marking} : m.sub n = .ok left ↔ left + n = m := by
  rw [sub, foldlM_subTokens_eq_ok_iff fun e he => ne_empty_of_mem he, ofList_entries]

lemma exists_add_iff {m n : Marking} :
    (∃ left, left + n = m) ↔ ∀ p, (n.tokens p).isSubset (m.tokens p) = true := by
  constructor
  · rintro ⟨left, rfl⟩ p
    rw [tokens_add]
    exact Bag.isSubset_iff.2 fun v => by simp
  · intro h
    choose rest hrest using fun p => Bag.isSubset_iff_sub.1 (h p)
    simp only [Bag.sub_eq_ok_iff] at hrest
    refine ⟨ofList (m.places.map fun p => (p, rest p)), ext_tokens fun p => ?_⟩
    have hkeys : ((m.places.map fun p => (p, rest p)).map Prod.fst).Nodup := by
      rw [List.map_map]
      change (m.places.map id).Nodup
      rw [List.map_id]
      exact Table.nodup_keys m.bags
    rw [tokens_add, tokens_ofList]
    by_cases hp : p ∈ m.places
    · rw [Table.total_of_mem hkeys (List.mem_map_of_mem hp), hrest]
    · rw [Table.total_eq_zero]
      · have hm : m.tokens p = Bag.empty := by
          by_contra hc
          exact hp (mem_places_iff.2 hc)
        rw [← hrest p] at hm ⊢
        rw [(Bag.sum_eq_empty.1 hm).1]
        rfl
      · intro e he
        obtain ⟨q, hq, rfl⟩ := List.mem_map.1 he
        exact fun hpq => hp (hpq ▸ hq)

end Marking

end ColouredPetri
