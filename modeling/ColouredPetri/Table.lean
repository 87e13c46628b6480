/-!
Finite tables, kept as lists of entries whose keys strictly ascend. A table has one list for each
set of look-ups, so tables with equal look-ups are equal (`Table.ext_get?`).
-/

namespace ColouredPetri

/-- A finite map from keys to values, its entries in ascending order of their keys. -/
structure Table (κ β : Type) [Ord κ] where
  entries : List (κ × β)
  ascending : entries.Pairwise fun d e => compare d.1 e.1 = .lt

namespace Table

variable {κ β γ : Type} [Ord κ]

instance [DecidableEq κ] [DecidableEq β] : DecidableEq (Table κ β) := fun s t =>
  decidable_of_iff (s.entries = t.entries) (by cases s; cases t; simp)

def find (k : κ) : List (κ × β) → Option β
  | [] => none
  | (l, b) :: r => if compare k l = .eq then some b else find k r

def put (k : κ) (b : β) : List (κ × β) → List (κ × β)
  | [] => [(k, b)]
  | (l, c) :: r =>
    match compare k l with
    | .lt => (k, b) :: (l, c) :: r
    | .eq => (k, b) :: r
    | .gt => (l, c) :: put k b r

def drop (k : κ) (l : List (κ × β)) : List (κ × β) :=
  l.filter fun e => compare k e.1 != .eq

theorem mem_put {k : κ} {b : β} {l : List (κ × β)} {e : κ × β} (h : e ∈ put k b l) :
    e = (k, b) ∨ e ∈ l := by
  induction l with
  | nil => simpa [put] using h
  | cons d r ih =>
    rw [put] at h
    split at h
    · simpa using h
    · rcases List.mem_cons.1 h with rfl | h
      · exact .inl rfl
      · exact .inr (List.mem_cons_of_mem _ h)
    · rcases List.mem_cons.1 h with rfl | h
      · exact .inr List.mem_cons_self
      · exact (ih h).imp id (List.mem_cons_of_mem _)

theorem find_eq_none {k : κ} {l : List (κ × β)} (h : ∀ e ∈ l, compare k e.1 ≠ .eq) :
    find k l = none := by
  induction l with
  | nil => rfl
  | cons d r ih =>
    rw [find, if_neg (h d List.mem_cons_self)]
    exact ih fun e he => h e (List.mem_cons_of_mem _ he)

theorem mem_of_find [Std.LawfulEqOrd κ] {k : κ} {b : β} {l : List (κ × β)}
    (h : find k l = some b) : (k, b) ∈ l := by
  induction l with
  | nil => simp [find] at h
  | cons d r ih =>
    rw [find] at h
    split at h
    · next hk =>
      cases Std.LawfulEqCmp.eq_of_compare hk
      simp at h
      simp [← h]
    · exact List.mem_cons_of_mem _ (ih h)

theorem compare_ne_of_eq [Std.LawfulEqOrd κ] {q k d : κ} (hk : compare k d ≠ .eq)
    (hq : compare q d = .eq) : compare q k ≠ .eq := by
  intro h
  cases Std.LawfulEqCmp.eq_of_compare h
  exact hk hq

theorem find_put [Std.LawfulEqOrd κ] (q k : κ) (b : β) (l : List (κ × β)) :
    find q (put k b l) = if compare q k = .eq then some b else find q l := by
  induction l with
  | nil => rfl
  | cons d r ih =>
    rw [put]
    split
    · rfl
    · next hk =>
      cases Std.LawfulEqCmp.eq_of_compare hk
      by_cases h : compare q d.1 = .eq <;> simp [find, h]
    · next hk =>
      rw [find, ih, find]
      by_cases hq : compare q d.1 = .eq
      · rw [if_pos hq, if_neg (compare_ne_of_eq (by simp [hk]) hq), if_pos hq]
      · rw [if_neg hq, if_neg hq]

theorem pairwise_put [Std.TransOrd κ] {k : κ} {b : β} {l : List (κ × β)}
    (h : l.Pairwise fun d e => compare d.1 e.1 = .lt) :
    (put k b l).Pairwise fun d e => compare d.1 e.1 = .lt := by
  induction l with
  | nil => simp [put]
  | cons d r ih =>
    obtain ⟨hd, hr⟩ := List.pairwise_cons.1 h
    rw [put]
    split
    · next hk =>
      refine List.pairwise_cons.2 ⟨fun e he => ?_, h⟩
      rcases List.mem_cons.1 he with rfl | he
      · exact hk
      · exact Std.TransCmp.lt_trans hk (hd e he)
    · next hk =>
      exact List.pairwise_cons.2 ⟨fun e he => Std.TransCmp.lt_of_eq_of_lt hk (hd e he), hr⟩
    · next hk =>
      refine List.pairwise_cons.2 ⟨fun e he => ?_, ih hr⟩
      rcases mem_put he with rfl | he
      · exact Std.OrientedCmp.lt_of_gt hk
      · exact hd e he

theorem find_drop [Std.LawfulEqOrd κ] (q k : κ) (l : List (κ × β)) :
    find q (drop k l) = if compare q k = .eq then none else find q l := by
  induction l with
  | nil => simp [drop, find]
  | cons d r ih =>
    rw [drop, List.filter_cons, find]
    by_cases hk : compare k d.1 = .eq
    · cases Std.LawfulEqCmp.eq_of_compare hk
      by_cases hq : compare q d.1 = .eq <;> simp_all [drop]
    · rw [if_pos (by simpa using hk), find, ← drop, ih]
      by_cases hq : compare q d.1 = .eq
      · rw [if_pos hq, if_neg (compare_ne_of_eq hk hq), if_pos hq]
      · rw [if_neg hq, if_neg hq]

def empty : Table κ β := ⟨[], List.Pairwise.nil⟩

instance : EmptyCollection (Table κ β) := ⟨empty⟩
instance : Inhabited (Table κ β) := ⟨empty⟩

def get? (t : Table κ β) (k : κ) : Option β := find k t.entries

def contains (t : Table κ β) (k : κ) : Bool := (t.get? k).isSome

def keys (t : Table κ β) : List κ := t.entries.map Prod.fst

def values (t : Table κ β) : List β := t.entries.map Prod.snd

def size (t : Table κ β) : Nat := t.entries.length

def isEmpty (t : Table κ β) : Bool := t.entries.isEmpty

def insert [Std.TransOrd κ] (t : Table κ β) (k : κ) (b : β) : Table κ β :=
  ⟨put k b t.entries, pairwise_put t.ascending⟩

def erase (t : Table κ β) (k : κ) : Table κ β :=
  ⟨drop k t.entries, t.ascending.filter _⟩

def filter (t : Table κ β) (p : κ → β → Bool) : Table κ β :=
  ⟨t.entries.filter fun e => p e.1 e.2, t.ascending.filter _⟩

def mapValues (t : Table κ β) (f : β → γ) : Table κ γ :=
  ⟨t.entries.map fun e => (e.1, f e.2), List.pairwise_map.2 t.ascending⟩

/-- The table of a list of entries; the last of several entries with one key counts. -/
def ofList [Std.TransOrd κ] (l : List (κ × β)) : Table κ β :=
  l.foldl (fun t e => t.insert e.1 e.2) empty

@[simp] theorem get?_empty (k : κ) : (empty : Table κ β).get? k = none := rfl

@[simp] theorem entries_empty : (empty : Table κ β).entries = [] := rfl

theorem get?_insert [Std.TransOrd κ] [Std.LawfulEqOrd κ] (t : Table κ β) (q k : κ) (b : β) :
    (t.insert k b).get? q = if compare q k = .eq then some b else t.get? q :=
  find_put q k b t.entries

theorem get?_erase [Std.LawfulEqOrd κ] (t : Table κ β) (q k : κ) :
    (t.erase k).get? q = if compare q k = .eq then none else t.get? q :=
  find_drop q k t.entries

theorem find_of_mem [Std.TransOrd κ] {k : κ} {b : β} {l : List (κ × β)}
    (hl : l.Pairwise fun d e => compare d.1 e.1 = .lt) (h : (k, b) ∈ l) :
    find k l = some b := by
  induction l with
  | nil => simp at h
  | cons d r ih =>
    obtain ⟨hd, hr⟩ := List.pairwise_cons.1 hl
    rw [find]
    rcases List.mem_cons.1 h with rfl | h
    · rw [if_pos Std.ReflCmp.compare_self]
    · rw [if_neg, ih hr h]
      intro hk
      have := hd _ h
      rw [Std.OrientedOrd.eq_swap, hk] at this
      contradiction

theorem get?_eq_some_iff [Std.TransOrd κ] [Std.LawfulEqOrd κ] {t : Table κ β} {k : κ} {b : β} :
    t.get? k = some b ↔ (k, b) ∈ t.entries :=
  ⟨mem_of_find, find_of_mem t.ascending⟩

theorem eq_of_find_eq [Std.TransOrd κ] [Std.LawfulEqOrd κ] :
    ∀ {l m : List (κ × β)}, (l.Pairwise fun d e => compare d.1 e.1 = .lt) →
      (m.Pairwise fun d e => compare d.1 e.1 = .lt) → (∀ k, find k l = find k m) → l = m
  | [], [], _, _, _ => rfl
  | [], d :: m, _, _, h => by
    have := h d.1
    simp [find, Std.ReflCmp.compare_self] at this
  | d :: l, [], _, _, h => by
    have := h d.1
    simp [find, Std.ReflCmp.compare_self] at this
  | d :: l, e :: m, hl, hm, h => by
    obtain ⟨hd, hl'⟩ := List.pairwise_cons.1 hl
    obtain ⟨he, hm'⟩ := List.pairwise_cons.1 hm
    have below : ∀ {k : κ} {n : List (κ × β)}, (∀ x ∈ n, compare k x.1 = .lt) →
        find k n = none := fun hn => find_eq_none fun x hx hk => by
      rw [hn x hx] at hk
      contradiction
    have heads : d = e := by
      have hde := h d.1
      have hed := h e.1
      simp only [find, Std.ReflCmp.compare_self, if_true] at hde hed
      by_cases hk : compare d.1 e.1 = .eq
      · rw [if_pos hk] at hde
        exact Prod.ext (Std.LawfulEqCmp.eq_of_compare hk) (Option.some.inj hde)
      · exfalso
        rw [if_neg hk] at hde
        rw [if_neg fun hk' => hk (Std.OrientedCmp.eq_symm hk')] at hed
        have h1 := he _ (mem_of_find hde.symm)
        have h2 := hd _ (mem_of_find hed)
        rw [Std.OrientedOrd.eq_swap, h1] at h2
        contradiction
    subst heads
    congr 1
    refine eq_of_find_eq hl' hm' fun k => ?_
    have hk := h k
    by_cases hkd : compare k d.1 = .eq
    · cases Std.LawfulEqCmp.eq_of_compare hkd
      rw [below hd, below he]
    · simpa only [find, if_neg hkd] using hk

theorem ext_get? [Std.TransOrd κ] [Std.LawfulEqOrd κ] {s t : Table κ β}
    (h : ∀ k, s.get? k = t.get? k) : s = t := by
  obtain ⟨l, hl⟩ := s
  obtain ⟨m, hm⟩ := t
  cases eq_of_find_eq hl hm h
  rfl

section Order

variable [Ord β]

def entryOrder : κ × β → κ × β → Ordering :=
  compareLex (compareOn Prod.fst) (compareOn Prod.snd)

def order (s t : Table κ β) : Ordering := List.compareLex entryOrder s.entries t.entries

instance : Ord (Table κ β) := ⟨order⟩

variable [Std.TransOrd κ] [Std.TransOrd β]

instance : Std.TransCmp (entryOrder (κ := κ) (β := β)) :=
  inferInstanceAs (Std.TransCmp (compareLex (compareOn Prod.fst) (compareOn Prod.snd)))

instance : Std.TransOrd (Table κ β) where
  eq_swap {s t} := @Std.OrientedCmp.eq_swap _ (List.compareLex entryOrder) _ s.entries t.entries
  isLE_trans {s t u} :=
    @Std.TransCmp.isLE_trans _ (List.compareLex entryOrder) _ s.entries t.entries u.entries

variable [Std.LawfulEqOrd κ] [Std.LawfulEqOrd β]

instance : Std.LawfulEqCmp (entryOrder (κ := κ) (β := β)) where
  eq_of_compare h := by
    obtain ⟨h₁, h₂⟩ := Ordering.then_eq_eq.1 h
    exact Prod.ext (Std.LawfulEqCmp.eq_of_compare h₁) (Std.LawfulEqCmp.eq_of_compare h₂)

instance : Std.LawfulEqOrd (Table κ β) where
  compare_self {s} := @Std.ReflCmp.compare_self _ (List.compareLex entryOrder) _ s.entries
  eq_of_compare {s t} h := by
    have : s.entries = t.entries :=
      Std.LawfulEqCmp.eq_of_compare (show List.compareLex entryOrder s.entries t.entries = .eq from h)
    cases s
    cases t
    cases this
    rfl

end Order

end Table

abbrev KeySet (κ : Type) [Ord κ] := Table κ Unit

namespace KeySet

variable {κ : Type} [Ord κ] [Std.TransOrd κ]

def add (s : KeySet κ) (k : κ) : KeySet κ := s.insert k ()

def ofList (l : List κ) : KeySet κ := l.foldl add Table.empty

def union (s t : KeySet κ) : KeySet κ := t.keys.foldl add s

def diff (s t : KeySet κ) : KeySet κ := s.filter fun k _ => !t.contains k

def unions (l : List (KeySet κ)) : KeySet κ := l.foldl union Table.empty

end KeySet

end ColouredPetri
