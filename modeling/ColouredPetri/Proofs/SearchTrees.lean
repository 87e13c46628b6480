import ColouredPetri.Proofs.TableKeys

/-! Search trees. Where a tree lists the entries of a table in their order, comparing keys leads to
each entry of the table on one path, and a change along that path is the change of the table. -/

namespace ColouredPetri

/-- Entries in a tree. A node with several keys is a chain of branches to the right. -/
inductive SearchTree (κ β : Type) where
  | leaf
  | branch (left : SearchTree κ β) (key : κ) (value : β) (right : SearchTree κ β)

namespace SearchTree

variable {κ β : Type}

def listing : SearchTree κ β → List (κ × β)
  | leaf => []
  | branch left key value right => left.listing ++ (key, value) :: right.listing

def join : SearchTree κ β → SearchTree κ β → SearchTree κ β
  | leaf, u => u
  | branch left key value right, u => branch left key value (right.join u)

variable [Ord κ]

def search (k : κ) : SearchTree κ β → Option β
  | leaf => none
  | branch left key value right =>
    match compare k key with
    | .lt => left.search k
    | .eq => some value
    | .gt => right.search k

def insert (k : κ) (b : β) : SearchTree κ β → SearchTree κ β
  | leaf => branch leaf k b leaf
  | branch left key value right =>
    match compare k key with
    | .lt => branch (left.insert k b) key value right
    | .eq => branch left k b right
    | .gt => branch left key value (right.insert k b)

def erase (k : κ) : SearchTree κ β → SearchTree κ β
  | leaf => leaf
  | branch left key value right =>
    match compare k key with
    | .lt => branch (left.erase k) key value right
    | .eq => left.join right
    | .gt => branch left key value (right.erase k)

def fill (l : List (κ × β)) : SearchTree κ β := l.foldl (fun t e => t.insert e.1 e.2) leaf

def Ordered (t : SearchTree κ β) : Prop := t.listing.Pairwise fun d e => compare d.1 e.1 = .lt

end SearchTree

namespace Table

variable {κ β : Type} [Ord κ] {k : κ} {b : β} {l m : List (κ × β)} {e : κ × β}

lemma find_append : find k (l ++ m) = (find k l).or (find k m) := by
  induction l with
  | nil => rfl
  | cons d l ih =>
    rw [List.cons_append, find, find, ih]
    split <;> rfl

lemma put_append_left (h : compare k e.1 = .lt) : put k b (l ++ e :: m) = put k b l ++ e :: m := by
  induction l with
  | nil =>
    rw [List.nil_append, put, put, h]
    rfl
  | cons d l ih =>
    rw [List.cons_append, put, put]
    split
    · rfl
    · rfl
    · rw [ih, List.cons_append]

lemma put_append_right (h : ∀ d ∈ l, compare k d.1 = .gt) : put k b (l ++ m) = l ++ put k b m := by
  induction l with
  | nil => rfl
  | cons d l ih =>
    obtain ⟨hd, hl⟩ := List.forall_mem_cons.1 h
    rw [List.cons_append, put, hd]
    simp only [ih hl, List.cons_append]

lemma drop_append : drop k (l ++ m) = drop k l ++ drop k m := List.filter_append ..

lemma drop_cons : drop k (e :: l) = if compare k e.1 = .eq then drop k l else e :: drop k l := by
  rw [drop, List.filter_cons]
  by_cases hk : compare k e.1 = .eq <;> simp [hk, drop]

lemma drop_of_ne (h : ∀ d ∈ l, compare k d.1 ≠ .eq) : drop k l = l :=
  List.filter_eq_self.2 fun d hd => bne_iff_ne.2 (h d hd)

end Table

namespace SearchTree

open Table

variable {κ β : Type} {t l r : SearchTree κ β} {k q : κ} {b c : β}

lemma listing_join (t u : SearchTree κ β) : (t.join u).listing = t.listing ++ u.listing := by
  induction t with
  | leaf => rfl
  | branch left key value right _ ih => simp [join, listing, ih]

variable [Ord κ]

namespace Ordered

variable (h : (branch l q c r).Ordered)

include h

lemma left : l.Ordered := (List.pairwise_append.1 h).1

lemma right : r.Ordered := (List.pairwise_cons.1 (List.pairwise_append.1 h).2.1).2

variable [Std.TransOrd κ]

lemma gt_left (hk : compare k q ≠ .lt) : ∀ d ∈ l.listing, compare k d.1 = .gt := by
  intro d hd
  have hdq : compare d.1 q = .lt :=
    (List.pairwise_append.1 h).2.2 d hd (q, c) List.mem_cons_self
  have hqk : (compare q k).isLE := by
    rw [Std.OrientedOrd.eq_swap (a := q)]
    revert hk
    cases compare k q <;> simp
  exact Std.OrientedCmp.gt_of_lt (Std.TransCmp.lt_of_lt_of_isLE hdq hqk)

lemma lt_right (hk : (compare k q).isLE) : ∀ d ∈ r.listing, compare k d.1 = .lt := by
  intro d hd
  have hqd : compare q d.1 = .lt :=
    (List.pairwise_cons.1 (List.pairwise_append.1 h).2.1).1 d hd
  exact Std.TransCmp.lt_of_isLE_of_lt hk hqd

lemma ne_left (hk : compare k q ≠ .lt) : ∀ d ∈ l.listing, compare k d.1 ≠ .eq := by
  intro d hd heq
  rw [h.gt_left hk d hd] at heq
  cases heq

lemma ne_right (hk : (compare k q).isLE) : ∀ d ∈ r.listing, compare k d.1 ≠ .eq := by
  intro d hd heq
  rw [h.lt_right hk d hd] at heq
  cases heq

end Ordered

lemma ordered_of_listing {s : Table κ β} (h : t.listing = s.entries) : t.Ordered := by
  rw [Ordered, h]
  exact s.ascending

variable [Std.TransOrd κ]

lemma search_eq_find (h : t.Ordered) : t.search k = find k t.listing := by
  induction t with
  | leaf => rfl
  | branch left key value right ihl ihr =>
    rw [search, listing, find_append, find]
    -- the side that the search leaves out lies beyond the key, and so does not hold it
    cases hk : compare k key with
    | lt =>
      have hright : find k right.listing = none := find_eq_none (h.ne_right (by simp [hk]))
      simp [ihl h.left, hright]
    | eq =>
      have hleft : find k left.listing = none := find_eq_none (h.ne_left (by simp [hk]))
      simp [hleft]
    | gt =>
      have hleft : find k left.listing = none := find_eq_none (h.ne_left (by simp [hk]))
      simp [ihr h.right, hleft]

lemma listing_insert (h : t.Ordered) : (t.insert k b).listing = put k b t.listing := by
  induction t with
  | leaf => rfl
  | branch left key value right ihl ihr =>
    rw [insert, listing]
    cases hk : compare k key with
    | lt =>
      rw [put_append_left hk, ← ihl h.left]
      rfl
    | eq =>
      rw [put_append_right (h.gt_left (by simp [hk])), put, hk]
      rfl
    | gt =>
      rw [put_append_right (h.gt_left (by simp [hk])), put, hk]
      simp only [← ihr h.right]
      rfl

lemma listing_erase (h : t.Ordered) : (t.erase k).listing = drop k t.listing := by
  induction t with
  | leaf => rfl
  | branch left key value right ihl ihr =>
    rw [erase, listing, drop_append, drop_cons]
    cases hk : compare k key with
    | lt =>
      have hright : drop k right.listing = right.listing := drop_of_ne (h.ne_right (by simp [hk]))
      simp [listing, ihl h.left, hright]
    | eq =>
      have hleft : drop k left.listing = left.listing := drop_of_ne (h.ne_left (by simp [hk]))
      have hright : drop k right.listing = right.listing := drop_of_ne (h.ne_right (by simp [hk]))
      simp [listing_join, hleft, hright]
    | gt =>
      have hleft : drop k left.listing = left.listing := drop_of_ne (h.ne_left (by simp [hk]))
      simp [listing, ihr h.right, hleft]

lemma listing_fill (l : List (κ × β)) : (fill l).listing = (ofList l).entries := by
  have hfold : ∀ (t : SearchTree κ β) (s : Table κ β), t.listing = s.entries →
      (l.foldl (fun t e => t.insert e.1 e.2) t).listing =
        (l.foldl (fun s e => s.insert e.1 e.2) s).entries := by
    induction l with
    | nil => exact fun _ _ h => h
    | cons e l ih =>
      refine fun t s h => ih _ _ ?_
      rw [listing_insert (ordered_of_listing h), h]
      rfl
  exact hfold leaf empty rfl

lemma exists_listing [Std.LawfulEqOrd κ] (s : Table κ β) :
    ∃ t : SearchTree κ β, t.listing = s.entries :=
  ⟨fill s.entries, by rw [listing_fill, ofList_entries]⟩

structure Serves (t : SearchTree κ β) (s : Table κ β) : Prop where
  found (k : κ) (b : β) : t.search k = some b ↔ (k, b) ∈ s.entries
  looked_up (k : κ) : t.search k = s.get? k
  inserted (k : κ) (b : β) : (t.insert k b).listing = (s.insert k b).entries
  erased (k : κ) : (t.erase k).listing = (s.erase k).entries

lemma serves [Std.LawfulEqOrd κ] {s : Table κ β} (h : t.listing = s.entries) : t.Serves s := by
  have hordered := ordered_of_listing h
  have hsearch : ∀ k, t.search k = s.get? k := fun k => by
    rw [search_eq_find hordered, h, get?]
  exact {
    found := fun k b => by rw [hsearch, get?_eq_some_iff]
    looked_up := hsearch
    inserted := fun k b => by rw [listing_insert hordered, h, Table.insert]
    erased := fun k => by rw [listing_erase hordered, h, Table.erase] }

end SearchTree

structure Table.Searchable {κ β : Type} [Ord κ] [Std.TransOrd κ] (s : Table κ β) : Prop where
  arranged : ∃ t : SearchTree κ β, t.listing = s.entries
  served (t : SearchTree κ β) : t.listing = s.entries → t.Serves s

lemma Table.searchable {κ β : Type} [Ord κ] [Std.TransOrd κ] [Std.LawfulEqOrd κ]
    (s : Table κ β) : s.Searchable where
  arranged := SearchTree.exists_listing s
  served _ h := SearchTree.serves h

end ColouredPetri
