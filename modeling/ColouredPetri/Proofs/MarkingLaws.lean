import ColouredPetri.Description.Decode
import ColouredPetri.Proofs.BagLaws
import ColouredPetri.Proofs.MarkingArithmetic

namespace ColouredPetri

abbrev BagTable := Table String Bag

namespace BagTable

def tokens (t : BagTable) (p : String) : Bag := (t.get? p).getD Bag.empty

def put (t : BagTable) (p : String) (bag : Bag) : BagTable :=
  if bag.isEmpty then t.erase p else t.insert p bag

def collect (l : List (String × Bag)) : BagTable :=
  l.foldl (fun t e => put t e.1 (tokens t e.1 + e.2)) Table.empty

def plusEntry (t : BagTable) (e : String × Bag) : BagTable :=
  match t.get? e.1 with
  | some held => t.insert e.1 (held + e.2)
  | none => t.insert e.1 e.2

def plus (t u : BagTable) : BagTable := u.entries.foldl plusEntry t

def minusEntry (t : BagTable) (e : String × Bag) : Except Error BagTable :=
  match t.get? e.1 with
  | none => .error (.domain (.absentPlace e.1))
  | some held =>
    match held.sub e.2 with
    | .error d => .error (.token d)
    | .ok left => .ok (put t e.1 left)

def minus (t u : BagTable) : Except Error BagTable := u.entries.foldlM minusEntry t

end BagTable

namespace Marking

open BagTable

variable {m n : Marking} {p : String}

section InPlace

lemma bags_set (m : Marking) (p : String) (bag : Bag) : (m.set p bag).bags = put m.bags p bag := by
  by_cases h : bag = Bag.empty
  · rw [set, dif_pos h, put, if_pos (Bag.isEmpty_iff.2 h)]
  · rw [set, dif_neg h, put, if_neg (mt Bag.isEmpty_iff.1 h)]

lemma bags_ofList (l : List (String × Bag)) : (ofList l).bags = collect l := by
  change _ = l.foldl (fun t e => put t e.1 (BagTable.tokens t e.1 + e.2)) Marking.empty.bags
  exact (List.foldl_hom bags fun m e => (bags_set m e.1 (m.tokens e.1 + e.2)).symm).symm

lemma bags_addTokens {bag : Bag} (h : bag ≠ Bag.empty) :
    (m.addTokens p bag).bags = plusEntry m.bags (p, bag) := by
  have hsum : m.tokens p + bag ≠ Bag.empty := fun hs => h (Bag.sum_eq_empty.1 hs).2
  rw [addTokens, bags_set, put, if_neg (mt Bag.isEmpty_iff.1 hsum), plusEntry]
  cases hp : m.bags.get? p with
  | some held => rw [tokens_of_get? hp]
  | none =>
    have : m.tokens p = 0 := by rw [tokens, get?, hp]; rfl
    rw [this, zero_add]

lemma bags_add (m n : Marking) : (m + n).bags = plus m.bags n.bags := by
  have hfold : ∀ l : List (String × Bag), (∀ e ∈ l, e.2 ≠ Bag.empty) → ∀ m : Marking,
      (l.foldl (fun acc e => acc.addTokens e.1 e.2) m).bags = l.foldl plusEntry m.bags := by
    intro l hl
    induction l with
    | nil => exact fun _ => rfl
    | cons e l ih =>
      intro m
      obtain ⟨he, hl⟩ := List.forall_mem_cons.1 hl
      rw [List.foldl_cons, ih hl, bags_addTokens he, List.foldl_cons]
  exact hfold n.entries n.nonempty m

lemma minusEntry_bags (m : Marking) (e : String × Bag) :
    minusEntry m.bags e = (m.subTokens e.1 e.2).map bags := by
  rw [minusEntry, subTokens, get?]
  cases m.bags.get? e.1 with
  | none => rfl
  | some held =>
    cases h : held.sub e.2 with
    | error d => simp only [h]; rfl
    | ok left => simp only [h, ← bags_set]; rfl

lemma minus_bags (m n : Marking) : minus m.bags n.bags = (m.sub n).map bags := by
  rw [minus, sub, entries]
  induction n.bags.entries generalizing m with
  | nil => rfl
  | cons e l ih =>
    rw [List.foldlM_cons, List.foldlM_cons, minusEntry_bags]
    cases m.subTokens e.1 e.2 with
    | error d => rfl
    | ok k => exact ih k

def ofData (l : List (String × List (Value × Nat))) : Marking :=
  ofList (Table.ofList (l.map fun e => (e.1, Bag.ofPairs e.2))).entries

def data? {τ : Type} (V : View τ) (d : τ) : Option (List (String × List (Value × Nat))) :=
  match V.map? d with
  | some members => members.mapM fun e =>
      (Decode.listOf? V (Decode.pair? V (Decode.token? V) (Decode.count? V)) e.2).map (e.1, ·)
  | none => none

lemma mapM_map {α β γ : Type} (f : α → Option β) (g : β → γ) (l : List α) :
    (l.mapM fun a => (f a).map g) = (l.mapM f).map (List.map g) := by
  induction l with
  | nil => rfl
  | cons a l ih =>
    rw [List.mapM_cons, List.mapM_cons, ih]
    cases f a with
    | none => rfl
    | some b => cases l.mapM f <;> rfl

lemma marking?_eq {τ : Type} (V : View τ) (d : τ) :
    Decode.marking? V d = (data? V d).map ofData := by
  rw [Decode.marking?, data?]
  cases V.map? d with
  | none => rfl
  | some members =>
    have hmember : ∀ e : String × τ, (Decode.bag? V e.2).map (e.1, ·) =
        ((Decode.listOf? V (Decode.pair? V (Decode.token? V) (Decode.count? V)) e.2).map
          (e.1, ·)).map fun d => (d.1, Bag.ofPairs d.2) := fun e => by
      rw [Decode.bag?, Option.map_map, Option.map_map]
      rfl
    simp only [hmember, mapM_map]
    exact Option.map_map _ _ _

inductive Operation where
  | clear
  | insert (p : String) (bag : Bag)
  | collect (l : List (String × Bag))
  | read (l : List (String × List (Value × Nat)))
  | observe (net : Net)
  | add (m : Marking)
  | sub (m : Marking)

namespace Operation

def run : Operation → EStateM Error Marking Unit
  | clear => modify fun _ => Marking.empty
  | insert p bag => modify fun m => m.set p bag
  | collect l => modify fun _ => ofList l
  | read l => modify fun _ => ofData l
  | observe net => modify fun _ => net.marking
  | add n => modify fun m => m + n
  | sub n => step fun m => (m.sub n).map fun k => ((), k)

def inPlace : Operation → EStateM Error BagTable Unit
  | clear => modify fun _ => Table.empty
  | insert p bag => modify fun t => put t p bag
  | collect l => modify fun _ => BagTable.collect l
  | read l => modify fun _ =>
      BagTable.collect (Table.ofList (l.map fun e => (e.1, Bag.ofPairs e.2))).entries
  | observe net => modify fun _ => BagTable.collect (net.places.map fun p => (p.name, p.tokens))
  | add n => modify fun t => plus t n.bags
  | sub n => step fun t => (minus t n.bags).map fun k => ((), k)

lemma inPlace_bags (op : Operation) (m : Marking) :
    op.inPlace m.bags = mapState bags (op.run m) := by
  cases op with
  | clear => rfl
  | insert p bag => exact congrArg (EStateM.Result.ok ()) (bags_set m p bag).symm
  | collect l => exact congrArg (EStateM.Result.ok ()) (bags_ofList l).symm
  | read l => exact congrArg (EStateM.Result.ok ()) (bags_ofList _).symm
  | observe net => exact congrArg (EStateM.Result.ok ()) (bags_ofList _).symm
  | add n => exact congrArg (EStateM.Result.ok ()) (bags_add m n).symm
  | sub n =>
    rw [inPlace, run, step, step, minus_bags]
    cases m.sub n <;> rfl

lemma after_inPlace (op : Operation) (m : Marking) :
    after op.inPlace m.bags = (after op.run m).bags :=
  after_of_mapState (inPlace_bags op m)

def markingAfter (ops : List Operation) : Marking :=
  ops.foldl (fun m op => after op.run m) Marking.empty

def tableAfter (ops : List Operation) : BagTable :=
  ops.foldl (fun t op => after op.inPlace t) Table.empty

lemma tableAfter_eq (ops : List Operation) : tableAfter ops = (markingAfter ops).bags := by
  change ops.foldl (fun t op => after op.inPlace t) Marking.empty.bags = _
  exact List.foldl_hom bags fun m op => after_inPlace op m

end Operation

end InPlace

section Order

instance : PartialOrder Marking where
  le m n := ∀ p, m.tokens p ≤ n.tokens p
  le_refl m p := le_refl _
  le_trans m n k hmn hnk p := (hmn p).trans (hnk p)
  le_antisymm m n hmn hnm := ext_tokens fun p => le_antisymm (hmn p) (hnm p)

lemma isSubset_iff_le : m.isSubset n = true ↔ m ≤ n := by
  simp only [isSubset, List.all_eq_true, Bag.isSubset_iff_le]
  constructor
  · intro h p
    by_cases hp : m.tokens p = Bag.empty
    · rw [hp]
      exact fun v => Nat.zero_le _
    · exact h (p, m.tokens p) (Table.get?_eq_some_iff.1 (get?_eq_some_iff.2 ⟨rfl, hp⟩))
  · intro h e he
    exact tokens_of_get? (get?_of_mem he) ▸ h e.1

lemma exists_sub_iff : (∃ k, m.sub n = .ok k) ↔ n ≤ m := by
  simp only [sub_eq_ok_iff, exists_add_iff, Bag.isSubset_iff_le]
  rfl

lemma inclusion_eq (m n : Marking) : (m.inclusion n = some .eq ↔ m = n) ∧
    (m.inclusion n = some .lt ↔ m < n) ∧ (m.inclusion n = some .gt ↔ n < m) ∧
    (m.inclusion n = none ↔ ¬ m ≤ n ∧ ¬ n ≤ m) := by
  rw [inclusion]
  by_cases heq : m = n
  · subst heq
    simp
  · rw [if_neg heq]
    by_cases hle : m ≤ n
    · have hlt := lt_of_le_of_ne hle heq
      rw [if_pos (isSubset_iff_le.2 hle)]
      simp [heq, hle, hlt, hlt.not_gt]
    · rw [if_neg (mt isSubset_iff_le.1 hle)]
      by_cases hge : n ≤ m
      · have hgt := lt_of_le_of_ne hge (Ne.symm heq)
        rw [if_pos (isSubset_iff_le.2 hge)]
        simp [heq, hge, hgt, hgt.not_gt]
      · rw [if_neg (mt isSubset_iff_le.1 hge)]
        simp [heq, hle, hge, lt_iff_le_and_ne]

end Order

/-- In a table that is changed in place no operation leaves an empty place, and its marking is
determined by the tokens on each place. Documents are read by such operations. A marking can be taken
out of those that include it place by place, which undoes adding it, and inclusion is the order that
the comparison tells. -/
theorem ordered_by_places (ops : List Operation) (m n : Marking) :
    (Operation.tableAfter ops = (Operation.markingAfter ops).bags ∧
      ∀ e ∈ (Operation.tableAfter ops).entries, e.2 ≠ Bag.empty) ∧
    (∀ {τ : Type} (V : View τ) (d : τ), Decode.marking? V d = (data? V d).map ofData) ∧
    (m = n ↔ ∀ p, m.tokens p = n.tokens p) ∧
    ((∃ k, m.sub n = .ok k) ↔ n.isSubset m = true) ∧
    (n.isSubset m = true ↔ ∀ p v, (n.tokens p).count v ≤ (m.tokens p).count v) ∧
    (∀ k, m.sub n = .ok k ↔ k + n = m) ∧ (m + n).sub n = .ok m ∧
    (m.inclusion n = some .eq ↔ m = n) ∧
    (m.inclusion n = some .lt ↔ m.isSubset n = true ∧ m ≠ n) ∧
    (m.inclusion n = some .gt ↔ n.isSubset m = true ∧ m ≠ n) ∧
    (m.inclusion n = none ↔ ¬ m.isSubset n = true ∧ ¬ n.isSubset m = true) := by
  obtain ⟨heq, hlt, hgt, hnone⟩ := inclusion_eq m n
  refine ⟨⟨Operation.tableAfter_eq ops, ?_⟩, marking?_eq, ⟨fun h p => by rw [h], ext_tokens⟩, ?_,
    isSubset_iff_le, fun k => sub_eq_ok_iff, sub_eq_ok_iff.2 rfl, heq, ?_, ?_, ?_⟩
  · rw [Operation.tableAfter_eq]
    exact (Operation.markingAfter ops).nonempty
  · rw [exists_sub_iff, isSubset_iff_le]
  · rw [hlt, isSubset_iff_le, lt_iff_le_and_ne]
  · rw [hgt, isSubset_iff_le, lt_iff_le_and_ne, ne_comm]
  · rw [hnone, isSubset_iff_le, isSubset_iff_le]

def ones (k : Nat) : Bag := Bag.ofPairs [(.int 1, k)]

def rearranged : List Operation :=
  [.read [("p", [(.int 1, 2), (.int 2, 0), (.int 1, 1)]), ("q", [(.int 5, 0)]), ("r", [])],
    .add (ofList [("q", ones 2)]), .sub (ofList [("s", ones 1)]), .sub (ofList [("p", ones 3)]),
    .insert "r" Bag.empty]

theorem ordered_by_places_rearranged :
    (Operation.tableAfter rearranged).entries = [("q", ones 2)] ∧
      (∀ e ∈ (Operation.tableAfter rearranged).entries, e.2 ≠ Bag.empty) ∧
      (ofList [("q", ones 1)]).inclusion (Operation.markingAfter rearranged) = some .lt ∧
      (Operation.markingAfter rearranged).sub (ofList [("q", ones 1)]) =
        .ok (ofList [("q", ones 1)]) := by
  obtain ⟨-, -, -, -, -, hsub, -, -, -⟩ :=
    ordered_by_places [] (Operation.markingAfter rearranged) (ofList [("q", ones 1)])
  obtain ⟨⟨-, hstored⟩, -, -, -, -, -, -, -, hless, -⟩ :=
    ordered_by_places rearranged (ofList [("q", ones 1)]) (Operation.markingAfter rearranged)
  exact ⟨by decide, hstored, hless.2 ⟨by decide, by decide⟩, (hsub _).2 (by decide)⟩

end Marking

end ColouredPetri
