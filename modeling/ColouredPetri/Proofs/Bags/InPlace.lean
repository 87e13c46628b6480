import ColouredPetri.Proofs.BagArithmetic
import ColouredPetri.Proofs.Outcomes
import ColouredPetri.Proofs.TableKeys

/-! Tables of counts that are changed in place, where nothing keeps zeros out. Each change does to the
table of a bag what the operation does to the bag, so that no sequence of changes stores a zero. -/

namespace ColouredPetri

abbrev CountTable := Table Value Nat

namespace CountTable

def count (t : CountTable) (v : Value) : Nat := (t.get? v).getD 0

def raise (t : CountTable) (v : Value) (n : Nat) : CountTable := t.insert v (count t v + n)

def addTimes (t : CountTable) (v : Value) (n : Nat) : CountTable :=
  if n = 0 then t else raise t v n

def lower (t : CountTable) (v : Value) (n : Nat) : CountTable :=
  if n = 0 then t
  else
    match t.get? v with
    | none => t
    | some m => if m - n = 0 then t.erase v else t.insert v (m - n)

def addAll (t : CountTable) (values : List Value) (n : Nat) : CountTable :=
  values.foldl (fun t v => addTimes t v n) t

def addPairs (t : CountTable) (l : List (Value × Nat)) : CountTable :=
  l.foldl (fun t e => addTimes t e.1 e.2) t

/-- What is asked for if `n` of each listed value are. No times something is a zero in this table. -/
def wanted (values : List Value) (n : Nat) : CountTable :=
  values.foldl (fun t v => raise t v n) Table.empty

def takeOut (w : CountTable) : EStateM TokenError CountTable Unit := do
  let t ← get
  match w.entries.find? fun e => count t e.1 < e.2 with
  | some e => throw (.insufficient e.1 e.2 (count t e.1))
  | none => w.entries.forM fun e => modify fun t => lower t e.1 e.2

lemma takeOut_apply (w t : CountTable) :
    takeOut w t =
      match w.entries.find? fun e => count t e.1 < e.2 with
      | some e => .error (.insufficient e.1 e.2 (count t e.1)) t
      | none => (w.entries.forM fun e => modify fun t => lower t e.1 e.2 :
          EStateM TokenError CountTable Unit) t := by
  change (match w.entries.find? fun e => count t e.1 < e.2 with
    | some e => throw (.insufficient e.1 e.2 (count t e.1))
    | none => w.entries.forM fun e => modify fun t => lower t e.1 e.2 :
      EStateM TokenError CountTable Unit) t = _
  cases w.entries.find? fun e => count t e.1 < e.2 <;> rfl

def times (t : CountTable) (k : Nat) : CountTable :=
  if k = 0 then Table.empty else t.mapValues fun n => min (n * k) Bag.maxCount

end CountTable

namespace Bag

open CountTable

variable {a b : Bag} {v : Value} {n : Nat}

@[simp] lemma add_zero_times (a : Bag) (v : Value) : a.add v 0 = a :=
  ext_count fun w => by simp [count_add]

lemma counts_add (a : Bag) (v : Value) (n : Nat) : (a.add v n).counts = addTimes a.counts v n := by
  rw [addTimes]
  split
  · next hn => simp [hn]
  · next hn =>
    rw [add, setCount, dif_neg (by omega)]
    rfl

lemma counts_addAll (a : Bag) (values : List Value) (n : Nat) :
    (a.addAll values n).counts = CountTable.addAll a.counts values n := by
  induction values generalizing a with
  | nil => rfl
  | cons v values ih =>
    rw [CountTable.addAll, List.foldl_cons, ← counts_add]
    exact ih (a.add v n)

lemma counts_foldl_add (a : Bag) (l : List (Value × Nat)) :
    (l.foldl (fun acc e => acc.add e.1 e.2) a).counts = addPairs a.counts l := by
  induction l generalizing a with
  | nil => rfl
  | cons e l ih =>
    rw [List.foldl_cons, ih, counts_add]
    rfl

lemma counts_lower (a : Bag) (v : Value) (n : Nat) :
    (a.setCount v (a.count v - n)).counts = lower a.counts v n := by
  have hkept : ∀ m, m = a.count v → a.setCount v m = a := fun m hm =>
    ext_count fun w => by
      rw [count_setCount]
      split
      · next hw => rw [hw, hm]
      · rfl
  rw [lower]
  split
  · next hn => rw [hkept _ (by omega)]
  · split
    · next hv =>
      have hzero : a.count v = 0 := by simp [Bag.count, hv]
      rw [hkept _ (by omega)]
    · next m hv =>
      have hm : a.count v = m := by simp [Bag.count, hv]
      rw [setCount, hm]
      split <;> rfl

lemma counts_lessPairs (a : Bag) (l : List (Value × Nat)) (u : Unit) :
    (l.forM fun e => modify fun t => lower t e.1 e.2 : EStateM TokenError CountTable Unit) a.counts =
      .ok u (a.lessPairs l).counts := by
  induction l generalizing a with
  | nil => rfl
  | cons e l ih =>
    refine forM_cons_eq_ok.2 ⟨(a.setCount e.1 (a.count e.1 - e.2)).counts, ?_, ih _⟩
    rw [counts_lower]
    rfl

def taken (a : Bag) : Except TokenError Bag → EStateM.Result TokenError CountTable Unit
  | .ok b => .ok () b.counts
  | .error e => .error e a.counts

lemma takeOut_of_short {w : CountTable} {e : Value × Nat}
    (h : (w.entries.find? fun e => a.count e.1 < e.2) = some e) :
    takeOut w a.counts = .error (.insufficient e.1 e.2 (a.count e.1)) a.counts := by
  rw [takeOut_apply]
  change (match w.entries.find? fun e => a.count e.1 < e.2 with | some e => _ | none => _) = _
  rw [h]
  rfl

lemma takeOut_of_enough {w : CountTable}
    (h : (w.entries.find? fun e => a.count e.1 < e.2) = none) :
    takeOut w a.counts = .ok () (a.lessPairs w.entries).counts := by
  rw [takeOut_apply]
  change (match w.entries.find? fun e => a.count e.1 < e.2 with | some e => _ | none => _) = _
  rw [h]
  exact counts_lessPairs a w.entries ()

lemma takeOut_counts (a b : Bag) : takeOut b.counts a.counts = a.taken (a.sub b) := by
  rw [sub]
  cases h : b.pairs.find? fun e => a.count e.1 < e.2 with
  | some e => exact takeOut_of_short h
  | none => exact takeOut_of_enough h

lemma wanted_of_pos (values : List Value) (hn : n ≠ 0) :
    wanted values n = (empty.addAll values n).counts := by
  rw [counts_addAll, wanted, CountTable.addAll]
  congr 1
  funext t v
  rw [addTimes, if_neg hn]

lemma entries_wanted_zero (values : List Value) : ∀ e ∈ (wanted values 0).entries, e.2 = 0 := by
  have hfold : ∀ t : CountTable, (∀ e ∈ t.entries, e.2 = 0) →
      ∀ e ∈ (values.foldl (fun t v => raise t v 0) t).entries, e.2 = 0 := by
    induction values with
    | nil => exact fun t ht => ht
    | cons v values ih =>
      intro t ht
      refine ih _ fun e he => ?_
      rcases Table.mem_put he with rfl | he
      · change CountTable.count t v + 0 = 0
        rw [CountTable.count]
        cases hv : t.get? v with
        | none => rfl
        | some m => exact ht _ (Table.get?_eq_some_iff.1 hv)
      · exact ht e he
  exact hfold _ (by simp)

lemma takeOut_wanted (a : Bag) (values : List Value) (n : Nat) :
    takeOut (wanted values n) a.counts = a.taken (a.remove values n) := by
  by_cases hn : n = 0
  · subst hn
    have hzero := entries_wanted_zero values
    have hnone : (wanted values 0).entries.find? (fun e => a.count e.1 < e.2) = none :=
      List.find?_eq_none.2 fun e he => by simp [hzero e he]
    have hsame : a.lessPairs (wanted values 0).entries = a := by
      refine ext_count fun v => ?_
      have htotal : Table.total v (wanted values 0).entries = 0 := by
        refine List.sum_eq_zero fun x hx => ?_
        obtain ⟨e, he, rfl⟩ := List.mem_map.1 hx
        simp [hzero e he]
      rw [count_lessPairs, htotal, Nat.sub_zero]
    have hnothing : empty.addAll values 0 = empty := ext_count fun v => by simp [count_addAll]
    rw [takeOut_of_enough hnone, hsame, remove, hnothing]
    rfl
  · rw [wanted_of_pos values hn, takeOut_counts]
    rfl

lemma count_scale (a : Bag) (k : Nat) (v : Value) :
    (a.scale k).count v = min (a.count v * k) maxCount := by
  have hpairs : a.scale k =
      (a.counts.mapValues fun n => min (n * k) maxCount).entries.foldl
        (fun acc e => acc.add e.1 e.2) empty := by
    rw [scale, Table.mapValues, List.foldl_map]
    rfl
  rw [hpairs, count_foldl_add, Table.total_entries, Table.get?_mapValues, count_empty, Bag.count]
  cases a.counts.get? v <;> simp

lemma counts_scale (a : Bag) (k : Nat) : (a.scale k).counts = times a.counts k := by
  rw [times]
  split
  · next hk =>
    have : a.scale k = empty := ext_count fun v => by simp [count_scale, hk]
    rw [this]
    rfl
  · next hk =>
    have hpos : ∀ e ∈ (a.counts.mapValues fun n => min (n * k) maxCount).entries, 0 < e.2 := by
      intro e he
      obtain ⟨d, hd, rfl⟩ := List.mem_map.1 he
      have := a.positive d hd
      exact lt_min (Nat.mul_pos this (by omega)) (by decide)
    have : a.scale k = ⟨a.counts.mapValues fun n => min (n * k) maxCount, hpos⟩ := by
      refine ext_count fun v => ?_
      rw [count_scale, Bag.count, Bag.count, Table.get?_mapValues]
      cases a.counts.get? v <;> simp
    rw [this]

inductive Operation where
  | clear
  | fill (values : List Value)
  | read (pairs : List (Value × Nat))
  | add (values : List Value) (n : Nat)
  | remove (values : List Value) (n : Nat)
  | sum (b : Bag)
  | difference (b : Bag)
  | times (k : Nat)

namespace Operation

def attempt (f : Bag → Except TokenError Bag) : EStateM TokenError Bag Unit := fun a =>
  match f a with
  | .ok b => .ok () b
  | .error e => .error e a

def run : Operation → EStateM TokenError Bag Unit
  | clear => set Bag.empty
  | fill values => set (ofList values)
  | read pairs => set (ofPairs pairs)
  | add values n => modify fun a => a.addAll values n
  | remove values n => attempt fun a => a.remove values n
  | sum b => modify fun a => a + b
  | difference b => attempt fun a => a.sub b
  | times k => modify fun a => a.scale k

def inPlace : Operation → EStateM TokenError CountTable Unit
  | clear => set (Table.empty : CountTable)
  | fill values => set (CountTable.addAll Table.empty values 1)
  | read pairs => set (addPairs Table.empty pairs)
  | add values n => modify fun t => CountTable.addAll t values n
  | remove values n => takeOut (wanted values n)
  | sum b => modify fun t => addPairs t b.pairs
  | difference b => takeOut b.counts
  | times k => modify fun t => CountTable.times t k

lemma inPlace_counts (op : Operation) (a : Bag) :
    op.inPlace a.counts = mapState counts (op.run a) := by
  have htake : ∀ x : Except TokenError Bag,
      a.taken x = mapState counts (attempt (fun _ => x) a) := by
    rintro (e | b) <;> rfl
  cases op with
  | clear => rfl
  | fill values => exact congrArg (EStateM.Result.ok ()) (counts_addAll Bag.empty values 1).symm
  | read pairs => exact congrArg (EStateM.Result.ok ()) (counts_foldl_add Bag.empty pairs).symm
  | add values n => exact congrArg (EStateM.Result.ok ()) (counts_addAll _ _ _).symm
  | remove values n => exact (takeOut_wanted a values n).trans (htake _)
  | sum b => exact congrArg (EStateM.Result.ok ()) (counts_foldl_add _ _).symm
  | difference b => exact (takeOut_counts a b).trans (htake _)
  | times k => exact congrArg (EStateM.Result.ok ()) (counts_scale _ _).symm

lemma after_inPlace (op : Operation) (a : Bag) :
    after op.inPlace a.counts = (after op.run a).counts :=
  after_of_mapState (inPlace_counts op a)

def bagAfter (ops : List Operation) : Bag := ops.foldl (fun a op => after op.run a) Bag.empty

def tableAfter (ops : List Operation) : CountTable :=
  ops.foldl (fun t op => after op.inPlace t) Table.empty

lemma tableAfter_eq (ops : List Operation) : tableAfter ops = (bagAfter ops).counts := by
  change ops.foldl (fun t op => after op.inPlace t) Bag.empty.counts = _
  exact List.foldl_hom counts fun a op => after_inPlace op a

end Operation

end Bag

end ColouredPetri
