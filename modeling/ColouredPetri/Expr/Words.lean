import ColouredPetri.Error

/-! Arithmetic on words. An operation of the machine has no result where the exact one is no word,
and a calculation that goes on regardless stops the program; none of those here does. -/

namespace ColouredPetri

namespace Word

def Fits (n : Int) : Prop := Int64.minValue.toInt ≤ n ∧ n ≤ Int64.maxValue.toInt

instance (n : Int) : Decidable (Fits n) := inferInstanceAs (Decidable (_ ∧ _))

def ofInt? (n : Int) : Option Int64 := if Fits n then some (Int64.ofInt n) else none

def add? (a b : Int64) : Option Int64 := ofInt? (a.toInt + b.toInt)

def sub? (a b : Int64) : Option Int64 := ofInt? (a.toInt - b.toInt)

def mul? (a b : Int64) : Option Int64 := ofInt? (a.toInt * b.toInt)

def neg? (a : Int64) : Option Int64 := ofInt? (-a.toInt)

def div? (a b : Int64) : Option Int64 := if b = 0 then none else ofInt? (a.toInt.tdiv b.toInt)

def rem? (a b : Int64) : Option Int64 :=
  if (div? a b).isSome then ofInt? (a.toInt.tmod b.toInt) else none

/-- Calculations that fail with an error, or stop the program at an operation without a result. -/
abbrev Run (α : Type) := ExceptT EvalError Option α

def checked (x : Option Int64) : Run Int64 :=
  match x with
  | some a => return a
  | none => throw .overflow

def floorDiv (a b : Int64) : Run Int64 :=
  if b = 0 then throw .divisionByZero
  else do
    let q ← checked (div? a b)
    let r ← rem? a b
    if r ≠ 0 ∧ (a < 0) ≠ (b < 0) then liftM (sub? q 1) else return q

def floorRem (a b : Int64) : Run Int64 :=
  if b = 0 then throw .divisionByZero
  else do
    let r ← checked (rem? a b)
    if r ≠ 0 ∧ (r < 0) ≠ (b < 0) then liftM (add? r b) else return r

def run (op : ArithOp) (a b : Int64) : Run Int64 :=
  match op with
  | .add => checked (add? a b)
  | .sub => checked (sub? a b)
  | .mul => checked (mul? a b)
  | .div => floorDiv a b
  | .rem => floorRem a b

section Integers

variable {a b n : Int}

theorem fits_iff : Fits n ↔ -9223372036854775808 ≤ n ∧ n < 9223372036854775808 := by
  rw [Fits, Int64.toInt_minValue, Int64.toInt_maxValue]
  omega

theorem tmod_spec (a : Int) (hb : b ≠ 0) :
    b * a.tdiv b + a.tmod b = a ∧ (a.tmod b).natAbs < b.natAbs ∧
      (0 ≤ a → 0 ≤ a.tmod b) ∧ (a ≤ 0 → a.tmod b ≤ 0) := by
  refine ⟨Int.mul_tdiv_add_tmod a b, ?_, Int.tmod_nonneg b, fun ha => ?_⟩
  · rw [Int.natAbs_tmod]
    exact Nat.mod_lt _ (Int.natAbs_pos.2 hb)
  · have hneg := Int.tmod_nonneg b (Int.neg_nonneg_of_nonpos ha)
    rw [Int.neg_tmod] at hneg
    omega

def Corrected (a b : Int) : Prop := a.tmod b ≠ 0 ∧ (a < 0) ≠ (b < 0)

theorem fits_tdiv_iff (ha : Fits a) (hb : b ≠ 0) :
    Fits (a.tdiv b) ↔ ¬ (a = -9223372036854775808 ∧ b = -1) := by
  rw [fits_iff] at ha ⊢
  have hq := Int.natAbs_tdiv a b
  constructor
  · rintro ⟨-, hlt⟩ ⟨rfl, rfl⟩
    exact absurd hlt (by decide)
  · intro h
    by_cases hone : b.natAbs = 1
    · rcases (show b = 1 ∨ b = -1 by omega) with rfl | rfl
      · rwa [Int.tdiv_one]
      · rw [Int.tdiv_neg, Int.tdiv_one]
        omega
    · have hhalf : a.natAbs / b.natAbs ≤ a.natAbs / 2 := Nat.div_le_div_left (by omega) (by decide)
      change _ = a.natAbs / b.natAbs at hq
      omega

theorem fits_tmod (hb : b ≠ 0) (hfits : Fits b) : Fits (a.tmod b) := by
  obtain ⟨-, hlt, -⟩ := tmod_spec a hb
  rw [fits_iff] at hfits ⊢
  omega

theorem fits_corrected (ha : Fits a) (hb : b ≠ 0) (h : Corrected a b) : Fits (a.tdiv b - 1) := by
  -- a remainder is only left by a divisor of at least two, which makes room for the correction
  rw [fits_iff] at ha ⊢
  obtain ⟨-, hlt, -⟩ := tmod_spec a hb
  have hq := Int.natAbs_tdiv a b
  have hhalf : a.natAbs / b.natAbs ≤ a.natAbs / 2 :=
    Nat.div_le_div_left (by have := h.1; omega) (by decide)
  change _ = a.natAbs / b.natAbs at hq
  omega

theorem fits_tmod_add (hb : b ≠ 0) (hfits : Fits b) (h : Corrected a b) : Fits (a.tmod b + b) := by
  rw [fits_iff] at hfits ⊢
  obtain ⟨-, hlt, hpos, hneg⟩ := tmod_spec a hb
  obtain ⟨hr, hsign⟩ := h
  simp only [ne_eq, eq_iff_iff] at hsign
  omega

end Integers

section Steps

variable {a b c q r : Int64} {n : Int}

theorem fits_toInt (a : Int64) : Fits a.toInt := fits_iff.2 ⟨a.le_toInt, a.toInt_lt⟩

theorem toInt_ne_zero (hb : b ≠ 0) : b.toInt ≠ 0 := fun h => hb (Int64.toInt_inj.1 h)

theorem ofInt?_of_fits (h : Fits n) : ∃ c, ofInt? n = some c ∧ c.toInt = n :=
  ⟨_, if_pos h, Int64.toInt_ofInt_of_le (fits_iff.1 h).1 (fits_iff.1 h).2⟩

theorem ofInt?_of_not_fits (h : ¬ Fits n) : ofInt? n = none := if_neg h

theorem toInt_of_ofInt? (h : ofInt? n = some c) : c.toInt = n := by
  by_cases hn : Fits n
  · obtain ⟨d, hd, he⟩ := ofInt?_of_fits hn
    cases hd.symm.trans h
    exact he
  · cases (ofInt?_of_not_fits hn).symm.trans h

theorem div?_of_ne (hb : b ≠ 0) : div? a b = ofInt? (a.toInt.tdiv b.toInt) := if_neg hb

theorem toInt_of_div? (hb : b ≠ 0) (h : div? a b = some q) : q.toInt = a.toInt.tdiv b.toInt :=
  toInt_of_ofInt? (div?_of_ne hb ▸ h)

theorem rem?_of_div? (hb : b ≠ 0) (h : div? a b = some q) :
    ∃ r, rem? a b = some r ∧ r.toInt = a.toInt.tmod b.toInt := by
  rw [rem?, h]
  exact ofInt?_of_fits (fits_tmod (toInt_ne_zero hb) (fits_toInt b))

theorem rem?_of_none (h : div? a b = none) : rem? a b = none := by
  rw [rem?, h]
  rfl

theorem corrected_iff (hr : r.toInt = a.toInt.tmod b.toInt) :
    (r ≠ 0 ∧ (a < 0) ≠ (b < 0)) ↔ Corrected a.toInt b.toInt := by
  rw [Corrected, ← hr, Ne, ← Int64.toInt_inj, Int64.lt_iff_toInt_lt, Int64.lt_iff_toInt_lt,
    Int64.toInt_zero]

theorem corrected_iff_rem (hb : b ≠ 0) (hr : r.toInt = a.toInt.tmod b.toInt) :
    (r ≠ 0 ∧ (r < 0) ≠ (b < 0)) ↔ Corrected a.toInt b.toInt := by
  obtain ⟨-, -, hpos, hneg⟩ := tmod_spec a.toInt (toInt_ne_zero hb)
  rw [Corrected, Ne, ← Int64.toInt_inj, Int64.lt_iff_toInt_lt, Int64.lt_iff_toInt_lt,
    Int64.toInt_zero, hr]
  simp only [ne_eq, eq_iff_iff]
  omega

theorem sub?_of_corrected (hb : b ≠ 0) (hq : q.toInt = a.toInt.tdiv b.toInt)
    (h : Corrected a.toInt b.toInt) : ∃ c, sub? q 1 = some c ∧ c.toInt = q.toInt - 1 := by
  refine ofInt?_of_fits ?_
  rw [hq]
  exact fits_corrected (fits_toInt a) (toInt_ne_zero hb) h

theorem add?_of_corrected (hb : b ≠ 0) (hr : r.toInt = a.toInt.tmod b.toInt)
    (h : Corrected a.toInt b.toInt) : ∃ c, add? r b = some c ∧ c.toInt = r.toInt + b.toInt := by
  refine ofInt?_of_fits ?_
  rw [hr]
  exact fits_tmod_add (toInt_ne_zero hb) (fits_toInt b) h

theorem floorDiv_eq (hb : b ≠ 0) (hq : div? a b = some q) (hr : rem? a b = some r) :
    floorDiv a b = if r ≠ 0 ∧ (a < 0) ≠ (b < 0) then liftM (sub? q 1) else return q := by
  rw [floorDiv, if_neg hb, hq, hr]
  rfl

theorem floorRem_eq (hb : b ≠ 0) (hr : rem? a b = some r) :
    floorRem a b = if r ≠ 0 ∧ (r < 0) ≠ (b < 0) then liftM (add? r b) else return r := by
  rw [floorRem, if_neg hb, hr]
  rfl

theorem floorDiv_of_div? (hb : b ≠ 0) (h : div? a b = some q) :
    ∃ c, floorDiv a b = some (.ok c) ∧ (Corrected a.toInt b.toInt → c.toInt = q.toInt - 1) ∧
      (¬ Corrected a.toInt b.toInt → c = q) := by
  obtain ⟨r, hrem, hr⟩ := rem?_of_div? hb h
  rw [floorDiv_eq hb h hrem]
  by_cases hc : Corrected a.toInt b.toInt
  · obtain ⟨c, hsub, hce⟩ := sub?_of_corrected hb (toInt_of_div? hb h) hc
    rw [if_pos ((corrected_iff hr).2 hc), hsub]
    exact ⟨c, rfl, fun _ => hce, fun h => absurd hc h⟩
  · rw [if_neg fun h => hc ((corrected_iff hr).1 h)]
    exact ⟨q, rfl, fun h => absurd h hc, fun _ => rfl⟩

theorem floorRem_of_div? (hb : b ≠ 0) (h : div? a b = some q) :
    ∃ c, floorRem a b = some (.ok c) ∧
      (Corrected a.toInt b.toInt → c.toInt = a.toInt.tmod b.toInt + b.toInt) ∧
      (¬ Corrected a.toInt b.toInt → c.toInt = a.toInt.tmod b.toInt) := by
  obtain ⟨r, hrem, hr⟩ := rem?_of_div? hb h
  rw [floorRem_eq hb hrem]
  by_cases hc : Corrected a.toInt b.toInt
  · obtain ⟨c, hadd, hce⟩ := add?_of_corrected hb hr hc
    rw [if_pos ((corrected_iff_rem hb hr).2 hc), hadd]
    exact ⟨c, rfl, fun _ => hr ▸ hce, fun h => absurd hc h⟩
  · rw [if_neg fun h => hc ((corrected_iff_rem hb hr).1 h)]
    exact ⟨r, rfl, fun h => absurd h hc, fun _ => hr⟩

theorem floorDiv_of_none (hb : b ≠ 0) (h : div? a b = none) :
    floorDiv a b = some (.error .overflow) := by
  rw [floorDiv, if_neg hb, h]
  rfl

theorem floorRem_of_none (hb : b ≠ 0) (h : div? a b = none) :
    floorRem a b = some (.error .overflow) := by
  rw [floorRem, if_neg hb, rem?_of_none h]
  rfl

def Ends (x : Run Int64) : Prop :=
  (∃ c, x = some (.ok c)) ∨ x = some (.error .overflow) ∨ x = some (.error .divisionByZero)

theorem ends_checked (x : Option Int64) : Ends (checked x) := by
  cases x with
  | none => exact .inr (.inl rfl)
  | some c => exact .inl ⟨c, rfl⟩

theorem ends_floorDiv (a b : Int64) : Ends (floorDiv a b) := by
  by_cases hb : b = 0
  · exact .inr (.inr (if_pos hb))
  · cases h : div? a b with
    | none => exact .inr (.inl (floorDiv_of_none hb h))
    | some q =>
      obtain ⟨c, hc, -⟩ := floorDiv_of_div? hb h
      exact .inl ⟨c, hc⟩

theorem ends_floorRem (a b : Int64) : Ends (floorRem a b) := by
  by_cases hb : b = 0
  · exact .inr (.inr (if_pos hb))
  · cases h : div? a b with
    | none => exact .inr (.inl (floorRem_of_none hb h))
    | some q =>
      obtain ⟨c, hc, -⟩ := floorRem_of_div? hb h
      exact .inl ⟨c, hc⟩

theorem ends_run (op : ArithOp) (a b : Int64) : Ends (run op a b) := by
  cases op with
  | add => exact ends_checked _
  | sub => exact ends_checked _
  | mul => exact ends_checked _
  | div => exact ends_floorDiv a b
  | rem => exact ends_floorRem a b

theorem Ends.isSome {x : Run Int64} (h : Ends x) : x.run.isSome := by
  obtain ⟨c, rfl⟩ | rfl | rfl := h <;> rfl

end Steps

def arith (op : ArithOp) (a b : Int64) : Except EvalError Int64 :=
  (run op a b).run.get (ends_run op a b).isSome

def neg (a : Int64) : Except EvalError Int64 :=
  (checked (neg? a)).run.get (ends_checked (neg? a)).isSome

theorem run_eq (op : ArithOp) (a b : Int64) : run op a b = some (arith op a b) :=
  (Option.some_get _).symm

theorem arith_of_run {op : ArithOp} {a b : Int64} {x : Except EvalError Int64}
    (h : run op a b = some x) : arith op a b = x :=
  Option.some.inj ((run_eq op a b).symm.trans h)

theorem error_of_arith {op : ArithOp} {a b : Int64} {e : EvalError} (h : arith op a b = .error e) :
    e = .overflow ∨ e = .divisionByZero := by
  obtain ⟨c, hrun⟩ | hrun | hrun := ends_run op a b
  · cases (arith_of_run hrun).symm.trans h
  · cases (arith_of_run hrun).symm.trans h
    exact .inl rfl
  · cases (arith_of_run hrun).symm.trans h
    exact .inr rfl

theorem neg_of_fits {a : Int64} (h : Fits (-a.toInt)) : ∃ c, neg a = .ok c ∧ c.toInt = -a.toInt := by
  obtain ⟨c, hc, he⟩ := ofInt?_of_fits h
  refine ⟨c, Option.some.inj ?_, he⟩
  rw [neg, Option.some_get, neg?, hc]
  rfl

theorem neg_of_not_fits {a : Int64} (h : ¬ Fits (-a.toInt)) : neg a = .error .overflow := by
  refine Option.some.inj ?_
  rw [neg, Option.some_get, neg?, ofInt?_of_not_fits h]
  rfl

theorem error_of_neg {a : Int64} {e : EvalError} (h : neg a = .error e) : e = .overflow := by
  by_cases hfits : Fits (-a.toInt)
  · obtain ⟨c, hc, -⟩ := neg_of_fits hfits
    cases hc.symm.trans h
  · cases (neg_of_not_fits hfits).symm.trans h
    rfl

end Word

end ColouredPetri
