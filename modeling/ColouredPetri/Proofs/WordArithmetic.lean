import Mathlib.Data.Rat.Floor
import Mathlib.Tactic.Linarith
import Mathlib.Tactic.NormNum
import ColouredPetri.Expr.Eval
import ColouredPetri.Expr.Parser

namespace ColouredPetri

namespace ArithOp

def divides : ArithOp → Bool
  | div => true
  | rem => true
  | _ => false

def exact : ArithOp → Int → Int → Int
  | add, a, b => a + b
  | sub, a, b => a - b
  | mul, a, b => a * b
  | div, a, b => ⌊(a / b : ℚ)⌋
  | rem, a, b => a - b * ⌊(a / b : ℚ)⌋

/-- The integer that has to fit into a word: the result, or for a remainder its quotient. -/
def limited : ArithOp → Int → Int → Int
  | rem => exact div
  | op => exact op

end ArithOp

namespace Word

open ArithOp

section Floors

variable {a b q r : Int}

lemma floor_eq (h : b * q + r = a) (hr : 0 ≤ r ∧ r < b ∨ b < r ∧ r ≤ 0) :
    ⌊(a / b : ℚ)⌋ = q := by
  have hq : (b : ℚ) * q + r = a := by exact_mod_cast h
  rw [Int.floor_eq_iff]
  rcases hr with ⟨hle, hlt⟩ | ⟨hlt, hle⟩
  · have hb : (0 : ℚ) < b := by exact_mod_cast hle.trans_lt hlt
    have hle : (0 : ℚ) ≤ r := by exact_mod_cast hle
    have hlt : (r : ℚ) < b := by exact_mod_cast hlt
    rw [le_div_iff₀ hb, div_lt_iff₀ hb]
    constructor <;> linarith
  · have hb : (b : ℚ) < 0 := by exact_mod_cast hlt.trans_le hle
    have hle : (r : ℚ) ≤ 0 := by exact_mod_cast hle
    have hlt : (b : ℚ) < r := by exact_mod_cast hlt
    rw [le_div_iff_of_neg hb, div_lt_iff_of_neg hb]
    constructor <;> linarith

lemma floor_of_corrected (hb : b ≠ 0) (h : Corrected a b) :
    ⌊(a / b : ℚ)⌋ = a.tdiv b - 1 := by
  obtain ⟨hsum, hlt, hpos, hneg⟩ := tmod_spec a hb
  obtain ⟨hr, hsign⟩ := h
  simp only [ne_eq, eq_iff_iff] at hsign
  refine floor_eq (r := a.tmod b + b) (by linarith [hsum, mul_sub b (a.tdiv b) 1]) ?_
  omega

lemma floor_of_not_corrected (hb : b ≠ 0) (h : ¬ Corrected a b) :
    ⌊(a / b : ℚ)⌋ = a.tdiv b := by
  obtain ⟨hsum, hlt, hpos, hneg⟩ := tmod_spec a hb
  simp only [Corrected, ne_eq, eq_iff_iff, not_and, not_not] at h
  refine floor_eq hsum ?_
  omega

lemma exact_rem_spec (a : Int) (hb : b ≠ 0) :
    0 ≤ exact .rem a b ∧ exact .rem a b < b ∨ b < exact .rem a b ∧ exact .rem a b ≤ 0 := by
  obtain ⟨hsum, hlt, hpos, hneg⟩ := tmod_spec a hb
  rw [exact]
  by_cases h : Corrected a b
  · rw [floor_of_corrected hb h, mul_sub, mul_one]
    obtain ⟨hr, hsign⟩ := h
    simp only [ne_eq, eq_iff_iff] at hsign
    omega
  · rw [floor_of_not_corrected hb h]
    simp only [Corrected, ne_eq, eq_iff_iff, not_and, not_not] at h
    omega

lemma sign_exact_rem (a : Int) (hb : b ≠ 0) :
    exact .rem a b = 0 ∨ (exact .rem a b).sign = b.sign := by
  obtain ⟨hle, hlt⟩ | ⟨hlt, hle⟩ := exact_rem_spec a hb
  · rcases hle.eq_or_lt with h | h
    · exact .inl h.symm
    · exact .inr (by rw [Int.sign_eq_one_of_pos h, Int.sign_eq_one_of_pos (h.trans hlt)])
  · rcases hle.eq_or_lt with h | h
    · exact .inl h
    · exact .inr (by rw [Int.sign_eq_neg_one_of_neg h, Int.sign_eq_neg_one_of_neg (hlt.trans h)])

end Floors

section Quotients

variable {a b : Int}

lemma fits_exact_div_iff (ha : Fits a) (hb : b ≠ 0) :
    Fits (exact .div a b) ↔ ¬ (a = -9223372036854775808 ∧ b = -1) := by
  rw [exact]
  by_cases h : Corrected a b
  · rw [floor_of_corrected hb h]
    refine iff_of_true (fits_corrected ha hb h) ?_
    rintro ⟨rfl, rfl⟩
    exact h.1 (by decide)
  · rw [floor_of_not_corrected hb h, fits_tdiv_iff ha hb]

lemma fits_exact_rem (hb : b ≠ 0) (hfits : Fits b) : Fits (exact .rem a b) := by
  have hspec := exact_rem_spec a hb
  rw [fits_iff] at hfits ⊢
  omega

end Quotients

section Words

variable {a b : Int64} {n k : Int} {x : Except EvalError Int64}

def Gives (x : Except EvalError Int64) (n k : Int) : Prop :=
  (Fits k → ∃ c, x = .ok c ∧ c.toInt = n) ∧ (¬ Fits k → x = .error .overflow)

lemma gives_checked {op : ArithOp} (h : run op a b = checked (ofInt? n)) :
    Gives (arith op a b) n n := by
  refine ⟨fun hn => ?_, fun hn => arith_of_run ?_⟩
  · obtain ⟨c, hc, he⟩ := ofInt?_of_fits hn
    exact ⟨c, arith_of_run (by rw [h, hc]; rfl), he⟩
  · rw [h, ofInt?_of_not_fits hn]
    rfl

lemma gives_neg (a : Int64) : Gives (neg a) (-a.toInt) (-a.toInt) := ⟨neg_of_fits, neg_of_not_fits⟩

lemma exists_div?_iff (hb : b ≠ 0) :
    (∃ q, div? a b = some q) ↔ Fits (exact .div a.toInt b.toInt) := by
  rw [fits_exact_div_iff (fits_toInt a) (toInt_ne_zero hb),
    ← fits_tdiv_iff (fits_toInt a) (toInt_ne_zero hb), div?_of_ne hb]
  constructor
  · rintro ⟨q, hq⟩
    exact toInt_of_ofInt? hq ▸ fits_toInt q
  · intro h
    obtain ⟨q, hq, -⟩ := ofInt?_of_fits h
    exact ⟨q, hq⟩

lemma div?_eq_none (hb : b ≠ 0) (h : ¬ Fits (exact .div a.toInt b.toInt)) : div? a b = none := by
  rw [← exists_div?_iff hb, ← Option.isSome_iff_exists, Option.not_isSome_iff_eq_none] at h
  exact h

lemma gives_floorDiv (hb : b ≠ 0) :
    Gives (arith .div a b) (exact .div a.toInt b.toInt) (exact .div a.toInt b.toInt) := by
  refine ⟨fun h => ?_, fun h => arith_of_run (floorDiv_of_none hb (div?_eq_none hb h))⟩
  obtain ⟨q, hq⟩ := (exists_div?_iff hb).2 h
  obtain ⟨c, hc, hcorrected, hexact⟩ := floorDiv_of_div? hb hq
  refine ⟨c, arith_of_run hc, ?_⟩
  by_cases hcorr : Corrected a.toInt b.toInt
  · rw [exact, floor_of_corrected (toInt_ne_zero hb) hcorr, hcorrected hcorr, toInt_of_div? hb hq]
  · rw [exact, floor_of_not_corrected (toInt_ne_zero hb) hcorr, hexact hcorr, toInt_of_div? hb hq]

lemma gives_floorRem (hb : b ≠ 0) :
    Gives (arith .rem a b) (exact .rem a.toInt b.toInt) (exact .div a.toInt b.toInt) := by
  refine ⟨fun h => ?_, fun h => arith_of_run (floorRem_of_none hb (div?_eq_none hb h))⟩
  obtain ⟨q, hq⟩ := (exists_div?_iff hb).2 h
  obtain ⟨c, hc, hcorrected, hexact⟩ := floorRem_of_div? hb hq
  have hsum := Int.mul_tdiv_add_tmod a.toInt b.toInt
  refine ⟨c, arith_of_run hc, ?_⟩
  by_cases hcorr : Corrected a.toInt b.toInt
  · rw [exact, floor_of_corrected (toInt_ne_zero hb) hcorr, hcorrected hcorr, mul_sub, mul_one]
    omega
  · rw [exact, floor_of_not_corrected (toInt_ne_zero hb) hcorr, hexact hcorr]
    omega

lemma Gives.map_int (h : Gives x n k) :
    (x.map Value.int = .error .overflow ↔ ¬ Fits k) ∧
      (Fits k → ∃ c, x.map Value.int = .ok (.int c) ∧ c.toInt = n) ∧
      x.map Value.int ≠ .error .divisionByZero := by
  obtain ⟨hvalue, hoverflow⟩ := h
  by_cases hfits : Fits k
  · obtain ⟨c, rfl, hc⟩ := hvalue hfits
    exact ⟨iff_of_false nofun fun h => h hfits, fun _ => ⟨c, rfl, hc⟩, nofun⟩
  · rw [hoverflow hfits]
    exact ⟨iff_of_true rfl hfits, fun h => absurd h hfits, nofun⟩

def Undefined (op : ArithOp) (b : Int64) : Prop := op.divides = true ∧ b = 0

lemma gives_arith {op : ArithOp} (h : ¬ Undefined op b) :
    Gives (arith op a b) (op.exact a.toInt b.toInt) (op.limited a.toInt b.toInt) := by
  cases op with
  | add => exact gives_checked rfl
  | sub => exact gives_checked rfl
  | mul => exact gives_checked rfl
  | div => exact gives_floorDiv fun hb => h ⟨rfl, hb⟩
  | rem => exact gives_floorRem fun hb => h ⟨rfl, hb⟩

lemma arith_undefined {op : ArithOp} (h : Undefined op b) :
    arith op a b = .error .divisionByZero := by
  obtain ⟨hop, rfl⟩ := h
  cases op with
  | div => rfl
  | rem => rfl
  | _ => cases hop

lemma steps_fit (hb : b ≠ 0) {q : Int64} (hq : div? a b = some q) :
    ∃ r, rem? a b = some r ∧ q.toInt = a.toInt.tdiv b.toInt ∧ r.toInt = a.toInt.tmod b.toInt ∧
      (r ≠ 0 ∧ (a < 0) ≠ (b < 0) → ∃ c, sub? q 1 = some c ∧ c.toInt = q.toInt - 1) ∧
      (r ≠ 0 ∧ (r < 0) ≠ (b < 0) → ∃ c, add? r b = some c ∧ c.toInt = r.toInt + b.toInt) := by
  obtain ⟨r, hrem, hr⟩ := rem?_of_div? hb hq
  have hquotient := toInt_of_div? hb hq
  exact ⟨r, hrem, hquotient, hr,
    fun hc => sub?_of_corrected hb hquotient ((corrected_iff hr).1 hc),
    fun hc => add?_of_corrected hb hr ((corrected_iff_rem hb hr).1 hc)⟩

end Words

end Word

namespace Expr

open Word

variable {s : Scope} {l r : Expr} {a b : Int64}

lemma eval_arith_int (hl : l.eval s = .ok (.int a)) (hr : r.eval s = .ok (.int b)) (op : ArithOp) :
    (arith op l r).eval s = (Word.arith op a b).map Value.int := by
  rw [eval, hl, hr]
  simp only [Value.arith]
  cases Word.arith op a b <;> rfl

lemma eval_neg_int (hl : l.eval s = .ok (.int a)) :
    (neg l).eval s = (Word.neg a).map Value.int := by
  rw [eval, hl]
  simp only [Value.negate]
  cases Word.neg a <;> rfl

/-- Operations on words give the integers that they stand for if these are words, and otherwise
overflow. A remainder always is a word, but overflows where its quotient does, which is for one pair
only. No calculation stops at a step: behind a quotient there is a remainder, and both have their
corrections. -/
theorem arithmetic_exact (hl : l.eval s = .ok (.int a)) (hr : r.eval s = .ok (.int b)) :
    (∀ op : ArithOp,
      ((arith op l r).eval s = .error .divisionByZero ↔ Undefined op b) ∧
      ((arith op l r).eval s = .error .overflow ↔
        ¬ Undefined op b ∧ ¬ Fits (op.limited a.toInt b.toInt)) ∧
      (¬ Undefined op b → Fits (op.limited a.toInt b.toInt) →
        ∃ c, (arith op l r).eval s = .ok (.int c) ∧ c.toInt = op.exact a.toInt b.toInt)) ∧
    ((neg l).eval s = .error .overflow ↔ ¬ Fits (-a.toInt)) ∧
    (Fits (-a.toInt) → ∃ c, (neg l).eval s = .ok (.int c) ∧ c.toInt = -a.toInt) ∧
    (b ≠ 0 →
      (Fits (ArithOp.exact .div a.toInt b.toInt) ↔ ¬ (a = Int64.minValue ∧ b = -1)) ∧
      Fits (ArithOp.exact .rem a.toInt b.toInt) ∧
      (ArithOp.exact .rem a.toInt b.toInt = 0 ∨
        (ArithOp.exact .rem a.toInt b.toInt).sign = b.toInt.sign)) ∧
    (∀ op : ArithOp, ∃ x, Word.run op a b = some x ∧ (arith op l r).eval s = x.map Value.int) ∧
    (b ≠ 0 → ∀ q, div? a b = some q →
      ∃ m, rem? a b = some m ∧ q.toInt = a.toInt.tdiv b.toInt ∧ m.toInt = a.toInt.tmod b.toInt ∧
        (m ≠ 0 ∧ (a < 0) ≠ (b < 0) → ∃ c, sub? q 1 = some c ∧ c.toInt = q.toInt - 1) ∧
        (m ≠ 0 ∧ (m < 0) ≠ (b < 0) → ∃ c, add? m b = some c ∧ c.toInt = m.toInt + b.toInt)) := by
  have hneg := (gives_neg a).map_int
  refine ⟨fun op => ?_, ?_, ?_, fun hb => ?_, fun op => ?_, fun hb q => steps_fit hb⟩
  · rw [eval_arith_int hl hr]
    by_cases hzero : Undefined op b
    · rw [arith_undefined hzero]
      exact ⟨iff_of_true rfl hzero, iff_of_false nofun fun h => h.1 hzero, fun h => absurd hzero h⟩
    · obtain ⟨hoverflow, hvalue, hdefined⟩ := (gives_arith (a := a) hzero).map_int
      exact ⟨iff_of_false hdefined hzero, hoverflow.trans (and_iff_right hzero).symm,
        fun _ => hvalue⟩
  · rw [eval_neg_int hl]
    exact hneg.1
  · rw [eval_neg_int hl]
    exact hneg.2.1
  · have hb' := toInt_ne_zero hb
    refine ⟨?_, fits_exact_rem hb' (fits_toInt b), sign_exact_rem _ hb'⟩
    rw [fits_exact_div_iff (fits_toInt a) hb', ← Int64.toInt_inj, ← Int64.toInt_inj,
      Int64.toInt_minValue]
    rfl
  · exact ⟨Word.arith op a b, run_eq op a b, eval_arith_int hl hr op⟩

def least (y : Int64) : Scope :=
  ⟨(Binding.single "x" (.int Int64.minValue)).insert "y" (.int y), Table.empty⟩

theorem arithmetic_exact_least :
    (name "x").eval (least 3) = .ok (.int Int64.minValue) ∧ (name "y").eval (least 3) = .ok (.int 3) ∧
      (arith .div (name "x") (name "y")).eval (least 3) = .ok (.int (-3074457345618258603)) ∧
      (arith .rem (name "x") (name "y")).eval (least 3) = .ok (.int 1) ∧
      (neg (name "x")).eval (least 3) = .error .overflow := by
  have hl : (name "x").eval (least 3) = .ok (.int Int64.minValue) := by decide +kernel
  have hr : (name "y").eval (least 3) = .ok (.int 3) := by decide +kernel
  obtain ⟨hop, hneg, -, hquotient, -⟩ := arithmetic_exact hl hr
  have hfloor : ⌊((Int64.minValue.toInt : ℚ) / ((3 : Int64).toInt : ℚ))⌋ = -3074457345618258603 :=
    floor_eq (r := 1) (by decide) (by decide)
  have hfits := (hquotient (by decide)).1.2 (by decide)
  obtain ⟨q, hq, hqe⟩ := (hop .div).2.2 (by rintro ⟨-, h⟩; cases h) hfits
  obtain ⟨m, hm, hme⟩ := (hop .rem).2.2 (by rintro ⟨-, h⟩; cases h) hfits
  simp only [ArithOp.exact, hfloor] at hqe hme
  have hq' : q = -3074457345618258603 := Int64.toInt_inj.1 (hqe.trans (by decide))
  have hm' : m = 1 := Int64.toInt_inj.1 (hme.trans (by decide))
  exact ⟨hl, hr, hq' ▸ hq, hm' ▸ hm, hneg.2 (by decide)⟩

/-- The remainder of the least word by `-1` is zero, but refused. -/
theorem remainder_refused : ∃ e, parse "x % y" = .ok e ∧ e.eval (least (-1)) = .error .overflow ∧
    ArithOp.exact .rem Int64.minValue.toInt (-1 : Int64).toInt = 0 ∧ Fits 0 := by
  have hfloor : ⌊((Int64.minValue.toInt : ℚ) / ((-1 : Int64).toInt : ℚ))⌋ = 2 ^ 63 :=
    floor_eq (r := 0) (by decide) (by decide)
  refine ⟨.arith .rem (.name "x") (.name "y"), rfl, by decide +kernel, ?_, by decide⟩
  rw [ArithOp.exact, hfloor]
  decide

end Expr

end ColouredPetri
