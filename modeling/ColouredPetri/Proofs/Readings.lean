import Mathlib.Data.List.Basic
import Mathlib.Data.Nat.Basic
import Mathlib.Tactic.Common
import ColouredPetri.Text.Reader

namespace ColouredPetri

namespace Text.Reader

section Characters

variable {c : Char}

lemma toNat_lt_of_isAlphanum (h : c.isAlphanum = true) : c.toNat < 128 := by
  delta Char.isAlphanum Char.isAlpha Char.isUpper Char.isLower Char.isDigit at h
  simp only [Bool.or_eq_true, Bool.and_eq_true, decide_eq_true_eq, UInt32.le_iff_toNat_le,
    ge_iff_le] at h
  have : c.toNat = c.val.toNat := rfl
  have : 'Z'.val.toNat = 90 := rfl
  have : 'z'.val.toNat = 122 := rfl
  have : '9'.val.toNat = 57 := rfl
  omega

lemma forall_ascii {P : Char → Prop} (h : ∀ n : Fin 128, P (Char.ofNat n)) (hc : c.toNat < 128) :
    P c :=
  Char.ofNat_toNat c ▸ h ⟨c.toNat, hc⟩

end Characters

section Digits

variable {b n : Nat} {c : Char}

lemma digitValue_digitChar (hb : b ≤ 16) (hn : n < b) : digitValue b n.digitChar = some n := by
  have hall : ∀ b : Fin 17, ∀ n : Fin 16, n.val < b.val →
      digitValue b n.val.digitChar = some n.val := by decide
  exact hall ⟨b, Nat.lt_succ_of_le hb⟩ ⟨n, lt_of_lt_of_le hn hb⟩ hn

lemma number?_concat (ds : List Char) (c : Char) : number? b (ds ++ [c]) =
    (number? b ds).bind fun m => (digitValue b c).map (m * b + ·) := by
  rw [number?, List.foldlM_append, number?]
  refine congrArg (Option.bind _) (funext fun m => ?_)
  rw [List.foldlM_cons]
  exact bind_pure _

lemma number?_toDigits (hb : 1 < b) (hb' : b ≤ 16) (n : Nat) :
    number? b (Nat.toDigits b n) = some n := by
  induction n using Nat.strong_induction_on with
  | h n ih =>
    by_cases hlt : n < b
    · rw [Nat.toDigits_of_lt_base hlt, ← List.nil_append [_], number?_concat,
        digitValue_digitChar hb' hlt]
      simp [number?]
    · have hle : b ≤ n := Nat.le_of_not_lt hlt
      rw [Nat.toDigits_of_base_le hb hle, number?_concat,
        ih (n / b) (Nat.div_lt_self (by omega) hb), digitValue_digitChar hb' (Nat.mod_lt n (by omega)),
        Option.bind_some, Option.map_some, Nat.div_add_mod']

lemma isDigit_of_mem_toDigits (h : c ∈ Nat.toDigits 10 n) : c.isDigit = true :=
  Nat.isDigit_of_mem_toDigits (by decide) (by decide) h

lemma head?_toDigits (hn : 0 < n) : (Nat.toDigits 10 n).head? ≠ some '0' := by
  induction n using Nat.strong_induction_on with
  | h n ih =>
    by_cases hlt : n < 10
    · have hdigits : ∀ m : Fin 10, 0 < m.val → [m.val.digitChar].head? ≠ some '0' := by decide
      rw [Nat.toDigits_of_lt_base hlt]
      exact hdigits ⟨n, hlt⟩ hn
    · have hten : 10 ≤ n := Nat.le_of_not_lt hlt
      have hrest := ih (n / 10) (Nat.div_lt_self hn (by decide)) (Nat.div_pos hten (by decide))
      obtain ⟨c, ds, hds⟩ := List.exists_cons_of_ne_nil (Nat.toDigits_ne_nil (n := n / 10) (b := 10))
      rw [hds] at hrest
      rwa [Nat.toDigits_of_base_le (by decide) hten, hds]

lemma toList_ofNat (n : Nat) : (toString (Int.ofNat n)).toList = Nat.toDigits 10 n :=
  Nat.toList_repr

lemma toList_negSucc (n : Nat) :
    (toString (Int.negSucc n)).toList = '-' :: Nat.toDigits 10 (n + 1) := by
  change ("-" ++ (n + 1).repr).toList = _
  rw [String.toList_append, Nat.toList_repr]
  rfl

lemma exists_head_int (n : Int) : ∃ c t, (toString n).toList = c :: t ∧
    (c = '-' ∨ c.isDigit = true) := by
  cases n with
  | ofNat n =>
    obtain ⟨c, ds, hds⟩ := List.exists_cons_of_ne_nil (Nat.toDigits_ne_nil (n := n) (b := 10))
    exact ⟨c, ds, (toList_ofNat n).trans hds,
      .inr (isDigit_of_mem_toDigits (hds ▸ List.mem_cons_self))⟩
  | negSucc n => exact ⟨'-', _, toList_negSucc n, .inl rfl⟩

lemma ne_of_head {d : Char} (hc : c = '-' ∨ c.isDigit = true) (hminus : d ≠ '-')
    (hdigit : d.isDigit = false) : c ≠ d := by
  rintro rfl
  rcases hc with rfl | hc
  · exact hminus rfl
  · rw [hc] at hdigit
    cases hdigit

end Digits

section Sequences

variable {α β : Type} {p : Reader α} {f : β → List Char} {g : β → α} {P : List Char → Prop}
  {l : List β} {r s w : List Char}

lemma manyUpTo_flatMap (hr : P r) (hnone : p r = none) (hf : ∀ b s, P (f b ++ s))
    (hl : ∀ b ∈ l, ∀ s, P s → p (f b ++ s) = some (g b, s)) {n : Nat} (hn : l.length ≤ n) :
    manyUpTo p n (l.flatMap f ++ r) = (l.map g, r) := by
  induction l generalizing n with
  | nil =>
    cases n with
    | zero => rfl
    | succ n =>
      rw [List.flatMap_nil, List.nil_append, manyUpTo, hnone]
      rfl
  | cons b l ih =>
    obtain ⟨hb, hl⟩ := List.forall_mem_cons.1 hl
    obtain ⟨n, rfl⟩ := Nat.exists_eq_succ_of_ne_zero (Nat.ne_zero_of_lt hn)
    have hrest : P (l.flatMap f ++ r) := by
      cases l with
      | nil => exact hr
      | cons c l =>
        rw [List.flatMap_cons, List.append_assoc]
        exact hf c _
    rw [List.flatMap_cons, List.append_assoc, manyUpTo, hb _ hrest]
    simp only [ih hl (Nat.le_of_succ_le_succ hn), List.map_cons]

lemma many_flatMap (hr : P r) (hnone : p r = none) (hf : ∀ b s, P (f b ++ s)) (hne : ∀ b, f b ≠ [])
    (hl : ∀ b ∈ l, ∀ s, P s → p (f b ++ s) = some (g b, s)) :
    many p (l.flatMap f ++ r) = (l.map g, r) := by
  refine manyUpTo_flatMap hr hnone hf hl ?_
  have hlength : l.length ≤ (l.flatMap f).length := by
    clear hl
    induction l with
    | nil => exact Nat.le_refl 0
    | cons b l ih =>
      rw [List.flatMap_cons, List.length_append, List.length_cons, Nat.add_comm]
      exact Nat.add_le_add (List.length_pos_iff.2 (hne b)) ih
  rw [List.length_append]
  exact Nat.le_add_right_of_le hlength

lemma word_append (w s : List Char) (a : α) : word w a (w ++ s) = some (a, s) := by
  rw [word, if_pos (List.isPrefixOf_iff_prefix.2 (List.prefix_append w s)), List.drop_left]

lemma word_of_ne {c d : Char} (h : c ≠ d) (a : α) : word (c :: w) a (d :: s) = none := by
  rw [word, List.isPrefixOf_cons_cons, beq_false_of_ne h, Bool.false_and]
  rfl

lemma intercalate_cons (sep t : List Char) (ts : List (List Char)) :
    sep.intercalate (t :: ts) = t ++ ts.flatMap (sep ++ ·) := by
  induction ts generalizing t with
  | nil => simp
  | cons u ts ih => rw [List.intercalate_cons_cons, ih, List.flatMap_cons, List.append_assoc]; simp

end Sequences

end Text.Reader

end ColouredPetri
