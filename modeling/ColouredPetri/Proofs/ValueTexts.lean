import ColouredPetri.Expr.Eval
import ColouredPetri.Proofs.ExpressionGrammar

/-! The texts of values as expressions. A value is printed like the expression that writes it down,
with a sign before the literal of a negative word, so that it is read back where the word without the
sign is a literal. -/

namespace ColouredPetri

namespace Value

mutual

def parts : Value → List Value
  | tuple items => tuple items :: partsAll items
  | a => [a]

def partsAll : List Value → List Value
  | [] => []
  | a :: l => parts a ++ partsAll l

end

structure Plain (v : Value) : Prop where
  noBag : ∀ counts, bag counts ∉ v.parts
  noQuote : ∀ s, str s ∈ v.parts → '\'' ∉ s.toList
  noLeast : int Int64.minValue ∉ v.parts

variable {v : Value} {items l : List Value}

lemma mem_parts_self (v : Value) : v ∈ v.parts := by
  cases v <;> exact List.mem_cons_self

lemma mem_partsAll {u : Value} : u ∈ partsAll l ↔ ∃ a ∈ l, u ∈ a.parts := by
  induction l with
  | nil => simp [partsAll]
  | cons a l ih => simp [partsAll, ih]

lemma Plain.item (h : (tuple items).Plain) (hv : v ∈ items) : v.Plain := by
  have hparts : ∀ u ∈ v.parts, u ∈ (tuple items).parts := fun u hu =>
    List.mem_cons_of_mem _ (mem_partsAll.2 ⟨v, hv, hu⟩)
  exact ⟨fun c hc => h.noBag c (hparts _ hc), fun s hs => h.noQuote s (hparts _ hs),
    fun hl => h.noLeast (hparts _ hl)⟩

end Value

namespace Expr

open Text.Reader

mutual

def ofValue : Value → Expr
  | .int n => if n.toInt < 0 then .neg (.lit (.int (-n))) else .lit (.int n)
  | .tuple items => .tuple (ofValues items)
  | v => .lit v

def ofValues : List Value → List Expr
  | [] => []
  | v :: l => ofValue v :: ofValues l

end

variable {y : Style} {n : Int64} {v : Value} {s : Scope}

section Signs

variable (hmin : n ≠ Int64.minValue)
include hmin

lemma toInt_neg : (-n).toInt = -n.toInt := by
  have hlow := n.le_toInt
  have hne : n.toInt ≠ -2 ^ 63 := fun h =>
    hmin (Int64.toInt_inj.1 (h.trans Int64.toInt_minValue.symm))
  have hhigh := n.toInt_lt
  rw [Int64.toInt_neg, Int.bmod_eq_of_le] <;> omega

lemma neg_nonneg_of_neg (hn : n.toInt < 0) : 0 ≤ (-n).toInt := by
  rw [toInt_neg hmin]
  omega

lemma chars_signed (hn : n.toInt < 0) :
    (neg (.lit (.int (-n)))).chars y = (toString n.toInt).toList := by
  obtain ⟨k, hk⟩ := Int.eq_negSucc_of_lt_zero hn
  have hT : (neg (.lit (.int (-n)))).chars y = '-' :: (lit (.int (-n))).chars y := rfl
  have habs : (-n).toInt.toNat = k + 1 := by
    rw [toInt_neg hmin, hk]
    rfl
  rw [hT, Parser.chars_int (neg_nonneg_of_neg hmin hn), habs, hk, toList_negSucc]

lemma eval_signed : (neg (.lit (.int (-n)))).eval s = .ok (.int n) := by
  have hword : Word.neg (-n) = .ok n := by
    have hneg : -(-n).toInt = n.toInt := by rw [toInt_neg hmin, Int.neg_neg]
    obtain ⟨c, hc, he⟩ := Word.neg_of_fits (hneg ▸ Word.fits_toInt n)
    rw [hc, Int64.toInt_inj.1 (he.trans hneg)]
  rw [eval, eval]
  simp only [Value.negate, hword]

end Signs

mutual

lemma writable_ofValue : ∀ {v : Value}, v.Plain → (ofValue v).Writable
  | .dot, _ => .dot
  | .bool b, _ => .bool b
  | .int n, h => by
    have hmin : n ≠ Int64.minValue := fun hn => h.noLeast (hn ▸ Value.mem_parts_self _)
    rw [ofValue]
    split
    · next hn => exact .neg (.int (neg_nonneg_of_neg hmin hn))
    · next hn => exact .int (Int.not_lt.1 hn)
  | .str s, h => .str (.inl (h.noQuote s (Value.mem_parts_self _)))
  | .tuple items, h => .tuple (writable_ofValues fun _ hv => h.item hv)
  | .bag counts, h => absurd (Value.mem_parts_self _) (h.noBag counts)

lemma writable_ofValues : ∀ {l : List Value}, (∀ v ∈ l, v.Plain) → ∀ e ∈ ofValues l, e.Writable
  | [], _, _, he => by cases he
  | v :: l, h, e, he => by
    obtain ⟨hv, hl⟩ := List.forall_mem_cons.1 h
    rcases List.mem_cons.1 he with rfl | he
    · exact writable_ofValue hv
    · exact writable_ofValues hl e he

end

mutual

lemma eval_ofValue : ∀ {v : Value}, v.Plain → (ofValue v).eval s = .ok v
  | .dot, _ => by rw [ofValue, eval] <;> nofun
  | .bool b, _ => by rw [ofValue, eval] <;> nofun
  | .int n, h => by
    have hmin : n ≠ Int64.minValue := fun hn => h.noLeast (hn ▸ Value.mem_parts_self _)
    rw [ofValue]
    split
    · exact eval_signed hmin
    · rw [eval]
  | .str t, h => by rw [ofValue, eval] <;> nofun
  | .tuple items, h => by
    rw [ofValue, eval, eval_ofValues fun _ hv => h.item hv]
  | .bag counts, h => absurd (Value.mem_parts_self _) (h.noBag counts)

lemma eval_ofValues : ∀ {l : List Value}, (∀ v ∈ l, v.Plain) → evalItems s (ofValues l) = .ok l
  | [], _ => by rw [ofValues, evalItems]
  | v :: l, h => by
    obtain ⟨hv, hl⟩ := List.forall_mem_cons.1 h
    rw [ofValues, evalItems, eval_ofValue hv, eval_ofValues hl]

end

def singleQuoted (doubleSlash : Bool) : Style := ⟨doubleSlash, false⟩

lemma chars_str {d : Bool} {t : String} (h : '\'' ∉ t.toList) :
    (lit (.str t)).chars (singleQuoted d) = (Value.str t).text.toList := by
  have hq : (singleQuoted d).quote t.toList = '\'' := by simp [singleQuoted, Style.quote, h]
  rw [chars, hq, Value.text]
  simp

mutual

lemma chars_ofValue (d : Bool) : ∀ {v : Value}, v.Plain →
    (ofValue v).chars (singleQuoted d) = v.text.toList
  | .dot, _ => rfl
  | .bool b, _ => rfl
  | .int n, h => by
    have hmin : n ≠ Int64.minValue := fun hn => h.noLeast (hn ▸ Value.mem_parts_self _)
    rw [ofValue]
    split
    · next hn => rw [chars_signed hmin hn, Value.text]
    · rfl
  | .str t, h => chars_str (h.noQuote t (Value.mem_parts_self _))
  | .tuple [], _ => rfl
  | .tuple [a], h => by
    rw [ofValue, ofValues, ofValues, chars, itemsChars,
      chars_ofValue d (h.item (List.mem_singleton_self a)), Value.text]
    simp
  | .tuple (a :: b :: l), h => by
    obtain ⟨ha, hl⟩ := List.forall_mem_cons.1 fun _ => h.item
    have htexts : (", ".intercalate (Value.texts (a :: b :: l))).toList =
        a.text.toList ++ ((Value.texts (b :: l)).map String.toList).flatMap ([',', ' '] ++ ·) := by
      rw [Value.texts, String.toList_intercalate, List.map_cons, intercalate_cons]
      rfl
    rw [Value.text, String.toList_append, String.toList_append, htexts, ← moreChars_ofValues d hl,
      ← chars_ofValue d ha]
    · rfl
    · nofun
  | .bag counts, h => absurd (Value.mem_parts_self _) (h.noBag counts)

lemma moreChars_ofValues (d : Bool) : ∀ {l : List Value}, (∀ v ∈ l, v.Plain) →
    moreChars (singleQuoted d) (ofValues l) =
      ((Value.texts l).map String.toList).flatMap ([',', ' '] ++ ·)
  | [], _ => rfl
  | v :: l, h => by
    obtain ⟨hv, hl⟩ := List.forall_mem_cons.1 h
    rw [ofValues, moreChars, chars_ofValue d hv, moreChars_ofValues d hl, Value.texts, List.map_cons,
      List.flatMap_cons]
    rfl

end

theorem text_evaluates (h : v.Plain) : ∃ e, parse v.text = .ok e ∧ ∀ s, e.eval s = .ok v := by
  refine ⟨ofValue v, ?_, fun s => eval_ofValue h⟩
  have hread := parse_of_writable (y := singleQuoted false) (writable_ofValue h)
  rwa [print, chars_ofValue false h, String.ofList_toList] at hread

def nestedValue : Value :=
  .tuple [.tuple [.int (-Int64.maxValue)], .tuple [], .str "a \"b\", c)", .tuple [.int Int64.maxValue,
    .tuple [.bool false, .dot]]]

example : nestedValue.text =
    "((-9223372036854775807,), (), 'a \"b\", c)', (9223372036854775807, (False, dot)))" := by
  decide +kernel

theorem text_evaluates_nested : nestedValue.Plain ∧
    ∃ e, parse nestedValue.text = .ok e ∧ ∀ s, e.eval s = .ok nestedValue := by
  have hplain : nestedValue.Plain := by
    refine ⟨fun counts hc => ?_, fun t ht => ?_, by decide⟩
    · simp [nestedValue, Value.parts, Value.partsAll] at hc
    · simp only [nestedValue, Value.parts, Value.partsAll, List.cons_append, List.nil_append,
        List.append_nil, List.mem_cons, Value.str.injEq, reduceCtorEq, false_or, or_false,
        List.not_mem_nil] at ht
      exact ht ▸ by decide
  exact ⟨hplain, text_evaluates hplain⟩

/-- The digits of the least word are no literal, with or without a sign in front. -/
theorem least_unreadable : (Value.int Int64.minValue).text = "-9223372036854775808" ∧
    parse (Value.int Int64.minValue).text = .error (.malformed "-9223372036854775808") :=
  ⟨by decide +kernel, by rfl⟩

end Expr

end ColouredPetri
