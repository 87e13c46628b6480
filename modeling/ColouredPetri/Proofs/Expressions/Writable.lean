import ColouredPetri.Proofs.Expressions.Readers

namespace ColouredPetri

namespace Expr

/-- Nothing is an escape, so that one of the two quotes must be free for a string. -/
inductive Writable : Expr → Prop
  | int {n : Int64} (h : 0 ≤ n.toInt) : Writable (.lit (.int n))
  | bool (b : Bool) : Writable (.lit (.bool b))
  | dot : Writable (.lit .dot)
  | str {s : String} (h : '\'' ∉ s.toList ∨ '"' ∉ s.toList) : Writable (.lit (.str s))
  | name {n : String} (h : Lexer.isIdentifier n.toList = true) (hk : keywords.contains n = false) :
      Writable (.name n)
  | tuple {items : List Expr} (h : ∀ e ∈ items, Writable e) : Writable (.tuple items)
  | neg {e : Expr} (h : Writable e) : Writable (.neg e)
  | arith {op : ArithOp} {l r : Expr} (hl : Writable l) (hr : Writable r) :
      Writable (.arith op l r)
  | compare {op : CompareOp} {l r : Expr} (hl : Writable l) (hr : Writable r) :
      Writable (.compare op l r)
  | and {l r : Expr} (hl : Writable l) (hr : Writable r) : Writable (.and l r)
  | or {l r : Expr} (hl : Writable l) (hr : Writable r) : Writable (.or l r)
  | not {e : Expr} (h : Writable e) : Writable (.not e)

end Expr

namespace Parser

open Lexer Text Text.Reader Expr

variable {s r : List Char} {n : Nat} {inner : Reader Expr}

lemma writable_integerOf? {ds : List Char} {e : Expr} (h : integerOf? ds = some e) :
    e.Writable := by
  obtain ⟨n, -, h⟩ := Option.bind_eq_some_iff.1 h
  split at h
  · next hn =>
    cases h
    refine .int ?_
    rw [Int64.toInt_ofNat_of_lt]
    · exact Int.natCast_nonneg n
    · rw [Int64.toInt_maxValue] at hn
      omega
  · cases h

lemma reads_integer : Reads integer Writable :=
  reads_token tokenReader_integer fun _ => writable_integerOf?

lemma reads_string : Reads string Writable := by
  refine reads_token tokenReader_string fun ht he => ?_
  obtain ⟨⟨u, v⟩, hu, hx⟩ := Option.map_eq_some_iff.1 ht
  obtain ⟨q, hq, hm, rfl⟩ := quoted?_eq_some_iff.1 hu
  cases hx
  cases he
  refine .str ?_
  simp only [isQuote, Bool.or_eq_true, beq_iff_eq] at hq
  rcases hq with rfl | rfl
  · exact .inl (by simpa using hm)
  · exact .inr (by simpa using hm)

lemma reads_name : Reads name Writable := by
  refine reads_token tokenReader_name fun ht he => ?_
  split at he
  · cases he
  · next hk =>
    cases he
    exact .name (by simpa using (identifier?_eq_some_iff.1 ht).2.1) (Bool.eq_false_iff.2 hk)

lemma reads_literal : Reads literal Writable :=
  reads_orElse
      (reads_orElse (reads_keyword (by decide) (.bool true)) (reads_keyword (by decide) (.bool true)))
    <| reads_orElse
      (reads_orElse (reads_keyword (by decide) (.bool false))
        (reads_keyword (by decide) (.bool false)))
    <| reads_orElse (reads_keyword (by decide) .dot) <| reads_orElse reads_integer reads_string

lemma reads_atom (hinner : Reads inner Writable) : Reads (atom inner) Writable :=
  reads_around <| reads_orElse reads_literal <| reads_orElse reads_name <|
    reads_parenthesised hinner fun _ => .tuple

lemma reads_unary (hinner : Reads inner Writable) : Reads (unary inner) Writable :=
  fun _ _ _ h => reads_signed reads_minus (reads_atom hinner) (fun _ => .neg) h

lemma reads_product (hinner : Reads inner Writable) : Reads (product inner) Writable :=
  reads_leftChain reads_productOp (reads_unary hinner) fun _ _ _ => .arith

lemma reads_sum (hinner : Reads inner Writable) : Reads (sum inner) Writable :=
  reads_leftChain reads_sumOp (reads_product hinner) fun _ _ _ => .arith

lemma reads_comparison (hinner : Reads inner Writable) : Reads (comparison inner) Writable := by
  intro s e r h
  rw [comparison] at h
  split at h
  · cases h
  · next hs =>
    obtain ⟨he, heats⟩ := reads_sum hinner hs
    split at h
    · next hb =>
      cases h
      obtain ⟨hc, heats'⟩ := reads_both (R := Writable) (reads_around reads_compareOp)
        (reads_sum hinner) (fun _ _ _ hr => .compare he hr) hb
      exact ⟨hc, heats.trans heats'⟩
    · cases h
      exact ⟨he, heats⟩

lemma reads_negation (hinner : Reads inner Writable) : Reads (negation inner) Writable :=
  fun _ _ _ h => reads_signed reads_not (reads_comparison hinner) (fun _ => .not) h

lemma reads_conjunction (hinner : Reads inner Writable) : Reads (conjunction inner) Writable :=
  reads_leftChain reads_and (reads_negation hinner) fun _ _ _ => .and

lemma reads_disjunction (hinner : Reads inner Writable) : Reads (disjunction inner) Writable :=
  reads_leftChain reads_or (reads_conjunction hinner) fun _ _ _ => .or

lemma reads_nested : Reads (nested n) Writable := by
  -- induction on the depth of the parentheses
  induction n with
  | zero => exact nofun
  | succ n ih => exact fun _ _ _ h => reads_disjunction ih h

end Parser

end ColouredPetri
