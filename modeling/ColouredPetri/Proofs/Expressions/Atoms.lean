import ColouredPetri.Proofs.Expressions.Printing
import ColouredPetri.Proofs.Expressions.Writable
import ColouredPetri.Proofs.Readings

namespace ColouredPetri

namespace Parser

open Lexer Text Text.Reader Expr

variable {s r t T : List Char} {n : Nat} {e : Expr} {inner : Reader Expr} {y : Style}

def Ends (r : List Char) : Prop := ∀ c ∈ r.head?, c = ' ' ∨ c = ',' ∨ c = ')'

lemma breaks_of_ends (h : Ends r) : Breaks continuesWord r := fun c hc => by
  rcases h c hc with rfl | rfl | rfl <;> rfl

lemma literal_of_token {k : TokenKind} (h : token? k s = some (t, r))
    (hne : k = .name → keywords.contains (String.ofList t) = false) :
    literal s = orElse integer string s := by
  have hkeyword : ∀ {w : String} {e : Expr}, w ∈ keywords → keyword w e s = none := by
    intro w e hw
    refine keyword_none (isIdentifier_of_mem_keywords hw) h ?_
    rintro rfl rfl
    have hk := hne rfl
    rw [String.ofList_toList, List.contains_iff_mem.2 hw] at hk
    cases hk
  simp only [literal, truth, orElse, hkeyword (w := "True") (by decide),
    hkeyword (w := "true") (by decide), hkeyword (w := "False") (by decide),
    hkeyword (w := "false") (by decide), hkeyword (w := "dot") (by decide)]

lemma chars_int {m : Int64} (h : 0 ≤ m.toInt) :
    Expr.chars y (.lit (.int m)) = Nat.toDigits 10 m.toInt.toNat := by
  obtain ⟨k, hk⟩ := Int.eq_ofNat_of_zero_le h
  rw [Expr.chars, Value.text, hk]
  · exact Nat.toList_repr
  · nofun

lemma integerOf?_toDigits {m : Int64} (h : 0 ≤ m.toInt) :
    integerOf? (Nat.toDigits 10 m.toInt.toNat) = some (.lit (.int m)) := by
  have hm : (m.toInt.toNat : Int) = m.toInt := Int.toNat_of_nonneg h
  have hlt : m.toInt.toNat < 2 ^ 63 := by
    have := Int64.toInt_le m
    rw [Int64.toInt_maxValue] at this
    omega
  have hof : Int64.ofNat m.toInt.toNat = m :=
    Int64.toInt_inj.1 ((Int64.toInt_ofNat_of_lt hlt).trans hm)
  rw [integerOf?, number?_toDigits (by decide) (by decide), Option.bind_some,
    if_pos (hm ▸ Int64.toInt_le m), hof]

lemma atom_of_literal (hT : Solid T) (h : literal (T ++ r) = some (e, r)) :
    atom inner (T ++ r) = some (e, skipBlanks r) := by
  rw [atom, around, hT.skipBlanks, orElse, h]

lemma token?_word (ht : isIdentifier t = true) (hr : Ends r) :
    token? .name (t ++ r) = some (t, r) :=
  identifier?_eq_some_iff.2
    ⟨rfl, ht, (breaks_of_ends hr).of_imp fun _ => continuesWord_of_isNameChar⟩

lemma token?_int {m : Int64} (h : 0 ≤ m.toInt) (hr : Ends r) :
    token? .number (Expr.chars y (.lit (.int m)) ++ r) =
      some (Expr.chars y (.lit (.int m)), r) := by
  rw [chars_int h]
  refine digits?_eq_some_iff.2 ⟨rfl, Nat.toDigits_ne_nil,
    fun c hc => isDigit_of_mem_toDigits hc, ?_⟩
  refine (breaks_of_ends hr).of_imp fun c hc => continuesWord_of_isNameChar ?_
  simp [isNameChar, Char.isAlphanum, hc]

lemma atom_int {m : Int64} (h : 0 ≤ m.toInt) (hr : Ends r) :
    atom inner (Expr.chars y (.lit (.int m)) ++ r) = some (.lit (.int m), skipBlanks r) := by
  have ht := token?_int (y := y) h hr
  refine atom_of_literal (solid_of_token? ht) ?_
  rw [literal_of_token ht nofun, orElse, tokenReader_integer.eq ht, chars_int h,
    integerOf?_toDigits h]
  rfl

lemma quote_eq {t : List Char} (h : '\'' ∉ t ∨ '"' ∉ t) :
    isQuote (y.quote t) = true ∧ y.quote t ∉ t := by
  rw [Style.quote]
  split
  · split
    · next hc =>
      have hc := List.contains_iff_mem.1 hc
      exact ⟨rfl, h.resolve_right fun h => h hc⟩
    · next hc => exact ⟨rfl, fun h => hc (List.contains_iff_mem.2 h)⟩
  · split
    · next hc =>
      have hc := List.contains_iff_mem.1 hc
      exact ⟨rfl, h.resolve_left fun h => h hc⟩
    · next hc => exact ⟨rfl, fun h => hc (List.contains_iff_mem.2 h)⟩

lemma token?_str {v : String} (h : '\'' ∉ v.toList ∨ '"' ∉ v.toList) :
    token? .text (Expr.chars y (.lit (.str v)) ++ r) =
      some (Expr.chars y (.lit (.str v)), r) := by
  obtain ⟨hq, hm⟩ := quote_eq (y := y) h
  have hu : quoted? (Expr.chars y (.lit (.str v)) ++ r) = some (v.toList, r) :=
    quoted?_eq_some_iff.2 ⟨_, hq, hm, by simp [Expr.chars]⟩
  rw [token?, hu]
  simp [Expr.chars]

lemma atom_str {v : String} (h : '\'' ∉ v.toList ∨ '"' ∉ v.toList) :
    atom inner (Expr.chars y (.lit (.str v)) ++ r) = some (.lit (.str v), skipBlanks r) := by
  have ht := token?_str (y := y) (r := r) h
  refine atom_of_literal (solid_of_token? ht) ?_
  have hname : TokenKind.text ≠ .name := by decide
  have hnumber : TokenKind.number ≠ .text := by decide
  rw [literal_of_token ht fun h => absurd h hname, orElse, tokenReader_integer.eq_none ht hnumber,
    tokenReader_string.eq ht]
  simp [Expr.chars]

lemma atom_name {v : String} (h : isIdentifier v.toList = true)
    (hk : keywords.contains v = false) (hr : Ends r) :
    atom inner (Expr.chars y (.name v) ++ r) = some (.name v, skipBlanks r) := by
  have ht : token? .name (v.toList ++ r) = some (v.toList, r) := token?_word h hr
  have hk' : keywords.contains (String.ofList v.toList) = false := by rw [String.ofList_toList, hk]
  have hliteral : literal (v.toList ++ r) = none := by
    have hnumber : TokenKind.number ≠ .name := by decide
    have htext : TokenKind.text ≠ .name := by decide
    rw [literal_of_token ht fun _ => hk', orElse, tokenReader_integer.eq_none ht hnumber,
      tokenReader_string.eq_none ht htext]
  rw [Expr.chars, atom, around, (solid_of_token? ht).skipBlanks, orElse, hliteral, orElse,
    tokenReader_name.eq ht, if_neg (Bool.eq_false_iff.1 hk'), String.ofList_toList]
  rfl

lemma keyword_word {α : Type} {a : α} {w w' : String} (hw : w ∈ keywords) (hw' : w' ∈ keywords)
    (hr : Ends r) : keyword w' a (w.toList ++ r) = if w' = w then some (a, r) else none := by
  split
  · next h =>
    subst h
    exact keyword_eq_some_iff.2 ⟨rfl, breaks_of_ends hr, rfl⟩
  · next h =>
    exact keyword_none (isIdentifier_of_mem_keywords hw')
      (token?_word (isIdentifier_of_mem_keywords hw) hr) fun _ ht => h (String.toList_inj.1 ht).symm

lemma atom_word {w : String} {v : Value}
    (hw : (w, v) ∈ [("True", .bool true), ("False", .bool false), ("dot", .dot)]) (hr : Ends r) :
    atom inner (w.toList ++ r) = some (.lit v, skipBlanks r) := by
  have hk : w ∈ keywords := by
    simp only [List.mem_cons, Prod.mk.injEq, List.not_mem_nil, or_false] at hw
    rcases hw with ⟨rfl, -⟩ | ⟨rfl, -⟩ | ⟨rfl, -⟩ <;> decide
  have hword : ∀ (w' : String) {e : Expr}, w' ∈ keywords →
      keyword w' e (w.toList ++ r) = if w' = w then some (e, r) else none :=
    fun _ _ hw' => keyword_word hk hw' hr
  refine atom_of_literal (solid_of_token? (token?_word (isIdentifier_of_mem_keywords hk) hr)) ?_
  simp only [literal, truth, orElse, hword "True" (by decide), hword "true" (by decide),
    hword "False" (by decide), hword "false" (by decide), hword "dot" (by decide)]
  simp only [List.mem_cons, Prod.mk.injEq, List.not_mem_nil, or_false] at hw
  rcases hw with ⟨rfl, rfl⟩ | ⟨rfl, rfl⟩ | ⟨rfl, rfl⟩ <;> rfl

end Parser

end ColouredPetri
