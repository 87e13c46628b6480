import Mathlib.Data.List.Basic
import Mathlib.Data.Nat.Basic
import Mathlib.Order.Basic
import ColouredPetri.Expr.Parser
import ColouredPetri.Proofs.Readings

namespace ColouredPetri

namespace Lexer

open Text.Reader

variable {s t r e : List Char} {c : Char} {p : Char → Bool} {k : TokenKind} {ps : List Piece}

def Breaks (p : Char → Bool) (r : List Char) : Prop := ∀ c ∈ r.head?, p c = false

lemma breaks_nil : Breaks p [] := nofun

lemma Breaks.of_imp {q : Char → Bool} (h : Breaks p r) (hqp : ∀ c, q c = true → p c = true) :
    Breaks q r := fun c hc => by
  cases hq : q c with
  | false => rfl
  | true => exact (hqp c hq).symm.trans (h c hc)

lemma breaks_dropWhile : Breaks p (s.dropWhile p) := by
  intro c hc
  cases hs : s.dropWhile p with
  | nil =>
    rw [hs] at hc
    cases hc
  | cons d l =>
    rw [hs] at hc
    cases hc
    exact head_dropWhile hs

lemma skipBlanks_skipBlanks : skipBlanks (skipBlanks s) = skipBlanks s := by
  cases hs : skipBlanks s with
  | nil => rfl
  | cons c r => rw [skipBlanks, List.dropWhile_cons_of_neg (by rw [head_dropWhile hs]; nofun)]

lemma takeWhile_append (ht : ∀ c ∈ t, p c = true) (hr : Breaks p r) :
    (t ++ r).takeWhile p = t := by
  rw [List.takeWhile_append_of_pos ht]
  cases r with
  | nil => rw [List.takeWhile_nil, List.append_nil]
  | cons c r => rw [List.takeWhile_cons_of_neg (by rw [hr c rfl]; nofun), List.append_nil]

lemma dropWhile_append (ht : ∀ c ∈ t, p c = true) (hr : Breaks p r) :
    (t ++ r).dropWhile p = r := by
  rw [List.dropWhile_append_of_pos ht]
  cases r with
  | nil => rfl
  | cons c r => rw [List.dropWhile_cons_of_neg (by rw [hr c rfl]; nofun)]

lemma toNat_lt_of_isNameChar (h : isNameChar c = true) : c.toNat < 128 := by
  rw [isNameChar, Bool.or_eq_true, beq_iff_eq] at h
  rcases h with h | rfl
  · exact toNat_lt_of_isAlphanum h
  · decide

lemma isNameChar_of_isNameStart (h : isNameStart c = true) : isNameChar c = true := by
  simp only [isNameStart, isNameChar, Char.isAlphanum, Bool.or_eq_true] at h ⊢
  exact h.imp_left Or.inl

lemma continuesWord_of_isNameChar (h : isNameChar c = true) : Parser.continuesWord c = true :=
  forall_ascii (P := fun c => isNameChar c = true → Parser.continuesWord c = true) (by decide)
    (toNat_lt_of_isNameChar h) h

lemma toNat_lt_of_isDigit (h : c.isDigit = true) : c.toNat < 128 :=
  toNat_lt_of_isAlphanum (by rw [Char.isAlphanum, h, Bool.or_true])

def startsSymbol (c : Char) : Bool := isSymbolChar c || c == '=' || c == '!'

def startKind? (c : Char) : Option TokenKind :=
  if isNameStart c then some .name
  else if c.isDigit then some .number
  else if isQuote c then some .text
  else if startsSymbol c then some .symbol
  else none

lemma startKind?_of_isDigit (h : c.isDigit = true) : startKind? c = some .number :=
  forall_ascii (P := fun c => c.isDigit = true → startKind? c = some .number) (by decide)
    (toNat_lt_of_isDigit h) h

lemma startKind?_of_isQuote (h : isQuote c = true) : startKind? c = some .text := by
  simp only [isQuote, Bool.or_eq_true, beq_iff_eq] at h
  rcases h with rfl | rfl <;> rfl

lemma startKind?_of_startsSymbol (h : startsSymbol c = true) : startKind? c = some .symbol := by
  simp only [startsSymbol, isSymbolChar, Bool.or_eq_true, beq_iff_eq, List.contains_iff_mem] at h
  rcases h with (h | rfl) | rfl
  · have hall : "+-*/%<>(),".toList.all (startKind? · == some .symbol) = true := by decide
    exact eq_of_beq (List.all_eq_true.1 hall c h)
  · rfl
  · rfl

lemma startsSymbol_of_pair {d : Char} (h : pairSymbols.contains [c, d] = true) :
    startsSymbol c = true := by
  simp only [pairSymbols, List.contains_iff_mem, List.mem_cons, List.cons.injEq, List.not_mem_nil,
    or_false] at h
  rcases h with ⟨rfl, -⟩ | ⟨rfl, -⟩ | ⟨rfl, -⟩ | ⟨rfl, -⟩ | ⟨rfl, -⟩ <;> rfl

def token? : TokenKind → List Char → Option (List Char × List Char)
  | .name, s => identifier? s
  | .number, s => digits? s
  | .text, s => (quoted? s).map fun x => (s.take 1 ++ x.1 ++ s.take 1, x.2)
  | .symbol, s => symbol? s

lemma startKind?_of_symbol? (h : symbol? (c :: s) = some (t, r)) :
    startKind? c = some .symbol := by
  have hc : ∀ {c}, isSymbolChar c = true → startKind? c = some .symbol := fun hc =>
    startKind?_of_startsSymbol (by rw [startsSymbol, hc]; rfl)
  cases s with
  | nil =>
    rw [symbol?] at h
    split at h
    · next h' => exact hc h'
    · cases h
  | cons d s =>
    rw [symbol?] at h
    split at h
    · next h' => exact startKind?_of_startsSymbol (startsSymbol_of_pair h')
    · split at h
      · next h' => exact hc h'
      · cases h

lemma startKind?_of_token? (h : token? k (c :: s) = some (t, r)) : startKind? c = some k := by
  cases k with
  | name =>
    rw [token?, identifier?] at h
    split at h
    · next hc => exact if_pos hc
    · cases h
  | number =>
    rw [token?, digits?] at h
    split at h
    · next hc => exact startKind?_of_isDigit hc
    · cases h
  | text =>
    rw [token?, quoted?] at h
    split at h
    · next hc => exact startKind?_of_isQuote hc
    · cases h
  | symbol => exact startKind?_of_symbol? h

lemma token?_eq_none (h : startKind? c ≠ some k) : token? k (c :: s) = none := by
  cases hs : token? k (c :: s) with
  | none => rfl
  | some x => exact absurd (startKind?_of_token? hs) h

lemma token?_nil : token? k [] = none := by cases k <;> rfl

lemma identifier?_eq_none (h : startKind? c ≠ some .name) : identifier? (c :: s) = none :=
  token?_eq_none (k := .name) h

lemma digits?_eq_none (h : startKind? c ≠ some .number) : digits? (c :: s) = none :=
  token?_eq_none (k := .number) h

lemma quoted?_eq_none (h : startKind? c ≠ some .text) : quoted? (c :: s) = none :=
  Option.map_eq_none_iff.1 (token?_eq_none (k := .text) h)

lemma lexeme_eq_some_iff : lexeme s = some (k, t, r) ↔ token? k s = some (t, r) := by
  constructor
  · intro h
    unfold lexeme at h
    split at h
    · next hs =>
      cases h
      exact hs
    · split at h
      · next hs =>
        cases h
        exact hs
      · split at h
        · next hs =>
          cases h
          rw [token?, hs]
          rfl
        · split at h
          · next hs =>
            cases h
            exact hs
          · cases h
  · intro h
    cases s with
    | nil =>
      rw [token?_nil] at h
      cases h
    | cons c s =>
      have hk := startKind?_of_token? h
      cases k with
      | name => rw [lexeme, show identifier? (c :: s) = some (t, r) from h]
      | number =>
        rw [lexeme, identifier?_eq_none (by rw [hk]; nofun),
          show digits? (c :: s) = some (t, r) from h]
      | text =>
        obtain ⟨x, hx, hxt⟩ := Option.map_eq_some_iff.1 h
        cases hxt
        rw [lexeme, identifier?_eq_none (by rw [hk]; nofun), digits?_eq_none (by rw [hk]; nofun), hx]
      | symbol =>
        rw [lexeme, identifier?_eq_none (by rw [hk]; nofun), digits?_eq_none (by rw [hk]; nofun),
          quoted?_eq_none (by rw [hk]; nofun), show symbol? (c :: s) = some (t, r) from h]

lemma token?_of_ne {k' : TokenKind} (h : token? k s = some (t, r)) (hk : k' ≠ k) :
    token? k' s = none := by
  cases hs : token? k' s with
  | none => rfl
  | some x =>
    have hx := lexeme_eq_some_iff.2 hs
    rw [lexeme_eq_some_iff.2 h] at hx
    cases hx
    exact absurd rfl hk

lemma token?_append (h : token? k s = some (t, r)) : t ≠ [] ∧ t ++ r = s :=
  lexeme_append (lexeme_eq_some_iff.2 h)

lemma head?_token (h : token? k (c :: s) = some (t, r)) : ∃ t', t = c :: t' := by
  obtain ⟨hne, hs⟩ := token?_append h
  cases t with
  | nil => exact absurd rfl hne
  | cons d t' =>
    cases hs
    exact ⟨t', rfl⟩

def isIdentifier : List Char → Bool
  | [] => false
  | c :: l => isNameStart c && l.all isNameChar

lemma isIdentifier_of_mem_keywords {w : String} (hw : w ∈ keywords) :
    isIdentifier w.toList = true :=
  (by decide : ∀ w ∈ keywords, isIdentifier w.toList = true) w hw

lemma identifier?_eq_some_iff : identifier? s = some (t, r) ↔
    s = t ++ r ∧ isIdentifier t = true ∧ Breaks isNameChar r := by
  constructor
  · intro h
    refine ⟨(Lexer.identifier?_append h).2.symm, ?_⟩
    cases s with
    | nil => cases h
    | cons c s =>
      rw [identifier?] at h
      split at h
      · next hc =>
        cases h
        exact ⟨Bool.and_eq_true_iff.2 ⟨hc, List.all_takeWhile⟩, breaks_dropWhile⟩
      · cases h
  · rintro ⟨rfl, ht, hr⟩
    cases t with
    | nil => cases ht
    | cons c l =>
      obtain ⟨hc, hl⟩ := Bool.and_eq_true_iff.1 ht
      have hl := List.all_eq_true.1 hl
      rw [List.cons_append, identifier?, if_pos hc, takeWhile_append hl hr, dropWhile_append hl hr]

lemma digits?_eq_some_iff : digits? s = some (t, r) ↔
    s = t ++ r ∧ t ≠ [] ∧ (∀ c ∈ t, c.isDigit = true) ∧ Breaks Char.isDigit r := by
  constructor
  · intro h
    obtain ⟨hne, hs⟩ := digits?_append h
    refine ⟨hs.symm, hne, ?_⟩
    cases s with
    | nil => cases h
    | cons c s =>
      rw [digits?] at h
      split at h
      · next hc =>
        cases h
        exact ⟨List.forall_mem_cons.2 ⟨hc, List.all_eq_true.1 List.all_takeWhile⟩, breaks_dropWhile⟩
      · cases h
  · rintro ⟨rfl, hne, ht, hr⟩
    cases t with
    | nil => exact absurd rfl hne
    | cons c l =>
      obtain ⟨hc, hl⟩ := List.forall_mem_cons.1 ht
      rw [List.cons_append, digits?, if_pos hc, takeWhile_append hl hr, dropWhile_append hl hr]

lemma quoted?_eq_some_iff : quoted? s = some (t, r) ↔
    ∃ q, isQuote q = true ∧ q ∉ t ∧ s = q :: (t ++ q :: r) := by
  constructor
  · intro h
    have hs := (quoted?_append h).2
    cases s with
    | nil => cases h
    | cons q s =>
      rw [quoted?] at h
      split at h
      · next hq =>
        split at h
        · cases h
        · cases h
          refine ⟨q, hq, fun hm => ?_, by simpa using hs.symm⟩
          exact absurd (List.all_eq_true.1 List.all_takeWhile q hm) (by simp)
      · cases h
  · rintro ⟨q, hq, ht, rfl⟩
    have ht' : ∀ d ∈ t, (d != q) = true := fun d hd => bne_iff_ne.2 fun h => ht (h ▸ hd)
    have hr : Breaks (· != q) (q :: r) := fun d hd => by
      cases hd
      exact bne_self_eq_false q
    rw [quoted?, if_pos hq, dropWhile_append ht' hr, takeWhile_append ht' hr]

lemma symbol?_eq_some_iff : symbol? s = some (t, r) ↔
    s = t ++ r ∧ (pairSymbols.contains t = true ∨
      ∃ c, t = [c] ∧ isSymbolChar c = true ∧ Breaks (fun d => pairSymbols.contains [c, d]) r) := by
  constructor
  · intro h
    refine ⟨(symbol?_append h).2.symm, ?_⟩
    rcases s with _ | ⟨c, _ | ⟨d, s⟩⟩
    · cases h
    · rw [symbol?] at h
      split at h
      · next hc =>
        cases h
        exact .inr ⟨c, rfl, hc, breaks_nil⟩
      · cases h
    · rw [symbol?] at h
      split at h
      · next hp =>
        cases h
        exact .inl hp
      · next hp =>
        split at h
        · next hc =>
          cases h
          refine .inr ⟨c, rfl, hc, fun d' hd' => ?_⟩
          cases hd'
          exact Bool.eq_false_iff.2 hp
        · cases h
  · rintro ⟨rfl, hp | ⟨c, rfl, hc, hr⟩⟩
    · obtain ⟨c, d, rfl⟩ :=
        List.length_eq_two.1 ((by decide : ∀ w ∈ pairSymbols, w.length = 2) t
          (List.contains_iff_mem.1 hp))
      exact if_pos hp
    · cases r with
      | nil => exact if_pos hc
      | cons d r => exact (if_neg (Bool.eq_false_iff.1 (hr d rfl))).trans (if_pos hc)

def Solid (t : List Char) : Prop := ∃ c l, t = c :: l ∧ isSpace c = false

lemma Solid.skipBlanks (h : Solid t) : skipBlanks (t ++ r) = t ++ r := by
  obtain ⟨c, l, rfl, hc⟩ := h
  exact List.dropWhile_cons_of_neg (by rw [hc]; nofun)

lemma Solid.append (h : Solid t) : Solid (t ++ r) := by
  obtain ⟨c, l, rfl, hc⟩ := h
  exact ⟨c, l ++ r, rfl, hc⟩

lemma isSpace_of_startKind? (h : startKind? c = some k) :
    isSpace c = false := by
  cases hc : isSpace c with
  | false => rfl
  | true =>
    simp only [isSpace, Bool.or_eq_true, beq_iff_eq] at hc
    rcases hc with ((rfl | rfl) | rfl) | rfl <;> cases h

lemma solid_of_token? (h : token? k s = some (t, r)) : Solid t := by
  cases s with
  | nil =>
    rw [token?_nil] at h
    cases h
  | cons c s =>
    obtain ⟨t', rfl⟩ := head?_token h
    exact ⟨c, t', rfl, isSpace_of_startKind? (startKind?_of_token? h)⟩

lemma skipBlanks_of_token? (h : token? k s = some (t, r)) : skipBlanks s = s := by
  have hs := (solid_of_token? h).skipBlanks (r := r)
  rwa [(token?_append h).2] at hs

def symbols : List (List Char) := pairSymbols ++ "+-*/%<>(),".toList.map ([·])

lemma mem_symbols (h : symbol? s = some (t, r)) : t ∈ symbols := by
  obtain ⟨-, hp | ⟨c, rfl, hc, -⟩⟩ := symbol?_eq_some_iff.1 h
  · exact List.mem_append_left _ (List.contains_iff_mem.1 hp)
  · exact List.mem_append_right _ (List.mem_map_of_mem (List.contains_iff_mem.1 hc))

lemma pieces?_of_token? (h : token? k (skipBlanks s) = some (t, r)) :
    pieces? s = (pieces? r).map fun x => (⟨blanks s, k, t⟩ :: x.1, x.2) := by
  have hne : skipBlanks s ≠ [] := by
    intro hs
    rw [hs, token?_nil] at h
    cases h
  have hlex := lexeme_eq_some_iff.2 h
  rw [pieces?, if_neg hne]
  split
  · next hn =>
    rw [hn] at hlex
    cases hlex
  · next hl =>
    rw [hl] at hlex
    cases hlex
    cases pieces? r <;> rfl

lemma pieces?_eq_some (h : pieces? s = some (ps, e)) :
    (skipBlanks s = [] ∧ ps = [] ∧ e = s) ∨
      ∃ k t r qs, token? k (skipBlanks s) = some (t, r) ∧ ps = ⟨blanks s, k, t⟩ :: qs ∧
        pieces? r = some (qs, e) := by
  by_cases hs : skipBlanks s = []
  · rw [pieces?, if_pos hs] at h
    cases h
    exact .inl ⟨hs, rfl, rfl⟩
  · right
    cases hl : lexeme (skipBlanks s) with
    | none =>
      rw [pieces?, if_neg hs] at h
      split at h
      · cases h
      · next hl' =>
        rw [hl] at hl'
        cases hl'
    | some x =>
      obtain ⟨k, t, r⟩ := x
      have ht := lexeme_eq_some_iff.1 hl
      rw [pieces?_of_token? ht] at h
      obtain ⟨⟨qs, e'⟩, hr, h⟩ := Option.map_eq_some_iff.1 h
      cases h
      exact ⟨k, t, r, qs, ht, rfl, hr⟩

end Lexer

namespace Parser

open Lexer Text Text.Reader

variable {α : Type} {a b : α} {p q : Reader α} {s t r w : List Char} {k : TokenKind} {c : Char}

lemma word_eq_some_iff : word w a s = some (b, r) ↔ s = w ++ r ∧ b = a := by
  rw [word]
  constructor
  · intro h
    split at h
    · next hs =>
      cases h
      obtain ⟨t, rfl⟩ := List.isPrefixOf_iff_prefix.1 hs
      exact ⟨by rw [List.drop_left], rfl⟩
    · cases h
  · rintro ⟨rfl, rfl⟩
    rw [if_pos (List.isPrefixOf_iff_prefix.2 (List.prefix_append w r)), List.drop_left]

lemma keyword_eq_some_iff {w : String} :
    keyword w a s = some (b, r) ↔ s = w.toList ++ r ∧ Breaks continuesWord r ∧ b = a := by
  rw [keyword]
  constructor
  · intro h
    split at h
    · cases h
    · next hs =>
      cases h
      obtain ⟨rfl, rfl⟩ := word_eq_some_iff.1 hs
      exact ⟨rfl, nofun, rfl⟩
    · next hs =>
      split at h
      · cases h
      · next hc =>
        cases h
        obtain ⟨rfl, rfl⟩ := word_eq_some_iff.1 hs
        refine ⟨rfl, fun d hd => ?_, rfl⟩
        cases hd
        exact Bool.eq_false_iff.2 hc
  · rintro ⟨rfl, hr, rfl⟩
    rw [word_eq_some_iff.2 ⟨rfl, rfl⟩]
    cases r with
    | nil => rfl
    | cons c r => exact if_neg (Bool.eq_false_iff.1 (hr c rfl))

lemma keyword_identifier {w : String} (hw : isIdentifier w.toList = true)
    (h : keyword w a s = some (b, r)) : identifier? s = some (w.toList, r) := by
  obtain ⟨rfl, hr, -⟩ := keyword_eq_some_iff.1 h
  exact identifier?_eq_some_iff.2 ⟨rfl, hw, hr.of_imp fun _ => continuesWord_of_isNameChar⟩

lemma keyword_none {w : String}
    (hw : isIdentifier w.toList = true) (h : token? k s = some (t, r))
    (hne : k = .name → t ≠ w.toList) : keyword w a s = none := by
  cases hs : keyword w a s with
  | none => rfl
  | some x =>
    have hi : token? .name s = some (w.toList, x.2) := keyword_identifier hw hs
    have hk := lexeme_eq_some_iff.2 hi
    rw [lexeme_eq_some_iff.2 h] at hk
    cases hk
    exact absurd rfl (hne rfl)

def TokenReader (k : TokenKind) (p : Reader α) (g : List Char → Option α) : Prop :=
  ∀ s, p s = (token? k s).bind fun x => (g x.1).map fun a => (a, x.2)

lemma TokenReader.eq {g : List Char → Option α} (hp : TokenReader k p g)
    (h : token? k s = some (t, r)) : p s = (g t).map fun a => (a, r) := by
  rw [hp, h, Option.bind_some]

lemma TokenReader.eq_none {g : List Char → Option α} {k' : TokenKind} (hp : TokenReader k p g)
    (h : token? k' s = some (t, r)) (hk : k ≠ k') : p s = none := by
  rw [hp, token?_of_ne h hk, Option.bind_none]

lemma tokenReader_name :
    TokenReader .name name fun t =>
      if keywords.contains (String.ofList t) then none else some (.name (String.ofList t)) := by
  intro s
  rw [name, token?]
  cases identifier? s with
  | none => rfl
  | some x =>
    simp only [Option.bind_some]
    split <;> rfl

def integerOf? (ds : List Char) : Option Expr :=
  (number? 10 ds).bind fun n =>
    if n ≤ Int64.maxValue.toInt then some (.lit (.int (Int64.ofNat n))) else none

lemma tokenReader_integer : TokenReader .number integer integerOf? := by
  intro s
  rw [integer, token?]
  cases digits? s with
  | none => rfl
  | some x =>
    simp only [integerOf?, Option.bind_some]
    cases number? 10 x.1 with
    | none => rfl
    | some n =>
      simp only [Option.bind_some]
      split <;> rfl

lemma tokenReader_string :
    TokenReader .text string fun t => some (.lit (.str (String.ofList t.tail.dropLast))) := by
  intro s
  rw [string, token?]
  cases h : quoted? s with
  | none => rfl
  | some x =>
    obtain ⟨q, -, -, rfl⟩ := quoted?_eq_some_iff.1 h
    simp

lemma symbol?_of_prefix (hw : w ∈ symbols) (h : w <+: s) :
    ∃ t r, symbol? s = some (t, r) ∧ w <+: t := by
  obtain ⟨r, rfl⟩ := h
  rcases List.mem_append.1 hw with hw | hw
  · obtain ⟨c, d, rfl⟩ :=
      List.length_eq_two.1 ((by decide : ∀ w ∈ pairSymbols, w.length = 2) w hw)
    exact ⟨[c, d], r, if_pos (List.contains_iff_mem.2 hw), List.prefix_rfl⟩
  · obtain ⟨c, hc, rfl⟩ := List.mem_map.1 hw
    have hc : isSymbolChar c = true := List.contains_iff_mem.2 hc
    cases r with
    | nil => exact ⟨[c], [], if_pos hc, List.prefix_rfl⟩
    | cons d r =>
      by_cases hp : pairSymbols.contains [c, d] = true
      · exact ⟨[c, d], r, if_pos hp, List.prefix_append [c] [d]⟩
      · exact ⟨[c], d :: r, (if_neg hp).trans (if_pos hc), List.prefix_rfl⟩

def Symbolic (p : Reader α) : Prop :=
  ∀ s, p s = (symbol? s).bind fun x => (p x.1).map fun y => (y.1, y.2 ++ x.2)

lemma symbolic_orElse (hp : Symbolic p) (hq : Symbolic q) : Symbolic (orElse p q) := by
  intro s
  have hps := hp s
  have hqs := hq s
  rw [orElse]
  cases hs : symbol? s with
  | none =>
    rw [hs] at hps hqs
    rw [hps]
    exact hqs
  | some x =>
    rw [hs] at hps hqs
    rw [hps, hqs]
    simp only [Option.bind_some, orElse]
    cases p x.1 <;> rfl

lemma symbolic_word (hw : w ∈ symbols) : Symbolic (word w a) := by
  intro s
  cases hs : word w a s with
  | some x =>
    obtain ⟨rfl, hb⟩ := word_eq_some_iff.1 hs
    obtain ⟨t, r, hy, u, rfl⟩ := symbol?_of_prefix hw (List.prefix_append w x.2)
    have hr : x.2 = u ++ r := by
      have hs := (symbol?_append hy).2
      rw [List.append_assoc] at hs
      exact (List.append_cancel_left hs).symm
    rw [hy, Option.bind_some, word_eq_some_iff.2 ⟨rfl, rfl⟩, Option.map_some, ← hb, ← hr]
  | none =>
    cases hy : symbol? s with
    | none => rfl
    | some x =>
      cases hx : word w a x.1 with
      | none => rw [Option.bind_some, hx, Option.map_none]
      | some y =>
        obtain ⟨hx, -⟩ := word_eq_some_iff.1 hx
        rw [word_eq_some_iff.2 ⟨?_, rfl⟩] at hs
        · cases hs
        · exact y.2 ++ x.2
        · rw [← (symbol?_append hy).2, hx, List.append_assoc]

lemma Symbolic.tokenReader (hp : Symbolic p) (hall : ∀ t ∈ symbols, ∀ x ∈ p t, x.2 = []) :
    TokenReader .symbol p fun t => (p t).map Prod.fst := by
  intro s
  rw [hp, token?]
  cases hs : symbol? s with
  | none => rfl
  | some x =>
    rw [Option.bind_some, Option.bind_some]
    cases hx : p x.1 with
    | none => simp only [hx, Option.map_none]
    | some y =>
      simp only [hx, Option.map_some, hall _ (mem_symbols hs) y hx, List.nil_append]

lemma tokenReader_word (hc : c ∈ ['-', ',', '(', ')']) :
    TokenReader .symbol (word [c] ()) fun t => (word [c] () t).map Prod.fst := by
  simp only [List.mem_cons, List.not_mem_nil, or_false] at hc
  rcases hc with rfl | rfl | rfl | rfl <;>
    exact (symbolic_word (by decide)).tokenReader (by decide)

lemma tokenReader_sumOp : TokenReader .symbol sumOp fun t => (sumOp t).map Prod.fst :=
  (symbolic_orElse (symbolic_word (by decide)) (symbolic_word (by decide))).tokenReader (by decide)

lemma tokenReader_productOp : TokenReader .symbol productOp fun t => (productOp t).map Prod.fst :=
  (symbolic_orElse (symbolic_word (by decide)) <| symbolic_orElse (symbolic_word (by decide)) <|
    symbolic_orElse (symbolic_word (by decide)) (symbolic_word (by decide))).tokenReader (by decide)

lemma tokenReader_compareOp : TokenReader .symbol compareOp fun t => (compareOp t).map Prod.fst :=
  (symbolic_orElse (symbolic_word (by decide)) <| symbolic_orElse (symbolic_word (by decide)) <|
    symbolic_orElse (symbolic_word (by decide)) <| symbolic_orElse (symbolic_word (by decide)) <|
      symbolic_orElse (symbolic_word (by decide)) (symbolic_word (by decide))).tokenReader
    (by decide)

end Parser

end ColouredPetri
