import Mathlib.Data.List.Forall2
import ColouredPetri.Proofs.Expressions.Writable

/-! Readers on a text and on the same text with other names. Both texts have tokens of the same kinds,
and differ only in names that are no keywords, so that each reader goes the same way on both: it fails
on both, or its readings differ in names only and what they leave differs likewise. -/

namespace ColouredPetri

open Lexer Text Text.Reader

mutual

inductive Expr.Renames (f : String → String) (P : String → Prop) : Expr → Expr → Prop
  | lit (v : Value) : Expr.Renames f P (.lit v) (.lit v)
  | name {n : String} (h : P n) : Expr.Renames f P (.name n) (.name (f n))
  | tuple {l l' : List Expr} (h : Expr.RenamesAll f P l l') : Expr.Renames f P (.tuple l) (.tuple l')
  | neg {e e' : Expr} (h : Expr.Renames f P e e') : Expr.Renames f P (.neg e) (.neg e')
  | arith {op : ArithOp} {a a' b b' : Expr} (ha : Expr.Renames f P a a')
      (hb : Expr.Renames f P b b') : Expr.Renames f P (.arith op a b) (.arith op a' b')
  | compare {op : CompareOp} {a a' b b' : Expr} (ha : Expr.Renames f P a a')
      (hb : Expr.Renames f P b b') : Expr.Renames f P (.compare op a b) (.compare op a' b')
  | and {a a' b b' : Expr} (ha : Expr.Renames f P a a') (hb : Expr.Renames f P b b') :
      Expr.Renames f P (.and a b) (.and a' b')
  | or {a a' b b' : Expr} (ha : Expr.Renames f P a a') (hb : Expr.Renames f P b b') :
      Expr.Renames f P (.or a b) (.or a' b')
  | not {e e' : Expr} (h : Expr.Renames f P e e') : Expr.Renames f P (.not e) (.not e')

inductive Expr.RenamesAll (f : String → String) (P : String → Prop) : List Expr → List Expr → Prop
  | nil : Expr.RenamesAll f P [] []
  | cons {e e' : Expr} {l l' : List Expr} (h : Expr.Renames f P e e')
      (hl : Expr.RenamesAll f P l l') : Expr.RenamesAll f P (e :: l) (e' :: l')

end

namespace Lexer

variable {f : String → String} {P : String → Prop} {n m : Nat} {s s' t t' r r' : List Char}
  {k : TokenKind}

inductive Renamed (f : String → String) (P : String → Prop) : Nat → List Char → List Char → Prop
  | done {n : Nat} {s s' : List Char} (h : skipBlanks s = []) (h' : skipBlanks s' = []) :
      Renamed f P n s s'
  | next {n : Nat} {s s' r r' : List Char} (p : Piece)
      (h : token? p.kind (skipBlanks s) = some (p.text, r))
      (h' : token? p.kind (skipBlanks s') = some ((p.rename f).text, r'))
      (hP : p.isVariable = true → P (String.ofList p.text)) (hr : Renamed f P n r r') :
      Renamed f P (n + 1) s s'

lemma Renamed.mono (h : Renamed f P n s s') (hnm : n ≤ m) : Renamed f P m s s' := by
  induction h generalizing m with
  | done h h' => exact .done h h'
  | next p h h' hP _ ih =>
    obtain ⟨m, rfl⟩ := Nat.exists_eq_succ_of_ne_zero (Nat.ne_zero_of_lt hnm)
    exact .next p h h' hP (ih (Nat.le_of_succ_le_succ hnm))

lemma Renamed.skipBlanks (h : Renamed f P n s s') :
    Renamed f P n (skipBlanks s) (skipBlanks s') := by
  cases h with
  | done h h' => exact .done (by rw [skipBlanks_skipBlanks, h]) (by rw [skipBlanks_skipBlanks, h'])
  | next p h h' hP hr =>
    exact .next p (by rw [skipBlanks_skipBlanks, h]) (by rw [skipBlanks_skipBlanks, h']) hP hr

lemma not_continuesWord {c : Char} (hk : startKind? c = some k) (hc : isNameChar c = false) :
    Parser.continuesWord c = false := by
  rw [startKind?] at hk
  split at hk
  · next hs =>
    rw [isNameChar_of_isNameStart hs] at hc
    cases hc
  · split at hk
    · next hd =>
      simp [isNameChar, Char.isAlphanum, hd] at hc
    · split at hk
      · next hq =>
        simp only [isQuote, Bool.or_eq_true, beq_iff_eq] at hq
        rcases hq with rfl | rfl <;> rfl
      · split at hk
        · next hy =>
          simp only [startsSymbol, isSymbolChar, Bool.or_eq_true, beq_iff_eq,
            List.contains_iff_mem] at hy
          rcases hy with (hy | rfl) | rfl
          · have hall : "+-*/%<>(),".toList.all (Parser.continuesWord · == false) = true := by decide
            exact eq_of_beq (List.all_eq_true.1 hall c hy)
          · rfl
          · rfl
        · cases hk

def GoesOn (r : List Char) : Prop :=
  skipBlanks r = [] ∨ ∃ k t r', token? k (skipBlanks r) = some (t, r')

lemma Renamed.goesOn (h : Renamed f P n r r') : GoesOn r ∧ GoesOn r' := by
  cases h with
  | done h h' => exact ⟨.inl h, .inl h'⟩
  | next p h h' _ _ => exact ⟨.inr ⟨_, _, _, h⟩, .inr ⟨_, _, _, h'⟩⟩

lemma GoesOn.breaks (h : GoesOn r) (ht : token? .name s = some (t, r)) :
    Breaks Parser.continuesWord r := by
  obtain ⟨-, -, hbreak⟩ := identifier?_eq_some_iff.1 ht
  cases r with
  | nil => exact nofun
  | cons c l =>
    intro d hd
    cases hd
    by_cases hc : isSpace c = true
    · simp only [isSpace, Bool.or_eq_true, beq_iff_eq] at hc
      rcases hc with ((rfl | rfl) | rfl) | rfl <;> rfl
    · have hskip : skipBlanks (c :: l) = c :: l := List.dropWhile_cons_of_neg hc
      rw [GoesOn, hskip] at h
      obtain h | ⟨k, t', r', h⟩ := h
      · cases h
      · exact not_continuesWord (startKind?_of_token? h) (hbreak c rfl)

end Lexer

namespace Parser

variable {f : String → String} {P : String → Prop} {n m : Nat} {α β γ : Type} {A : α → α → Prop}
  {B : β → β → Prop} {C : γ → γ → Prop} {p p' p₁ p₂ : Reader α} {q q' : Reader β} {s s' : List Char}
  {inner inner' : Reader Expr}

def Alike (f : String → String) (P : String → Prop) (n : Nat) (A : α → α → Prop)
    (x x' : Option (α × List Char)) : Prop :=
  (x = none ∧ x' = none) ∨
    ∃ a r a' r', x = some (a, r) ∧ x' = some (a', r') ∧ A a a' ∧ Renamed f P n r r'

def Tracks (f : String → String) (P : String → Prop) (n : Nat) (A : α → α → Prop)
    (p p' : Reader α) : Prop :=
  ∀ ⦃s s'⦄, Renamed f P n s s' → Alike f P n A (p s) (p' s')

def TracksTokens (f : String → String) (P : String → Prop) (n : Nat) (A : α → α → Prop)
    (p p' : Reader α) : Prop :=
  ∀ ⦃s s'⦄, skipBlanks s = s → skipBlanks s' = s' → Renamed f P n s s' →
    Alike f P n A (p s) (p' s')

lemma Alike.none {x x' : Option (α × List Char)} (h : x = .none) (h' : x' = .none) :
    Alike f P n A x x' := .inl ⟨h, h'⟩

lemma Alike.some {a a' : α} {r r' : List Char} {x x' : Option (α × List Char)}
    (h : x = .some (a, r)) (h' : x' = .some (a', r')) (ha : A a a') (hr : Renamed f P n r r') :
    Alike f P n A x x' := .inr ⟨a, r, a', r', h, h', ha, hr⟩

lemma tracks_around (h : TracksTokens f P n A p p') : Tracks f P n A (around p) (around p') := by
  intro s s' hs
  rw [around, around]
  obtain ⟨hp, hp'⟩ | ⟨a, r, a', r', hp, hp', ha, hr⟩ :=
    h skipBlanks_skipBlanks skipBlanks_skipBlanks hs.skipBlanks
  · exact .none (by rw [hp]) (by rw [hp'])
  · exact .some (by rw [hp]) (by rw [hp']) ha hr.skipBlanks

lemma tracks_orElse {o o' : Reader α} (h : TracksTokens f P n A p p')
    (ho : TracksTokens f P n A o o') : TracksTokens f P n A (orElse p o) (orElse p' o') := by
  intro s s' hb hb' hs
  rw [orElse, orElse]
  obtain ⟨hp, hp'⟩ | ⟨a, r, a', r', hp, hp', ha, hr⟩ := h hb hb' hs
  · rw [hp, hp']
    exact ho hb hb' hs
  · exact .some (by rw [hp]) (by rw [hp']) ha hr

lemma tracks_both {g g' : α → β → γ} (h : Tracks f P n A p p') (hq : Tracks f P n B q q')
    (hg : ∀ a a' b b', A a a' → B b b' → C (g a b) (g' a' b')) :
    Tracks f P n C (both p q g) (both p' q' g') := by
  intro s s' hs
  rw [both, both]
  obtain ⟨hp, hp'⟩ | ⟨a, r, a', r', hp, hp', ha, hr⟩ := h hs
  · exact .none (by rw [hp]) (by rw [hp'])
  · rw [hp, hp']
    simp only
    obtain ⟨hq, hq'⟩ | ⟨b, u, b', u', hq, hq', hb, hu⟩ := hq hr
    · exact .none (by rw [hq]) (by rw [hq'])
    · exact .some (by rw [hq]) (by rw [hq']) (hg _ _ _ _ ha hb) hu

lemma tracks_manyUpTo (h : Tracks f P n A p p') (hs : Renamed f P n s s') :
    List.Forall₂ A (manyUpTo p m s).1 (manyUpTo p' m s').1 ∧
      Renamed f P n (manyUpTo p m s).2 (manyUpTo p' m s').2 := by
  induction m generalizing s s' with
  | zero => exact ⟨.nil, hs⟩
  | succ m ih =>
    rw [manyUpTo, manyUpTo]
    obtain ⟨hp, hp'⟩ | ⟨a, r, a', r', hp, hp', ha, hr⟩ := h hs
    · rw [hp, hp']
      exact ⟨.nil, hs⟩
    · rw [hp, hp']
      obtain ⟨hl, hr⟩ := ih hr
      exact ⟨.cons ha hl, hr⟩

lemma tracks_many {T T' : α → Prop} (hp : Reads p T) (hp' : Reads p' T')
    (h : Tracks f P n A p p') (hs : Renamed f P n s s') :
    List.Forall₂ A (many p s).1 (many p' s').1 ∧
      Renamed f P n (many p s).2 (many p' s').2 := by
  rw [many, many, manyUpTo_congr hp le_rfl (Nat.le_max_left s.length s'.length),
    manyUpTo_congr hp' le_rfl (Nat.le_max_right s.length s'.length)]
  exact tracks_manyUpTo h hs

section Expressions

variable {p p' : Reader Expr}

abbrev TracksExpr (f : String → String) (P : String → Prop) (n : Nat) (p p' : Reader Expr) : Prop :=
  Tracks f P n (Expr.Renames f P) p p'

lemma tracks_signed {sign : Reader Unit} {g : Expr → Expr} (hread : Reads sign fun _ => True)
    (hsign : TracksTokens f P n (fun _ _ => True) sign sign) (h : TracksExpr f P n p p')
    (hg : ∀ e e', Expr.Renames f P e e' → Expr.Renames f P (g e) (g e')) :
    TracksExpr f P n (fun s => signed sign g p s.length s)
      fun s => signed sign g p' s.length s := by
  have hm : ∀ m, TracksExpr f P n (signed sign g p m) (signed sign g p' m) := by
    intro m
    induction m with
    | zero => exact h
    | succ m ih =>
      intro s s' hs
      rw [signed, signed]
      obtain ⟨hx, hx'⟩ | ⟨a, r, a', r', hx, hx', -, hr⟩ := tracks_around hsign hs
      · rw [hx, hx']
        exact h hs
      · rw [hx, hx']
        simp only
        obtain ⟨hy, hy'⟩ | ⟨e, u, e', u', hy, hy', he, hu⟩ := ih hr
        · rw [hy, hy']
          exact h hs
        · exact .some (by rw [hy]) (by rw [hy']) (hg _ _ he) hu
  intro s s' hs
  simp only
  rw [signed_congr hread le_rfl (Nat.le_max_left s.length s'.length),
    signed_congr hread le_rfl (Nat.le_max_right s.length s'.length)]
  exact hm _ hs

lemma renames_foldl {g : α → Expr → Expr → Expr} {l l' : List (α × Expr)} {e e' : Expr}
    (he : Expr.Renames f P e e')
    (hl : List.Forall₂ (fun x x' => x.1 = x'.1 ∧ Expr.Renames f P x.2 x'.2) l l')
    (hg : ∀ a e₁ e₁' e₂ e₂', Expr.Renames f P e₁ e₁' → Expr.Renames f P e₂ e₂' →
      Expr.Renames f P (g a e₁ e₂) (g a e₁' e₂')) :
    Expr.Renames f P (l.foldl (fun acc x => g x.1 acc x.2) e)
      (l'.foldl (fun acc x => g x.1 acc x.2) e') := by
  induction hl generalizing e e' with
  | nil => exact he
  | cons hx _ ih =>
    refine ih ?_
    simp only [← hx.1]
    exact hg _ _ _ _ _ he hx.2

lemma tracks_leftChain {op : Reader α} {g : α → Expr → Expr → Expr} {S S' : Expr → Prop}
    {T : α → Prop} (hread : Reads op T) (hp : Reads p S) (hp' : Reads p' S')
    (hop : TracksTokens f P n Eq op op) (h : TracksExpr f P n p p')
    (hg : ∀ a e₁ e₁' e₂ e₂', Expr.Renames f P e₁ e₁' → Expr.Renames f P e₂ e₂' →
      Expr.Renames f P (g a e₁ e₂) (g a e₁' e₂')) :
    TracksExpr f P n (leftChain p op g) (leftChain p' op g) := by
  intro s s' hs
  obtain ⟨hx, hx'⟩ | ⟨e, r, e', r', hx, hx', he, hr⟩ := h hs
  · exact .none (by rw [leftChain, hx]) (by rw [leftChain, hx'])
  · obtain ⟨hl, hu⟩ := tracks_many (reads_link hread hp) (reads_link hread hp')
      (tracks_both (C := fun x x' : α × Expr => x.1 = x'.1 ∧ Expr.Renames f P x.2 x'.2)
        (tracks_around hop) h fun _ _ _ _ ha hb => ⟨ha, hb⟩) hr
    exact .some (leftChain_of_some hx) (leftChain_of_some hx') (renames_foldl he hl hg) hu

end Expressions

section Tokens

lemma tracks_token {k : TokenKind} {g g' : List Char → Option α} (hp : TokenReader k p g)
    (hp' : TokenReader k p' g')
    (hg : ∀ q : Piece, q.kind = k → (q.isVariable = true → P (String.ofList q.text)) →
      (g q.text = none ∧ g' (q.rename f).text = none) ∨
        ∃ a a', g q.text = some a ∧ g' (q.rename f).text = some a' ∧ A a a') :
    TracksTokens f P n A p p' := by
  intro s s' hb hb' hs
  cases hs with
  | done h h' =>
    rw [← hb, ← hb', h, h']
    exact .none (by rw [hp, token?_nil]; rfl) (by rw [hp', token?_nil]; rfl)
  | next q h h' hP hr =>
    rw [hb] at h
    rw [hb'] at h'
    by_cases hk : q.kind = k
    · rw [hk] at h h'
      obtain ⟨hn, hn'⟩ | ⟨a, a', ha, ha', haa⟩ := hg q hk hP
      · exact .none (by rw [hp.eq h, hn]; rfl) (by rw [hp'.eq h', hn']; rfl)
      · exact .some (by rw [hp.eq h, ha]; rfl) (by rw [hp'.eq h', ha']; rfl) haa
          (hr.mono (Nat.le_succ _))
    · exact .none (hp.eq_none h (Ne.symm hk)) (hp'.eq_none h' (Ne.symm hk))

lemma rename_of_kind {q : Piece} (h : q.kind ≠ .name) : q.rename f = q := by
  have hv : q.isVariable = false := by
    rw [Piece.isVariable, beq_false_of_ne h, Bool.false_and]
  rw [Piece.rename, hv]
  rfl

lemma tracks_same {k : TokenKind} {g : List Char → Option α} (hp : TokenReader k p g)
    (hk : k ≠ .name) (hg : ∀ t a, g t = some a → A a a) : TracksTokens f P n A p p := by
  refine tracks_token hp hp fun q hq _ => ?_
  rw [rename_of_kind (hq ▸ hk)]
  cases ha : g q.text with
  | none => exact .inl ⟨rfl, rfl⟩
  | some a => exact .inr ⟨a, a, rfl, rfl, hg _ _ ha⟩

lemma tracks_word {c : Char} (hc : c ∈ ['-', ',', '(', ')']) :
    TracksTokens f P n (fun _ _ => True) (word [c] ()) (word [c] ()) :=
  tracks_same (tokenReader_word hc) nofun fun _ _ _ => trivial

lemma tracks_integer : TracksTokens f P n (Expr.Renames f P) integer integer := by
  refine tracks_same tokenReader_integer nofun fun t e he => ?_
  obtain ⟨m, -, he⟩ := Option.bind_eq_some_iff.1 he
  split at he
  · cases he
    exact .lit _
  · cases he

lemma tracks_string : TracksTokens f P n (Expr.Renames f P) string string := by
  refine tracks_same tokenReader_string nofun fun t e he => ?_
  cases he
  exact .lit _

def Sound (f : String → String) (P : String → Prop) : Prop :=
  ∀ n, P n → isIdentifier (f n).toList = true ∧ keywords.contains (f n) = false

lemma tracks_keyword (hf : Sound f P) {w : String} {a : α} (hw : w ∈ keywords) (ha : A a a) :
    TracksTokens f P n A (keyword w a) (keyword w a) := by
  have hi := isIdentifier_of_mem_keywords hw
  have hnil : keyword w a [] = none := by
    cases h : keyword w a [] with
    | none => rfl
    | some x => cases keyword_identifier hi h
  intro s s' hb hb' hs
  cases hs with
  | done h h' =>
    rw [← hb, ← hb', h, h']
    exact .none hnil hnil
  | next q h h' hP hr =>
    rw [hb] at h
    rw [hb'] at h'
    by_cases hq : q.kind = .name ∧ q.text = w.toList
    · obtain ⟨hk, ht⟩ := hq
      have hv : q.isVariable = false := by
        rw [Piece.isVariable, ht, String.ofList_toList, List.contains_iff_mem.2 hw, Bool.not_true,
          Bool.and_false]
      have hq : (q.rename f).text = w.toList := by
        rw [Piece.rename, hv]
        exact ht
      rw [hk, ht] at h
      rw [hk, hq] at h'
      refine .some (keyword_eq_some_iff.2 ⟨(token?_append h).2.symm, ?_, rfl⟩)
        (keyword_eq_some_iff.2 ⟨(token?_append h').2.symm, ?_, rfl⟩) ha (hr.mono (Nat.le_succ _))
      · exact hr.goesOn.1.breaks h
      · exact hr.goesOn.2.breaks h'
    · refine .none (keyword_none hi h fun hk ht => hq ⟨hk, ht⟩)
        (keyword_none hi h' fun hk ht => ?_)
      rw [Piece.rename] at ht
      split at ht
      · next hv =>
        have hkey := (hf _ (hP hv)).2
        rw [String.toList_inj.1 ht, List.contains_iff_mem.2 hw] at hkey
        cases hkey
      · exact hq ⟨hk, ht⟩

lemma tracks_name (hf : Sound f P) : TracksTokens f P n (Expr.Renames f P) name name := by
  refine tracks_token tokenReader_name tokenReader_name fun q hk hP => ?_
  by_cases hv : q.isVariable = true
  · have hkey : keywords.contains (String.ofList q.text) = false := by
      simpa [Piece.isVariable, hk] using hv
    refine .inr ⟨_, _, if_neg (Bool.eq_false_iff.1 hkey), ?_, .name (hP hv)⟩
    rw [Piece.rename, if_pos hv, String.ofList_toList]
    exact if_neg (Bool.eq_false_iff.1 (hf _ (hP hv)).2)
  · have hkey : keywords.contains (String.ofList q.text) = true := by
      simpa [Piece.isVariable, hk] using hv
    rw [Piece.rename, if_neg hv]
    exact .inl ⟨if_pos hkey, if_pos hkey⟩

lemma tracks_literal (hf : Sound f P) :
    TracksTokens f P n (Expr.Renames f P) literal literal :=
  tracks_orElse
      (tracks_orElse (tracks_keyword hf (by decide) (.lit _))
        (tracks_keyword hf (by decide) (.lit _)))
    <| tracks_orElse
      (tracks_orElse (tracks_keyword hf (by decide) (.lit _))
        (tracks_keyword hf (by decide) (.lit _)))
    <| tracks_orElse (tracks_keyword hf (by decide) (.lit _))
    <| tracks_orElse tracks_integer tracks_string

end Tokens

section Levels

lemma tracks_comma : Tracks f P n (fun _ _ => True) comma comma :=
  tracks_around (tracks_word (by decide))

lemma tracks_closing : Tracks f P n Eq closing closing := by
  intro s s' hs
  have hclose : Tracks f P n (fun _ _ => True) (around (word [')'] ())) (around (word [')'] ())) :=
    tracks_around (tracks_word (by decide))
  rw [closing, closing]
  obtain ⟨hx, hx'⟩ | ⟨_, r, _, r', hx, hx', -, hr⟩ := tracks_comma hs
  · rw [hx, hx']
    obtain ⟨hy, hy'⟩ | ⟨_, u, _, u', hy, hy', -, hu⟩ := hclose hs
    · exact .none (by rw [hy]; rfl) (by rw [hy']; rfl)
    · exact .some (by rw [hy]; rfl) (by rw [hy']; rfl) rfl hu
  · rw [hx, hx']
    obtain ⟨hy, hy'⟩ | ⟨_, u, _, u', hy, hy', -, hu⟩ := hclose hr
    · exact .none (by simp only [hy]; rfl) (by simp only [hy']; rfl)
    · exact .some (by simp only [hy]; rfl) (by simp only [hy']; rfl) rfl hu

lemma renamesAll_of_forall₂ {l l' : List Expr} (h : List.Forall₂ (Expr.Renames f P) l l') :
    Expr.RenamesAll f P l l' := by
  induction h with
  | nil => exact .nil
  | cons he _ ih => exact .cons he ih

lemma renames_group {l l' : List Expr} {b : Bool} (h : List.Forall₂ (Expr.Renames f P) l l') :
    Expr.Renames f P (group l b) (group l' b) := by
  have htuple : Expr.Renames f P (.tuple l) (.tuple l') := .tuple (renamesAll_of_forall₂ h)
  cases h with
  | nil => exact htuple
  | cons he hl =>
    cases hl with
    | nil =>
      cases b with
      | false => exact he
      | true => exact htuple
    | cons _ _ => exact htuple

variable {S S' : Expr → Prop}

lemma tracks_commaSeparated (hread : Reads inner S) (hread' : Reads inner' S')
    (h : TracksExpr f P n inner inner') (hs : Renamed f P n s s') :
    List.Forall₂ (Expr.Renames f P) (commaSeparated inner s).1 (commaSeparated inner' s').1 ∧
      Renamed f P n (commaSeparated inner s).2 (commaSeparated inner' s').2 := by
  obtain ⟨hx, hx'⟩ | ⟨e, r, e', r', hx, hx', he, hr⟩ := h hs
  · rw [commaSeparated_of_none hx, commaSeparated_of_none hx']
    exact ⟨.nil, hs⟩
  · rw [commaSeparated_of_some hx, commaSeparated_of_some hx']
    obtain ⟨hl, hu⟩ := tracks_many (reads_both (R := S) reads_comma hread fun _ _ _ h => h)
      (reads_both (R := S') reads_comma hread' fun _ _ _ h => h)
      (tracks_both tracks_comma h fun _ _ _ _ _ he => he) hr
    exact ⟨.cons he hl, hu⟩

lemma tracks_parenthesised (hread : Reads inner S) (hread' : Reads inner' S')
    (h : ∀ m, n = m + 1 → TracksExpr f P m inner inner') :
    TracksTokens f P n (Expr.Renames f P) (parenthesised inner) (parenthesised inner') := by
  -- between parentheses there is one token less
  intro s s' hb hb' hs
  rw [parenthesised_eq, parenthesised_eq]
  cases hs with
  | done hd hd' =>
    rw [← hb, ← hb', hd, hd']
    exact .none rfl rfl
  | next q hq hq' hP hr =>
    rw [hb] at hq
    rw [hb'] at hq'
    have hopen : TokenReader .symbol (word ['('] ()) _ := tokenReader_word (by decide)
    by_cases hk : q.kind = .symbol
    · rw [rename_of_kind (hk.trans_ne (by decide)), hk] at hq'
      rw [hk] at hq
      rw [hopen.eq hq, hopen.eq hq']
      cases word ['('] () q.text with
      | none => exact .none rfl rfl
      | some x =>
        obtain ⟨hitems, hrest⟩ := tracks_commaSeparated hread hread' (h _ rfl) hr
        simp only [Option.map_some, Option.bind_some]
        obtain ⟨hc, hc'⟩ | ⟨b, u, b', u', hc, hc', hbb, hu⟩ := tracks_closing hrest
        · exact .none (by rw [hc]; rfl) (by rw [hc']; rfl)
        · subst hbb
          exact .some (by rw [hc]; rfl) (by rw [hc']; rfl) (renames_group hitems)
            (hu.mono (Nat.le_succ _))
    · exact .none (by rw [hopen.eq_none hq (Ne.symm hk)]; rfl)
        (by rw [hopen.eq_none hq' (Ne.symm hk)]; rfl)

variable (hf : Sound f P) (hread : Reads inner Expr.Writable) (hread' : Reads inner' Expr.Writable)
  (h : ∀ m, n = m + 1 → TracksExpr f P m inner inner')
include hf hread hread' h

lemma tracks_atom : TracksExpr f P n (atom inner) (atom inner') :=
  tracks_around <| tracks_orElse (tracks_literal hf) <| tracks_orElse (tracks_name hf) <|
    tracks_parenthesised hread hread' h

lemma tracks_unary : TracksExpr f P n (unary inner) (unary inner') :=
  tracks_signed reads_minus (tracks_word (by decide)) (tracks_atom hf hread hread' h)
    fun _ _ => .neg

lemma tracks_product : TracksExpr f P n (product inner) (product inner') :=
  tracks_leftChain reads_productOp (reads_unary hread) (reads_unary hread')
    (tracks_same tokenReader_productOp nofun fun _ _ _ => rfl) (tracks_unary hf hread hread' h)
    fun _ _ _ _ _ => .arith

lemma tracks_sum : TracksExpr f P n (sum inner) (sum inner') :=
  tracks_leftChain reads_sumOp (reads_product hread) (reads_product hread')
    (tracks_same tokenReader_sumOp nofun fun _ _ _ => rfl) (tracks_product hf hread hread' h)
    fun _ _ _ _ _ => .arith

lemma tracks_comparison : TracksExpr f P n (comparison inner) (comparison inner') := by
  intro s s' hs
  have hop : TracksTokens f P n Eq compareOp compareOp :=
    tracks_same tokenReader_compareOp nofun fun _ _ _ => rfl
  rw [comparison, comparison]
  obtain ⟨hx, hx'⟩ | ⟨e, r, e', r', hx, hx', he, hr⟩ := tracks_sum hf hread hread' h hs
  · exact .none (by rw [hx]) (by rw [hx'])
  · rw [hx, hx']
    have hboth : Tracks f P n (Expr.Renames f P)
        (both (around compareOp) (sum inner) fun op right => .compare op e right)
        (both (around compareOp) (sum inner') fun op right => .compare op e' right) :=
      tracks_both (tracks_around hop) (tracks_sum hf hread hread' h) fun _ _ _ _ hop hright =>
        hop ▸ .compare he hright
    simp only
    obtain ⟨hy, hy'⟩ | ⟨c, u, c', u', hy, hy', hc, hu⟩ := hboth hr
    · exact .some (by rw [hy]) (by rw [hy']) he hr
    · exact .some (by rw [hy]) (by rw [hy']) hc hu

lemma tracks_negation : TracksExpr f P n (negation inner) (negation inner') :=
  tracks_signed reads_not (tracks_keyword hf (by decide) trivial)
    (tracks_comparison hf hread hread' h) fun _ _ => .not

lemma tracks_conjunction : TracksExpr f P n (conjunction inner) (conjunction inner') :=
  tracks_leftChain reads_and (reads_negation hread) (reads_negation hread')
    (tracks_keyword hf (by decide) rfl) (tracks_negation hf hread hread' h) fun _ _ _ _ _ => .and

lemma tracks_disjunction : TracksExpr f P n (disjunction inner) (disjunction inner') :=
  tracks_leftChain reads_or (reads_conjunction hread) (reads_conjunction hread')
    (tracks_keyword hf (by decide) rfl) (tracks_conjunction hf hread hread' h) fun _ _ _ _ _ => .or

omit hread hread' h in
lemma tracks_nested {k k' : Nat} (hk : n < k) (hk' : n < k') :
    TracksExpr f P n (nested k) (nested k') := by
  -- induction on the number of tokens, which bounds how deep parentheses nest
  induction n generalizing k k' with
  | zero =>
    obtain ⟨k, rfl⟩ := Nat.exists_eq_succ_of_ne_zero (Nat.ne_zero_of_lt hk)
    obtain ⟨k', rfl⟩ := Nat.exists_eq_succ_of_ne_zero (Nat.ne_zero_of_lt hk')
    exact tracks_disjunction hf reads_nested reads_nested nofun
  | succ n ih =>
    obtain ⟨k, rfl⟩ := Nat.exists_eq_succ_of_ne_zero (Nat.ne_zero_of_lt hk)
    obtain ⟨k', rfl⟩ := Nat.exists_eq_succ_of_ne_zero (Nat.ne_zero_of_lt hk')
    refine tracks_disjunction hf reads_nested reads_nested fun m hm => ?_
    cases hm
    exact ih (Nat.lt_of_succ_lt_succ hk) (Nat.lt_of_succ_lt_succ hk')

end Levels

end Parser

end ColouredPetri
