import ColouredPetri.Proofs.Expressions.Renamed
import ColouredPetri.Proofs.ExpressionGrammar
import ColouredPetri.Proofs.Restrictions

namespace ColouredPetri

namespace Lexer

variable {f : String → String} {P : String → Prop} {s t r r' : List Char} {k : TokenKind}
  {q : Piece} {ps : List Piece} {e : List Char}

def SameStart (r r' : List Char) : Prop :=
  r.head? = r'.head? ∨
    ∃ c d, r.head? = some c ∧ r'.head? = some d ∧ isNameStart c = true ∧ isNameStart d = true

lemma SameStart.breaks {p : Char → Bool} (h : SameStart r r') (hr : Breaks p r)
    (hp : ∀ c d, isNameStart c = true → isNameStart d = true → p c = false → p d = false) :
    Breaks p r' := by
  intro d hd
  obtain h | ⟨c, d', hc, hd', hsc, hsd⟩ := h
  · exact hr d (h ▸ hd)
  · rw [hd'] at hd
    cases hd
    exact hp c d hsc hsd (hr c hc)

lemma not_isDigit_of_isNameStart {c : Char} (h : isNameStart c = true) : c.isDigit = false := by
  cases hd : c.isDigit with
  | false => rfl
  | true =>
    have hk := startKind?_of_isDigit hd
    rw [startKind?, if_pos h] at hk
    cases hk

lemma not_pair_of_isNameStart {c d : Char} (h : isNameStart d = true) :
    pairSymbols.contains [c, d] = false := by
  cases hp : pairSymbols.contains [c, d] with
  | false => rfl
  | true =>
    have hall : pairSymbols.all (fun w => w.getLast?.all fun d => !isNameStart d) = true := by
      decide
    have hd := List.all_eq_true.1 hall _ (List.contains_iff_mem.1 hp)
    simp [h] at hd

lemma token?_text_append (h : token? .text (t ++ r) = some (t, r)) :
    token? .text (t ++ r') = some (t, r') := by
  obtain ⟨⟨u, v⟩, hu, hx⟩ := Option.map_eq_some_iff.1 h
  obtain ⟨c, hc, hm, hs⟩ := quoted?_eq_some_iff.1 hu
  have ht : t = c :: (u ++ [c]) := by
    rw [hs] at hx
    exact (congrArg Prod.fst hx).symm
  have hu' : quoted? (t ++ r') = some (u, r') :=
    quoted?_eq_some_iff.2 ⟨c, hc, hm, by simp [ht]⟩
  rw [token?, hu', ht]
  rfl

lemma token?_rename (hf : Parser.Sound f P) (hP : q.isVariable = true → P (String.ofList q.text))
    (h : token? q.kind (q.text ++ r) = some (q.text, r)) (hr : SameStart r r') :
    token? q.kind ((q.rename f).text ++ r') = some ((q.rename f).text, r') := by
  cases hk : q.kind with
  | name =>
    rw [hk] at h
    obtain ⟨-, ht, hbreak⟩ := identifier?_eq_some_iff.1 h
    have ht' : isIdentifier (q.rename f).text = true := by
      rw [Piece.rename]
      split
      · next hv => exact (hf _ (hP hv)).1
      · exact ht
    refine identifier?_eq_some_iff.2 ⟨rfl, ht', hr.breaks hbreak fun c _ hc _ hn => ?_⟩
    rw [isNameChar_of_isNameStart hc] at hn
    cases hn
  | number =>
    rw [Parser.rename_of_kind (hk.trans_ne (by decide))]
    rw [hk] at h
    obtain ⟨-, hne, ht, hbreak⟩ := digits?_eq_some_iff.1 h
    exact digits?_eq_some_iff.2
      ⟨rfl, hne, ht, hr.breaks hbreak fun _ _ _ hd _ => not_isDigit_of_isNameStart hd⟩
  | text =>
    rw [Parser.rename_of_kind (hk.trans_ne (by decide))]
    rw [hk] at h
    exact token?_text_append h
  | symbol =>
    rw [Parser.rename_of_kind (hk.trans_ne (by decide))]
    rw [hk] at h
    obtain ⟨-, ht⟩ := symbol?_eq_some_iff.1 h
    refine symbol?_eq_some_iff.2 ⟨rfl, ht.imp_right ?_⟩
    rintro ⟨c, htc, hc, hbreak⟩
    exact ⟨c, htc, hc, hr.breaks hbreak fun _ _ _ hd _ => not_pair_of_isNameStart hd⟩

lemma forall_blanks : ∀ c ∈ blanks s, isSpace c = true := List.all_eq_true.1 List.all_takeWhile

lemma Solid.breaks (h : Solid t) : Breaks isSpace (t ++ r) := by
  obtain ⟨c, l, rfl, hc⟩ := h
  intro d hd
  cases hd
  exact hc

lemma skipBlanks_spliced {b : List Char} (hb : ∀ c ∈ b, isSpace c = true)
    (ht : token? k (t ++ r) = some (t, r)) : skipBlanks (b ++ (t ++ r)) = t ++ r :=
  dropWhile_append hb (solid_of_token? ht).breaks

lemma pieces?_spliced {b : List Char} (hb : ∀ c ∈ b, isSpace c = true)
    (ht : token? k (t ++ r) = some (t, r)) :
    pieces? (b ++ (t ++ r)) = (pieces? r).map fun x => (⟨b, k, t⟩ :: x.1, x.2) := by
  have hblanks : blanks (b ++ (t ++ r)) = b := takeWhile_append hb (solid_of_token? ht).breaks
  rw [pieces?_of_token? ((skipBlanks_spliced hb ht).symm ▸ ht), hblanks]

lemma sameStart_append (hs : SameStart t r) (ht : t ≠ []) {b t' r' : List Char} :
    SameStart (b ++ (t ++ t')) (b ++ (r ++ r')) := by
  cases b with
  | cons c b => exact .inl rfl
  | nil =>
    cases t with
    | nil => exact absurd rfl ht
    | cons c t =>
      cases r with
      | nil => obtain h | ⟨_, _, _, h, -⟩ := hs <;> cases h
      | cons d r => exact hs

lemma head?_of_isIdentifier (h : isIdentifier t = true) :
    ∃ c, t.head? = some c ∧ isNameStart c = true := by
  cases t with
  | nil => cases h
  | cons c l => exact ⟨c, rfl, (Bool.and_eq_true_iff.1 h).1⟩

lemma sameStart_rename (hf : q.isVariable = true →
      ∃ c, (f (String.ofList q.text)).toList.head? = some c ∧ isNameStart c = true)
    (h : token? q.kind (q.text ++ r) = some (q.text, r)) :
    SameStart q.text (q.rename f).text := by
  rw [Piece.rename]
  split
  · next hv =>
    have hk : q.kind = .name := by
      simp only [Piece.isVariable, Bool.and_eq_true, beq_iff_eq] at hv
      exact hv.1
    rw [hk] at h
    obtain ⟨c, hc, hcs⟩ := head?_of_isIdentifier (identifier?_eq_some_iff.1 h).2.1
    obtain ⟨d, hd, hds⟩ := hf hv
    exact .inr ⟨c, d, hc, hd, hcs, hds⟩
  · exact .inl rfl

lemma chars_rename_cons : chars ((q :: ps).map (Piece.rename f)) ++ e =
    q.blanks ++ ((q.rename f).text ++ (chars (ps.map (Piece.rename f)) ++ e)) := by
  have hblanks : (q.rename f).blanks = q.blanks := by
    rw [Piece.rename]
    split <;> rfl
  simp [chars, Piece.chars, hblanks]

lemma sameStart_renamed (h : pieces? s = some (ps, e)) (hf : ∀ q ∈ ps, q.isVariable = true →
      ∃ c, (f (String.ofList q.text)).toList.head? = some c ∧ isNameStart c = true) :
    SameStart s (chars (ps.map (Piece.rename f)) ++ e) := by
  obtain ⟨-, rfl, rfl⟩ | ⟨k, t, r, qs, ht, rfl, hr⟩ := pieces?_eq_some h
  · exact .inl rfl
  · obtain ⟨hne, hskip⟩ := token?_append ht
    have hstart : SameStart t (Piece.rename f ⟨blanks s, k, t⟩).text :=
      sameStart_rename (q := ⟨blanks s, k, t⟩) (hf _ (.head _)) (hskip.symm ▸ ht)
    rw [chars_rename_cons]
    nth_rewrite 1 [← skipBlanks_append s]
    rw [← hskip]
    exact sameStart_append hstart hne

lemma renamed_pieces (hf : Parser.Sound f P) (h : pieces? s = some (ps, e))
    (hP : ∀ q ∈ ps, q.isVariable = true → P (String.ofList q.text)) :
    pieces? (chars (ps.map (Piece.rename f)) ++ e) = some (ps.map (Piece.rename f), e) ∧
      Renamed f P ps.length s (chars (ps.map (Piece.rename f)) ++ e) := by
  -- induction on the pieces, from the end of the text: each piece is found again because the text
  -- behind it begins as it did
  induction ps generalizing s with
  | nil =>
    obtain ⟨hs, -, rfl⟩ | ⟨k, t, r, qs, -, hps, -⟩ := pieces?_eq_some h
    · exact ⟨h, .done hs hs⟩
    · cases hps
  | cons q qs ih =>
    obtain ⟨-, hps, -⟩ | ⟨k, t, r, qs, ht, hps, hr⟩ := pieces?_eq_some h
    · cases hps
    · cases hps
      obtain ⟨hq, hqs⟩ := List.forall_mem_cons.1 hP
      obtain ⟨hpieces, hrenamed⟩ := ih hr hqs
      have hstart := sameStart_renamed hr fun q hq hv =>
        head?_of_isIdentifier (hf _ (hqs q hq hv)).1
      have ht' := token?_rename (q := ⟨blanks s, k, t⟩) hf hq ((token?_append ht).2.symm ▸ ht) hstart
      have hpiece : Piece.rename f ⟨blanks s, k, t⟩ =
          ⟨blanks s, k, (Piece.rename f ⟨blanks s, k, t⟩).text⟩ := by
        rw [Piece.rename]
        split <;> rfl
      rw [chars_rename_cons]
      generalize chars (qs.map (Piece.rename f)) ++ e = r' at hpieces hrenamed ht'
      generalize (Piece.rename f ⟨blanks s, k, t⟩).text = t' at ht' hpiece
      refine ⟨?_, ?_⟩
      · rw [pieces?_spliced forall_blanks ht', hpieces, List.map_cons, hpiece]
        rfl
      · refine .next ⟨blanks s, k, t⟩ ht ?_ hq hrenamed
        rw [skipBlanks_spliced forall_blanks ht', hpiece]
        exact ht'

lemma texts_tokens {start : Nat} :
    ((tokens start ps).filter Token.isVariable).map Token.text =
      (ps.filter Piece.isVariable).map fun q => String.ofList q.text := by
  induction ps generalizing start with
  | nil => rfl
  | cons q ps ih =>
    have hvar : ∀ first, Token.isVariable ⟨q.kind, String.ofList q.text, first⟩ = q.isVariable :=
      fun _ => rfl
    simp only [tokens, List.filter_cons, hvar]
    split
    · rw [List.map_cons, List.map_cons, ih]
    · exact ih

lemma length_le_of_pieces? (h : pieces? s = some (ps, e)) : ps.length ≤ s.length := by
  induction ps generalizing s with
  | nil => exact Nat.zero_le _
  | cons q qs ih =>
    obtain ⟨-, hps, -⟩ | ⟨k, t, r, qs, ht, hps, hr⟩ := pieces?_eq_some h
    · cases hps
    · cases hps
      have hlt := (Parser.Eats.token ht).before.length_lt
      exact (Nat.succ_le_succ (ih hr)).trans hlt

lemma Renamed.eq_nil {n : Nat} (h : Renamed f P n [] r) : Lexer.skipBlanks r = [] := by
  cases h with
  | done _ h => exact h
  | next q h _ _ _ =>
    rw [show Lexer.skipBlanks [] = [] from rfl, token?_nil] at h
    cases h

end Lexer

open Lexer ColouredPetri.Parser

variable {f : String → String} {P : String → Prop} {source : String} {e : Expr}
  {ps : List Piece} {b : List Char}

lemma freeNames_of_pieces? (h : pieces? source.toList = some (ps, b)) :
    freeNames source =
      .ok (KeySet.ofList ((ps.filter Piece.isVariable).map fun q => String.ofList q.text)) := by
  rw [freeNames, tokenize, h]
  simp only [texts_tokens]

lemma pieces?_of_parse (h : Expr.parse source = .ok e) :
    ∃ ps b, pieces? source.toList = some (ps, b) := by
  have heats := (reads_around reads_nested
    (Expr.expression_eq_some_iff.1 (Expr.parse_eq_ok_iff.1 h))).2
  obtain ⟨⟨ps, b⟩, hcut⟩ := Option.isSome_iff_exists.1 (heats.cut (cut_iff.2 (.inl rfl)))
  exact ⟨ps, b, hcut⟩

lemma variable_rename (hf : Sound f P) {q : Piece}
    (hP : q.isVariable = true → P (String.ofList q.text)) :
    (q.rename f).isVariable = q.isVariable ∧
      (q.isVariable = true → String.ofList (q.rename f).text = f (String.ofList q.text)) := by
  by_cases hv : q.isVariable = true
  · have hkind : (q.rename f).kind = q.kind := by rw [Piece.rename, if_pos hv]
    have htext : String.ofList (q.rename f).text = f (String.ofList q.text) := by
      rw [Piece.rename, if_pos hv, String.ofList_toList]
    refine ⟨?_, fun _ => htext⟩
    rw [hv, Piece.isVariable, hkind, htext, (hf _ (hP hv)).2]
    simp only [Piece.isVariable, Bool.and_eq_true] at hv
    rw [hv.1]
    rfl
  · have heq : q.rename f = q := by rw [Piece.rename, if_neg hv]
    exact ⟨by rw [heq], fun h => absurd h hv⟩

lemma mem_names {n : String} :
    n ∈ (KeySet.ofList ((ps.filter Piece.isVariable).map fun q => String.ofList q.text)).keys ↔
      ∃ q ∈ ps, q.isVariable = true ∧ String.ofList q.text = n := by
  rw [KeySet.mem_keys_ofList]
  simp only [List.mem_map, List.mem_filter, and_assoc]

lemma mem_names_rename (hf : Sound f P)
    (hP : ∀ q ∈ ps, q.isVariable = true → P (String.ofList q.text)) {n : String} :
    n ∈ (KeySet.ofList (((ps.map (Piece.rename f)).filter Piece.isVariable).map
        fun q => String.ofList q.text)).keys ↔
      ∃ m ∈ (KeySet.ofList ((ps.filter Piece.isVariable).map fun q => String.ofList q.text)).keys,
        f m = n := by
  rw [mem_names]
  constructor
  · rintro ⟨q', hq', hv', rfl⟩
    obtain ⟨q, hq, rfl⟩ := List.mem_map.1 hq'
    obtain ⟨hv, htext⟩ := variable_rename hf (hP q hq)
    have hqv := hv ▸ hv'
    exact ⟨_, mem_names.2 ⟨q, hq, hqv, rfl⟩, (htext hqv).symm⟩
  · rintro ⟨m, hm, rfl⟩
    obtain ⟨q, hq, hqv, rfl⟩ := mem_names.1 hm
    obtain ⟨hv, htext⟩ := variable_rename hf (hP q hq)
    exact ⟨q.rename f, List.mem_map_of_mem hq, hv.trans hqv, htext hqv⟩

lemma skipBlanks_of_around {α : Type} {p : Text.Reader α} {a : α} {s r : List Char}
    (h : around p s = some (a, r)) : skipBlanks r = r := by
  rw [around] at h
  split at h
  · cases h
  · cases h
    exact skipBlanks_skipBlanks

lemma expression_of_renamed (hf : Sound f P) {n : Nat} {s s' : List Char}
    (h : expression s = some e) (hs : Renamed f P n s s') (hn : n ≤ s.length)
    (hn' : n ≤ s'.length) : ∃ e', expression s' = some e' ∧ Expr.Renames f P e e' := by
  have htracks : TracksExpr f P n (around (nested (s.length + 1))) (around (nested (s'.length + 1))) :=
    tracks_around fun _ _ _ _ h =>
      tracks_nested hf (Nat.lt_succ_of_le hn) (Nat.lt_succ_of_le hn') h
  have hread := Expr.expression_eq_some_iff.1 h
  obtain ⟨hnone, -⟩ | ⟨e₁, r, e', r', h₁, h₂, he, hr⟩ := htracks hs
  · rw [hread] at hnone
    cases hnone
  · rw [hread] at h₁
    cases h₁
    have hnil : r' = [] := (skipBlanks_of_around h₂).symm.trans hr.eq_nil
    subst hnil
    exact ⟨e', Expr.expression_eq_some_iff.2 h₂, he⟩

lemma renameNames_of_parse (hf : Sound f P) (h : Expr.parse source = .ok e)
    (hP : ∀ names, freeNames source = .ok names → ∀ n ∈ names.keys, P n) :
    ∃ source' e', renameNames source f = .ok source' ∧ Expr.parse source' = .ok e' ∧
      Expr.Renames f P e e' ∧ ∃ names names', freeNames source = .ok names ∧
        freeNames source' = .ok names' ∧
          ∀ n, n ∈ names'.keys ↔ ∃ n' ∈ names.keys, f n' = n := by
  obtain ⟨ps, b, hps⟩ := pieces?_of_parse h
  have hnames := freeNames_of_pieces? hps
  have hvar : ∀ q ∈ ps, q.isVariable = true → P (String.ofList q.text) := fun q hq hv =>
    hP _ hnames _ (mem_names.2 ⟨q, hq, hv, rfl⟩)
  obtain ⟨hpieces, hrenamed⟩ := renamed_pieces hf hps hvar
  have hlen := length_le_of_pieces? hpieces
  rw [List.length_map] at hlen
  obtain ⟨e', hexpr, he⟩ := expression_of_renamed hf (Expr.parse_eq_ok_iff.1 h) hrenamed
    (length_le_of_pieces? hps) hlen
  generalize hs' : chars (ps.map (Piece.rename f)) ++ b = s' at hpieces hexpr
  have hcut : pieces? (String.ofList s').toList = some (ps.map (Piece.rename f), b) := by
    rw [String.toList_ofList, hpieces]
  have hnames' := freeNames_of_pieces? hcut
  refine ⟨String.ofList s', e', ?_, ?_, he, _, _, hnames, hnames', fun n => mem_names_rename hf hvar⟩
  · rw [renameNames, hps]
    simp only [hs']
  · rw [Expr.parse_eq_ok_iff, String.toList_ofList, hexpr]

end ColouredPetri
