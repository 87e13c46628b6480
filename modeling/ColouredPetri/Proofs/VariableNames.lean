import Mathlib.Data.List.TakeWhile
import ColouredPetri.Proofs.TextRenaming
import ColouredPetri.Proofs.VariableRenaming

namespace ColouredPetri

open Lexer

def IsAscii (n : String) : Prop := ∀ c ∈ n.toList, c.toNat < 128

instance : DecidablePred IsAscii := fun n => List.decidableBAll (fun c : Char => c.toNat < 128) n.toList

structure Usable (n : String) : Prop where
  tokens : tokenize n = .ok [⟨.name, n, 0⟩]
  isVariable : Token.isVariable ⟨.name, n, 0⟩ = true
  parse : Expr.parse n = .ok (.name n)

def IsWord (n : String) : Prop :=
  ∃ c l, n.toList = c :: l ∧ isNameStart c = true ∧ (∀ d ∈ l, Text.isWordChar d = true) ∧
    keywords.contains n = false

variable {n : String}

lemma isNameChar_of_isWordChar {c : Char} (h : Text.isWordChar c = true) (hc : c.toNat < 128) :
    isNameChar c = true :=
  Text.Reader.forall_ascii (P := fun c => Text.isWordChar c = true → isNameChar c = true)
    (by decide +kernel) hc h

lemma isWord_of_isVariableName (h : isVariableName n = true) : IsWord n := by
  rw [isVariableName] at h
  split at h
  · cases h
  · next c l hn =>
    simp only [Bool.and_eq_true, Bool.not_eq_true', List.all_eq_true] at h
    obtain ⟨⟨hc, hl⟩, hk⟩ := h
    exact ⟨c, l, hn, by rw [isNameStart, hc]; rfl, hl, hk⟩

namespace IsName

lemma cons (h : IsName n) : ∃ c l, n.toList = c :: l ∧ isNameStart c = true ∧
    ∀ d ∈ l, isNameChar d = true := by
  obtain ⟨hi, -⟩ := h
  cases hn : n.toList with
  | nil =>
    rw [hn] at hi
    cases hi
  | cons c l =>
    rw [hn] at hi
    obtain ⟨hc, hl⟩ := Bool.and_eq_true_iff.1 hi
    exact ⟨c, l, rfl, hc, List.all_eq_true.1 hl⟩

lemma isWord (h : IsName n) : IsWord n := by
  obtain ⟨c, l, hn, hc, hl⟩ := h.cons
  exact ⟨c, l, hn, hc, fun d hd => isWordChar_of_isNameChar (hl d hd), h.2⟩

lemma usable (h : IsName n) : Usable n := by
  have htoken : token? .name (n.toList ++ []) = some (n.toList, []) :=
    identifier?_eq_some_iff.2 ⟨rfl, h.1, breaks_nil⟩
  have hend : pieces? [] = some ([], []) := by
    rw [pieces?, if_pos (show skipBlanks [] = [] from rfl)]
  have hpieces := pieces?_spliced (List.forall_mem_nil _) htoken
  rw [hend, List.append_nil, List.nil_append] at hpieces
  have hparse := Expr.parse_of_writable (y := ⟨true, true⟩) (.name h.1 h.2)
  rw [Expr.print, Expr.chars, String.ofList_toList] at hparse
  refine ⟨?_, by rw [Token.isVariable, h.2]; rfl, hparse⟩
  rw [tokenize_of_pieces? hpieces, tokens, tokens, String.ofList_toList]
  rfl

end IsName

lemma IsWord.isName (h : IsWord n) (ha : IsAscii n) : IsName n := by
  obtain ⟨c, l, hn, hc, hl, hk⟩ := h
  rw [IsAscii, hn] at ha
  refine ⟨?_, hk⟩
  rw [hn, isIdentifier, hc, Bool.true_and, List.all_eq_true]
  exact fun d hd => isNameChar_of_isWordChar (hl d hd) (ha d (.tail _ hd))

namespace Lexer

variable {f : String → String} {s e b r : List Char} {ps : List Piece} {c : Char} {k : TokenKind}

lemma toNat_lt_of_startKind? (h : startKind? c = some k) : c.toNat < 128 := by
  rw [startKind?] at h
  split at h
  · next hc => exact toNat_lt_of_isNameChar (isNameChar_of_isNameStart hc)
  · split at h
    · next hc => exact toNat_lt_of_isDigit hc
    · split at h
      · next hc =>
        simp only [isQuote, Bool.or_eq_true, beq_iff_eq] at hc
        rcases hc with rfl | rfl <;> decide
      · split at h
        · next hc =>
          simp only [startsSymbol, isSymbolChar, Bool.or_eq_true, beq_iff_eq,
            List.contains_iff_mem] at hc
          rcases hc with (hc | rfl) | rfl
          · have hall : "+-*/%<>(),".toList.all (fun c => c.toNat < 128) = true := by decide
            exact of_decide_eq_true (List.all_eq_true.1 hall c hc)
          · decide
          · decide
        · cases h

lemma pieces?_of_foreign (hs : s.head? = some c) (hc : 128 ≤ c.toNat) : pieces? s = none := by
  obtain ⟨r, rfl⟩ := List.head?_eq_some_iff.1 hs
  have hspace : ¬ isSpace c = true := fun hc' => by
    simp only [isSpace, Bool.or_eq_true, beq_iff_eq] at hc'
    rcases hc' with ((rfl | rfl) | rfl) | rfl <;> exact absurd hc (by decide)
  have hskip : skipBlanks (c :: r) = c :: r := List.dropWhile_cons_of_neg hspace
  cases h : pieces? (c :: r) with
  | none => rfl
  | some x =>
    obtain ⟨ps, e⟩ := x
    obtain ⟨hblank, -⟩ | ⟨k, t, u, qs, ht, -⟩ := pieces?_eq_some h
    · rw [hskip] at hblank
      cases hblank
    · rw [hskip] at ht
      exact absurd (toNat_lt_of_startKind? (startKind?_of_token? ht)) (Nat.not_lt.2 hc)

lemma pieces?_of_foreign_word (hn : IsWord n) (ha : ¬ IsAscii n) (hb : ∀ c ∈ b, isSpace c = true) :
    pieces? (b ++ (n.toList ++ r)) = none := by
  -- the name ends before the character of another script, and no token begins with that
  obtain ⟨c, l, hn, hc, hl, -⟩ := hn
  have hsolid : Solid n.toList := ⟨c, l, hn, isSpace_of_startKind? (if_pos hc)⟩
  have hskip : skipBlanks (b ++ (n.toList ++ r)) = n.toList ++ r := dropWhile_append hb hsolid.breaks
  have htoken : token? .name (n.toList ++ r) =
      some (c :: (l ++ r).takeWhile isNameChar, (l ++ r).dropWhile isNameChar) := by
    rw [hn]
    exact if_pos hc
  obtain ⟨d, hd, hforeign⟩ : ∃ d, ((l ++ r).dropWhile isNameChar).head? = some d ∧ 128 ≤ d.toNat := by
    cases hdrop : l.dropWhile isNameChar with
    | nil =>
      have hall := List.dropWhile_eq_nil_iff.1 hdrop
      refine absurd ?_ ha
      rw [IsAscii, hn]
      exact List.forall_mem_cons.2 ⟨toNat_lt_of_isNameChar (isNameChar_of_isNameStart hc),
        fun d hd => toNat_lt_of_isNameChar (hall d hd)⟩
    | cons d m =>
      have hmem : d ∈ l := (List.dropWhile_sublist isNameChar).subset (hdrop ▸ List.mem_cons_self)
      refine ⟨d, by rw [List.dropWhile_append, hdrop]; rfl, Nat.not_lt.1 fun hlt => ?_⟩
      have hname := isNameChar_of_isWordChar (hl d hmem) hlt
      rw [head_dropWhile hdrop] at hname
      cases hname
  rw [pieces?_of_token? (hskip.symm ▸ htoken), pieces?_of_foreign hd hforeign]
  rfl

lemma pieces?_of_foreign_rename (h : pieces? s = some (ps, e))
    (hf : ∀ q ∈ ps, q.isVariable = true → IsWord (f (String.ofList q.text)))
    (hex : ∃ q ∈ ps, q.isVariable = true ∧ ¬ IsAscii (f (String.ofList q.text))) :
    pieces? (chars (ps.map (Piece.rename f)) ++ e) = none := by
  -- induction on the pieces: what stands before the first foreign name is cut as before
  induction ps generalizing s with
  | nil => obtain ⟨q, hq, -⟩ := hex; cases hq
  | cons q qs ih =>
    obtain ⟨-, hps, -⟩ | ⟨k, t, r, qs, ht, hps, hr⟩ := pieces?_eq_some h
    · cases hps
    · cases hps
      obtain ⟨hq, hqs⟩ := List.forall_mem_cons.1 hf
      rw [chars_rename_cons]
      by_cases hforeign : Piece.isVariable ⟨blanks s, k, t⟩ = true ∧ ¬ IsAscii (f (String.ofList t))
      · rw [Piece.rename, if_pos hforeign.1]
        exact pieces?_of_foreign_word (hq hforeign.1) hforeign.2 forall_blanks
      · have hname : Piece.isVariable ⟨blanks s, k, t⟩ = true → IsName (f (String.ofList t)) :=
          fun hv => (hq hv).isName (by_contra fun ha => hforeign ⟨hv, ha⟩)
        have hrest := ih hr hqs ((List.exists_mem_cons_iff _ _ _).1 hex |>.resolve_left hforeign)
        have hstart : SameStart r (chars (qs.map (Piece.rename f)) ++ e) :=
          sameStart_renamed hr fun q hq hv => by
            obtain ⟨c, l, hn, hc, -⟩ := hqs q hq hv
            exact ⟨c, by rw [hn]; rfl, hc⟩
        generalize chars (qs.map (Piece.rename f)) ++ e = r' at hrest hstart
        have ht' := token?_rename (f := f) (P := fun n => IsName (f n)) (q := ⟨blanks s, k, t⟩)
          (fun _ h => h) hname ((token?_append ht).2.symm ▸ ht) hstart
        rw [pieces?_spliced forall_blanks ht', hrest]
        rfl

end Lexer

lemma parse_of_pieces?_none {source : String} (h : pieces? source.toList = none) :
    Expr.parse source = .error (.malformed source) := by
  cases hparse : Expr.parse source with
  | ok e =>
    obtain ⟨ps, b, hps⟩ := pieces?_of_parse hparse
    rw [h] at hps
    cases hps
  | error d =>
    rw [Expr.parse] at hparse
    split at hparse <;> cases hparse
    rfl

lemma usable_iff (h : IsWord n) : Usable n ↔ IsAscii n := by
  refine ⟨fun husable => by_contra fun ha => ?_, fun ha => (h.isName ha).usable⟩
  have hnone := pieces?_of_foreign_word (b := []) (r := []) h ha nofun
  rw [List.nil_append, List.append_nil] at hnone
  have hparse := husable.parse
  rw [parse_of_pieces?_none hnone] at hparse
  cases hparse

namespace Formula

variable {φ : Formula} {e : Expr} {r : Binding} {ps : List Piece} {b : List Char}

def GivesVariables (r : Binding) (names : KeySet String) : Prop :=
  ∀ m ∈ names.keys, r.rename m = m ∨ isVariableName (r.rename m) = true

lemma isWord_of_givesVariables (h : pieces? φ.source.toList = some (ps, b))
    (hr : GivesVariables r (KeySet.ofList ((ps.filter Piece.isVariable).map
      fun q => String.ofList q.text))) :
    ∀ q ∈ ps, q.isVariable = true → IsWord (r.rename (String.ofList q.text)) := by
  intro q hq hv
  rcases hr _ (mem_names.2 ⟨q, hq, hv, rfl⟩) with hsame | hvar
  · rw [hsame]
    exact (isName_of_mem_pieces h hq hv).isWord
  · exact isWord_of_isVariableName hvar

lemma rename_readable (h : Expr.parse φ.source = .ok e) : ∃ names, φ.vars = .ok names ∧
    (GivesVariables r names → ∃ φ', φ.rename r = .ok φ' ∧
      ((∀ m ∈ names.keys, IsAscii (r.rename m)) →
        (∃ e', Expr.parse φ'.source = .ok e') ∧
          φ'.vars = .ok (KeySet.ofList (names.keys.map r.rename))) ∧
      ((∃ m ∈ names.keys, ¬ IsAscii (r.rename m)) →
        Expr.parse φ'.source = .error (.malformed φ'.source))) := by
  obtain ⟨ps, b, hps⟩ := pieces?_of_parse h
  have hnames := freeNames_of_pieces? hps
  refine ⟨_, hnames, fun hr => ?_⟩
  have hword := isWord_of_givesVariables hps hr
  refine ⟨_, by rw [Formula.rename, renameNames_of_pieces? hps], fun hascii => ?_, ?_⟩
  · have hP : ∀ names, freeNames φ.source = .ok names → ∀ n ∈ names.keys, IsName (r.rename n) := by
      intro names hfree n hn
      cases hnames.symm.trans hfree
      obtain ⟨q, hq, hv, rfl⟩ := mem_names.1 hn
      exact (hword q hq hv).isName (hascii _ hn)
    obtain ⟨source', e', hsource, hparse, -, names, names', hfree, hfree', hkeys⟩ :=
      renameNames_of_parse (f := r.rename) (P := fun n => IsName (r.rename n)) (fun _ h => h) h hP
    cases (renameNames_of_pieces? hps).symm.trans hsource
    cases hnames.symm.trans hfree
    have hrenames : KeySet.Renames r.rename _ names' := hkeys
    exact ⟨⟨e', hparse⟩, hfree'.trans (congrArg _ hrenames.eq_ofList)⟩
  · rintro ⟨m, hm, hforeign⟩
    obtain ⟨q, hq, hv, rfl⟩ := mem_names.1 hm
    refine parse_of_pieces?_none ?_
    rw [String.toList_ofList]
    exact pieces?_of_foreign_rename hps hword ⟨q, hq, hv, hforeign⟩

end Formula

/-- Of the names that variables may have the ASCII ones are single tokens and are read as names, and
no others. Renaming the names of a formula to such names gives a formula with these names, which
can be read exactly if all of them are ASCII texts. -/
theorem variable_names_usable (n : String) (φ : Formula) (r : Binding) :
    (isVariableName n = true → (Usable n ↔ IsAscii n)) ∧
      ∀ e, Expr.parse φ.source = .ok e →
        ∃ names, φ.vars = .ok names ∧ (Formula.GivesVariables r names →
          ∃ φ', φ.rename r = .ok φ' ∧
            ((∀ m ∈ names.keys, IsAscii (r.rename m)) →
              (∃ e', Expr.parse φ'.source = .ok e') ∧
                φ'.vars = .ok (KeySet.ofList (names.keys.map r.rename))) ∧
            ((∃ m ∈ names.keys, ¬ IsAscii (r.rename m)) →
              Expr.parse φ'.source = .error (.malformed φ'.source))) :=
  ⟨fun h => usable_iff (isWord_of_isVariableName h), fun _ h => Formula.rename_readable h⟩

theorem variable_names_usable_counting : isVariableName "count_2" = true ∧ Usable "count_2" ∧
    ∃ φ', (Formula.mk "x > 0").rename (.single "x" (.str "count_2")) = .ok φ' ∧
      (∃ e', Expr.parse φ'.source = .ok e') ∧ φ'.vars = .ok (KeySet.ofList ["count_2"]) := by
  have hvar : isVariableName "count_2" = true := by decide +kernel
  have hparse : Expr.parse "x > 0" = .ok (.compare .gt (.name "x") (.lit (.int 0))) := by rfl
  have hx : (Formula.mk "x > 0").vars = .ok (KeySet.ofList ["x"]) := by decide +kernel
  obtain ⟨hname, hformula⟩ :=
    variable_names_usable "count_2" ⟨"x > 0"⟩ (.single "x" (.str "count_2"))
  obtain ⟨names, hvars, hrename⟩ := hformula _ hparse
  cases hx.symm.trans hvars
  obtain ⟨φ', hφ', hread, -⟩ :=
    hrename (List.forall_mem_singleton.2 (.inr (by decide +kernel)))
  have hascii : IsAscii "count_2" := by decide
  exact ⟨hvar, (hname hvar).2 hascii, φ', hφ', hread (List.forall_mem_singleton.2 hascii)⟩

/-- A letter with an accent is allowed in a variable, and ends the name in a text. -/
theorem accented_name_unusable : isVariableName "xé" = true ∧
    tokenize "xé" = .error (.malformed "xé") ∧ Expr.parse "xé" = .error (.malformed "xé") ∧
    (Formula.mk "x > 0").rename (.single "x" (.str "xé")) = .ok ⟨"xé > 0"⟩ ∧
    Expr.parse "xé > 0" = .error (.malformed "xé > 0") :=
  ⟨by decide +kernel, by decide +kernel, by rfl, by decide +kernel, by rfl⟩

end ColouredPetri
