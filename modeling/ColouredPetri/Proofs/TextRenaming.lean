import ColouredPetri.Proofs.Variables.Transitions

/-! Other names for the variables of a text, read or not. Renaming acts on the tokens alone: each
variable is replaced and nothing else, so that one renaming after another is their composite. -/

namespace ColouredPetri

open Lexer

def IsName (n : String) : Prop := isIdentifier n.toList = true ∧ keywords.contains n = false

instance : DecidablePred IsName := fun _ => inferInstanceAs (Decidable (_ ∧ _))

namespace Lexer

variable {f g : String → String} {P : String → Prop} {s e : List Char} {ps : List Piece} {q : Piece}

lemma chars_of_pieces? (h : pieces? s = some (ps, e)) : chars ps ++ e = s := by
  induction ps generalizing s with
  | nil =>
    obtain ⟨-, -, rfl⟩ | ⟨k, t, r, qs, -, hps, -⟩ := pieces?_eq_some h
    · rfl
    · cases hps
  | cons q qs ih =>
    obtain ⟨-, hps, -⟩ | ⟨k, t, r, qs, ht, hps, hr⟩ := pieces?_eq_some h
    · cases hps
    · cases hps
      calc chars (⟨blanks s, k, t⟩ :: qs) ++ e
          = blanks s ++ (t ++ (chars qs ++ e)) := by simp [chars, Piece.chars]
        _ = blanks s ++ skipBlanks s := by rw [ih hr, (token?_append ht).2]
        _ = s := skipBlanks_append s

lemma isName_of_mem_pieces (h : pieces? s = some (ps, e)) (hq : q ∈ ps)
    (hv : q.isVariable = true) : IsName (String.ofList q.text) := by
  rw [IsName, String.toList_ofList]
  exact isIdentifier_of_mem_pieces h hq hv

lemma rename_id : q.rename id = q := by
  rw [Piece.rename]
  split
  · rw [id, String.toList_ofList]
  · rfl

lemma rename_rename (hf : Parser.Sound f P) (hP : q.isVariable = true → P (String.ofList q.text)) :
    (q.rename f).rename g = q.rename (g ∘ f) := by
  obtain ⟨hvar, htext⟩ := variable_rename hf hP
  by_cases hv : q.isVariable = true
  · have hv' : (q.rename f).isVariable = true := hvar.trans hv
    rw [Piece.rename, if_pos hv', htext hv, Piece.rename, if_pos hv, Piece.rename, if_pos hv]
    rfl
  · have hself : ∀ f, q.rename f = q := fun f => if_neg hv
    rw [hself, hself, hself]

lemma map_tokens {α : Type} (p : TokenKind → String → α) {start : Nat} :
    (tokens start ps).map (fun t => p t.kind t.text) =
      ps.map fun q => p q.kind (String.ofList q.text) := by
  induction ps generalizing start with
  | nil => rfl
  | cons q ps ih => rw [tokens, List.map_cons, List.map_cons, ih]

lemma map_tokens_rename {start : Nat} :
    (tokens start (ps.map (Piece.rename f))).map (fun t => (t.kind, t.text)) =
      (tokens start ps).map fun t => (t.kind, if t.isVariable then f t.text else t.text) := by
  let renamed := fun (k : TokenKind) (n : String) =>
    (k, if k == .name && !keywords.contains n then f n else n)
  calc (tokens start (ps.map (Piece.rename f))).map (fun t => (t.kind, t.text))
      = ps.map fun q => ((q.rename f).kind, String.ofList (q.rename f).text) := by
        rw [map_tokens Prod.mk, List.map_map]
        rfl
    _ = ps.map fun q => renamed q.kind (String.ofList q.text) := by
        refine List.map_congr_left fun q _ => ?_
        change _ = (q.kind, if q.isVariable then f (String.ofList q.text) else String.ofList q.text)
        rw [Piece.rename]
        split
        · rw [String.ofList_toList]
        · rfl
    _ = (tokens start ps).map fun t => renamed t.kind t.text := (map_tokens renamed).symm

end Lexer

variable {f g : String → String} {source : String} {ts : List Token}

structure RenamesText (f : String → String) (source source' : String) : Prop where
  renames : renameNames source f = .ok source'
  tokens : ∃ ts ts', tokenize source = .ok ts ∧ tokenize source' = .ok ts' ∧
    ts'.map (fun t => (t.kind, t.text)) =
      ts.map fun t => (t.kind, if t.isVariable then f t.text else t.text)
  names : ∃ names, freeNames source = .ok names ∧
    freeNames source' = .ok (KeySet.ofList (names.keys.map f))

lemma renameNames_of_pieces? {ps : List Piece} {b : List Char}
    (h : pieces? source.toList = some (ps, b)) :
    renameNames source f = .ok (String.ofList (chars (ps.map (Piece.rename f)) ++ b)) := by
  rw [renameNames, h]

lemma tokenize_of_pieces? {ps : List Piece} {b : List Char}
    (h : pieces? source.toList = some (ps, b)) : tokenize source = .ok (tokens 0 ps) := by
  rw [tokenize, h]

lemma pieces?_of_tokenize (h : tokenize source = .ok ts) :
    ∃ ps b, pieces? source.toList = some (ps, b) := by
  rw [tokenize] at h
  split at h
  · cases h
  · next ps b hps => exact ⟨ps, b, hps⟩

lemma renamesText_of_pieces? (hf : ∀ n, IsName n → IsName (f n)) {ps : List Piece} {b : List Char}
    (h : pieces? source.toList = some (ps, b))
    (h' : pieces? (chars (ps.map (Piece.rename f)) ++ b) = some (ps.map (Piece.rename f), b)) :
    RenamesText f source (String.ofList (chars (ps.map (Piece.rename f)) ++ b)) := by
  have hnames : ∀ q ∈ ps, q.isVariable = true → IsName (String.ofList q.text) :=
    fun q hq hv => isName_of_mem_pieces h hq hv
  have hcut : pieces? (String.ofList (chars (ps.map (Piece.rename f)) ++ b)).toList =
      some (ps.map (Piece.rename f), b) := by
    rw [String.toList_ofList, h']
  refine ⟨renameNames_of_pieces? h, ⟨_, _, tokenize_of_pieces? h, tokenize_of_pieces? hcut, ?_⟩,
    ⟨_, freeNames_of_pieces? h, ?_⟩⟩
  · exact map_tokens_rename
  · have hrenames : KeySet.Renames f
        (KeySet.ofList ((ps.filter Piece.isVariable).map fun q => String.ofList q.text))
        (KeySet.ofList (((ps.map (Piece.rename f)).filter Piece.isVariable).map
          fun q => String.ofList q.text)) := fun n => mem_names_rename hf hnames
    rw [freeNames_of_pieces? hcut, hrenames.eq_ofList]

theorem renaming_functorial (h : tokenize source = .ok ts) (hf : ∀ n, IsName n → IsName (f n))
    (g : String → String) :
    renameNames source id = .ok source ∧
      ∃ source', RenamesText f source source' ∧
        ∃ source'', renameNames source' g = .ok source'' ∧
          renameNames source (g ∘ f) = .ok source'' := by
  obtain ⟨ps, b, hps⟩ := pieces?_of_tokenize h
  have hnames : ∀ q ∈ ps, q.isVariable = true → IsName (String.ofList q.text) :=
    fun q hq hv => isName_of_mem_pieces hps hq hv
  obtain ⟨hrenamed, -⟩ := renamed_pieces hf hps hnames
  refine ⟨?_, _, renamesText_of_pieces? hf hps hrenamed, _,
    renameNames_of_pieces? (by rw [String.toList_ofList, hrenamed]), ?_⟩
  · have hid : ps.map (Piece.rename id) = ps := List.map_id'' (fun _ => rename_id) ps
    rw [renameNames_of_pieces? hps, hid, chars_of_pieces? hps, String.ofList_toList]
  · have hcomp : (ps.map (Piece.rename f)).map (Piece.rename g) = ps.map (Piece.rename (g ∘ f)) := by
      rw [List.map_map]
      exact List.map_congr_left fun q hq => rename_rename hf (hnames q hq)
    rw [renameNames_of_pieces? hps, hcomp]

def exchange (n : String) : String :=
  if n = "x" then "y_1" else if n = "y" then "x" else n

lemma isName_exchange {n : String} (h : IsName n) : IsName (exchange n) := by
  rw [exchange]
  split
  · decide
  · split
    · decide
    · exact h

def crowded : String := "1x'été'(y and x"

theorem renaming_functorial_crowded :
    tokenize crowded = .ok [⟨.number, "1", 0⟩, ⟨.name, "x", 1⟩, ⟨.text, "'été'", 2⟩,
      ⟨.symbol, "(", 9⟩, ⟨.name, "y", 10⟩, ⟨.name, "and", 12⟩, ⟨.name, "x", 16⟩] ∧
    RenamesText exchange crowded "1y_1'été'(x and y_1" ∧
    renameNames "1y_1'été'(x and y_1" exchange = renameNames crowded (exchange ∘ exchange) := by
  have htokens : tokenize crowded = .ok [⟨.number, "1", 0⟩, ⟨.name, "x", 1⟩, ⟨.text, "'été'", 2⟩,
      ⟨.symbol, "(", 9⟩, ⟨.name, "y", 10⟩, ⟨.name, "and", 12⟩, ⟨.name, "x", 16⟩] := by
    decide +kernel
  obtain ⟨-, source', hrenames, source'', hagain, hcomp⟩ :=
    renaming_functorial htokens (fun _ => isName_exchange) exchange
  have hsource : renameNames crowded exchange = .ok "1y_1'été'(x and y_1" := by decide +kernel
  cases hsource.symm.trans hrenames.renames
  exact ⟨htokens, hrenames, hagain.trans hcomp.symm⟩

end ColouredPetri
