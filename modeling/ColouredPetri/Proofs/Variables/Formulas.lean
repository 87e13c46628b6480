import ColouredPetri.Formula
import ColouredPetri.Proofs.Expressions.RenamedTexts
import ColouredPetri.Proofs.Variables.Parallel

namespace ColouredPetri

variable {f : String → String} {P : String → Prop} {s s' : Scope}

def Scope.Renames (f : String → String) (P : String → Prop) (s s' : Scope) : Prop :=
  ∀ n, P n → s'.lookup? (f n) = s.lookup? n

namespace Expr

abbrev SameValue {α : Type} (x y : Except EvalError α) : Prop := Parallel (fun _ _ => True) Eq x y

section SameValue

variable {α : Type} {x y : Except EvalError α}

lemma sameValue_self (x : Except EvalError α) : SameValue x x := by
  cases x with
  | ok a => exact .ok rfl
  | error e => exact .error trivial

lemma SameValue.bind {β : Type} {g k : α → Except EvalError β} (h : SameValue x y)
    (hg : ∀ a, SameValue (g a) (k a)) : SameValue (x >>= g) (y >>= k) :=
  Parallel.bind h fun a _ hab => hab ▸ hg a

end SameValue

mutual

lemma eval_renames (hs : s.Renames f P s') : ∀ {e e' : Expr}, Renames f P e e' →
    SameValue (eval s e) (eval s' e')
  | _, _, .lit v => by
    rw [eval, eval]
    exact sameValue_self _
  | .name n, _, .name h => by
    -- not the same outcome: an error has the name that was asked for
    rw [eval, eval, hs n h]
    cases s.lookup? n with
    | some v => exact .ok rfl
    | none => exact .error trivial
  | _, _, .tuple h => by
    rw [eval_tuple, eval_tuple]
    exact (evalItems_renames hs h).bind fun _ => sameValue_self _
  | _, _, .neg h => by
    rw [eval_neg, eval_neg]
    exact (eval_renames hs h).bind fun _ => sameValue_self _
  | _, _, .arith ha hb => by
    rw [eval_arith, eval_arith]
    exact (eval_renames hs ha).bind fun _ => (eval_renames hs hb).bind fun _ => sameValue_self _
  | _, _, .compare ha hb => by
    rw [eval_compare, eval_compare]
    exact (eval_renames hs ha).bind fun _ => (eval_renames hs hb).bind fun _ => sameValue_self _
  | _, _, .and ha hb => by
    rw [eval_and, eval_and]
    refine (eval_renames hs ha).bind fun a => ?_
    split
    · exact eval_renames hs hb
    · exact sameValue_self _
  | _, _, .or ha hb => by
    rw [eval_or, eval_or]
    refine (eval_renames hs ha).bind fun a => ?_
    split
    · exact sameValue_self _
    · exact eval_renames hs hb
  | _, _, .not h => by
    rw [eval_not, eval_not]
    exact (eval_renames hs h).bind fun _ => sameValue_self _

lemma evalItems_renames (hs : s.Renames f P s') : ∀ {l l' : List Expr}, RenamesAll f P l l' →
    SameValue (evalItems s l) (evalItems s' l')
  | _, _, .nil => by
    rw [evalItems, evalItems]
    exact sameValue_self _
  | _, _, .cons h hl => by
    rw [evalItems_cons, evalItems_cons]
    exact (eval_renames hs h).bind fun _ =>
      (evalItems_renames hs hl).bind fun _ => sameValue_self _

end

end Expr

namespace Lexer

lemma token_of_mem_pieces {t e : List Char} {ps : List Piece} {q : Piece}
    (h : pieces? t = some (ps, e)) (hq : q ∈ ps) :
    ∃ u r, token? q.kind u = some (q.text, r) := by
  induction ps generalizing t with
  | nil => exact absurd hq List.not_mem_nil
  | cons p ps ih =>
    obtain ⟨-, hps, -⟩ | ⟨k, w, r, qs, hw, hps, hr⟩ := pieces?_eq_some h
    · cases hps
    · cases hps
      rcases List.mem_cons.1 hq with rfl | hq
      · exact ⟨_, r, hw⟩
      · exact ih hr hq

lemma isIdentifier_of_mem_pieces {t e : List Char} {ps : List Piece} {q : Piece}
    (h : pieces? t = some (ps, e)) (hq : q ∈ ps) (hv : q.isVariable = true) :
    isIdentifier q.text = true ∧ keywords.contains (String.ofList q.text) = false := by
  simp only [Piece.isVariable, Bool.and_eq_true, beq_iff_eq, Bool.not_eq_true'] at hv
  obtain ⟨u, r, hu⟩ := token_of_mem_pieces h hq
  rw [hv.1] at hu
  exact ⟨(identifier?_eq_some_iff.1 hu).2.1, hv.2⟩

lemma name_of_mem_freeNames {source : String} {e : Expr} {names : KeySet String} {n : String}
    (h : Expr.parse source = .ok e) (hnames : freeNames source = .ok names) (hn : n ∈ names.keys) :
    isIdentifier n.toList = true ∧ keywords.contains n = false := by
  obtain ⟨ps, b, hps⟩ := pieces?_of_parse h
  cases hnames.symm.trans (freeNames_of_pieces? hps)
  obtain ⟨q, hq, hv, rfl⟩ := mem_names.1 hn
  rw [String.toList_ofList]
  exact isIdentifier_of_mem_pieces hps hq hv

end Lexer

def KeepsNames (f : String → String) (P : String → Prop) : Prop :=
  Parser.Sound f fun n => P n ∧ Lexer.isIdentifier n.toList = true ∧ keywords.contains n = false

namespace Formula

variable {φ φ' : Formula}

def Renames (f : String → String) (P : String → Prop) (φ φ' : Formula) : Prop :=
  ∀ s s', Scope.Renames f P s s' → Expr.SameValue (φ.eval s) (φ'.eval s')

lemma Renames.holds (h : Renames f P φ φ') (hs : s.Renames f P s') :
    Expr.SameValue (φ.holds s) (φ'.holds s') := by
  rw [holds_eq, holds_eq]
  exact (h s s' hs).bind fun _ => Expr.sameValue_self _

lemma eval_of_parse {e : Expr} (h : Expr.parse φ.source = .ok e) : φ.eval s = e.eval s := by
  rw [Formula.eval]
  split
  · next ht =>
    rw [eq_of_beq ht] at h
    cases (show Expr.parse "True" = .ok (.lit (.bool true)) from rfl).symm.trans h
    rw [Expr.eval]
  · rw [h]

lemma knownVars_of_freeNames {names : KeySet String} (h : freeNames φ.source = .ok names) :
    φ.knownVars = names := by
  rw [knownVars, vars, h]

lemma exists_rename {r : Binding} {e : Expr} (hf : KeepsNames r.rename P)
    (h : Expr.parse φ.source = .ok e) (hP : ∀ n ∈ φ.knownVars.keys, P n) :
    ∃ φ', φ.rename r = .ok φ' ∧ Renames r.rename P φ φ' ∧
      ∀ n, n ∈ φ'.knownVars.keys ↔ ∃ m ∈ φ.knownVars.keys, r.rename m = n := by
  obtain ⟨source', e', hsource, hparse, he, names, names', hnames, hnames', hkeys⟩ :=
    renameNames_of_parse hf h fun names hnames n hn =>
      ⟨hP n (knownVars_of_freeNames hnames ▸ hn), Lexer.name_of_mem_freeNames h hnames hn⟩
  have heval : ∀ s', eval ⟨source'⟩ s' = e'.eval s' := fun _ => eval_of_parse hparse
  have hvars : knownVars ⟨source'⟩ = names' := knownVars_of_freeNames hnames'
  refine ⟨⟨source'⟩, by rw [Formula.rename, hsource], fun s s' hs => ?_, fun n => ?_⟩
  · rw [eval_of_parse h, heval]
    exact Expr.eval_renames (fun n hn => hs n hn.1) he
  · rw [knownVars_of_freeNames hnames, hvars, hkeys]

end Formula

end ColouredPetri
