import ColouredPetri.Proofs.Expressions.Tallies
import ColouredPetri.Proofs.Variables.OpenNames

/-! The names of an expression. The names that the text is cut into are those that the parser reads,
and they are all that an evaluation depends on. -/

namespace ColouredPetri

variable {s s' : Scope}

namespace Expr

mutual

lemma eval_congr : ∀ {e : Expr}, (∀ n ∈ names e, s.lookup? n = s'.lookup? n) →
    eval s e = eval s' e
  | .lit _, _ => by rw [eval, eval]
  | .name n, h => by rw [eval, eval, h n (List.mem_singleton_self n)]
  | .tuple _, h => by rw [eval, eval, evalItems_congr h]
  | .neg operand, h => by rw [eval, eval, eval_congr (e := operand) h]
  | .arith _ left right, h => by
    obtain ⟨hl, hr⟩ := List.forall_mem_append.1 h
    rw [eval, eval, eval_congr hl, eval_congr hr]
  | .compare _ left right, h => by
    obtain ⟨hl, hr⟩ := List.forall_mem_append.1 h
    rw [eval, eval, eval_congr hl, eval_congr hr]
  | .and left right, h => by
    obtain ⟨hl, hr⟩ := List.forall_mem_append.1 h
    rw [eval, eval, eval_congr hl, eval_congr hr]
  | .or left right, h => by
    obtain ⟨hl, hr⟩ := List.forall_mem_append.1 h
    rw [eval, eval, eval_congr hl, eval_congr hr]
  | .not operand, h => by rw [eval, eval, eval_congr (e := operand) h]

lemma evalItems_congr : ∀ {l : List Expr}, (∀ n ∈ namesAll l, s.lookup? n = s'.lookup? n) →
    evalItems s l = evalItems s' l
  | [], _ => by rw [evalItems, evalItems]
  | _ :: _, h => by
    obtain ⟨he, hl⟩ := List.forall_mem_append.1 h
    rw [evalItems, evalItems, eval_congr he, evalItems_congr hl]

end

variable {source : String} {e : Expr}

lemma variables_of_parse (h : parse source = .ok e) : ∃ ts, tokenize source = .ok ts ∧
    (ts.filter Token.isVariable).map Token.text = e.names ∧
      freeNames source = .ok (KeySet.ofList e.names) := by
  have htally := Parser.tally?_of_expression (parse_eq_ok_iff.1 h)
  obtain ⟨⟨ps, b⟩, hps, hsum⟩ := Option.map_eq_some_iff.1 htally
  have hnames : (ps.filter Lexer.Piece.isVariable).map (fun p => String.ofList p.text) = e.names :=
    Lexer.Tally.names_ofPieces.symm.trans (congrArg Lexer.Tally.names hsum)
  refine ⟨Lexer.tokens 0 ps, by rw [tokenize, hps], Lexer.texts_tokens.trans hnames, ?_⟩
  rw [freeNames_of_pieces? hps, hnames]

end Expr

namespace Formula

structure Named (source : String) (e : Expr) (names : KeySet String) : Prop where
  tokens : ∃ ts, tokenize source = .ok ts ∧ (ts.filter Token.isVariable).map Token.text = e.names
  free : freeNames source = .ok names
  mem : ∀ n, n ∈ names.keys ↔ n ∈ e.names
  eval : ∀ s, (Formula.mk source).eval s = e.eval s
  congr : ∀ s s' : Scope, (∀ n ∈ names.keys, s.lookup? n = s'.lookup? n) →
    (Formula.mk source).eval s = (Formula.mk source).eval s'
  unbound : ∀ s n, (Formula.mk source).eval s = .error (.unboundName n) →
    n ∈ names.keys ∧ s.binding.get? n = none ∧ s.globals.get? n = none

variable {source : String} {e : Expr}

theorem named_of_parse (h : Expr.parse source = .ok e) : ∃ names, Named source e names := by
  obtain ⟨ts, hts, hvars, hfree⟩ := Expr.variables_of_parse h
  have heval : ∀ s, (Formula.mk source).eval s = e.eval s := fun s => eval_of_parse h
  have hmem : ∀ n, n ∈ (KeySet.ofList e.names).keys ↔ n ∈ e.names := fun _ =>
    KeySet.mem_keys_ofList
  refine ⟨_, ⟨ts, hts, hvars⟩, hfree, hmem, heval, fun s s' hagree => ?_, fun s n herror => ?_⟩
  · rw [heval, heval]
    exact Expr.eval_congr fun n hn => hagree n ((hmem n).2 hn)
  · obtain ⟨hn, hnone⟩ := wantsOnly_eval _ herror
    rw [knownVars_of_freeNames hfree] at hn
    exact ⟨hn, Scope.lookup_eq_none hnone⟩

theorem named_of_parse_crowded :
    ∃ e names, Expr.parse "x <1or'y'==z" = .ok e ∧ e.names = ["x", "z"] ∧
      Named "x <1or'y'==z" e names := by
  have hparse : Expr.parse "x <1or'y'==z" =
      .ok (.or (.compare .lt (.name "x") (.lit (.int 1)))
        (.compare .eq (.lit (.str "y")) (.name "z"))) := by rfl
  obtain ⟨names, hnamed⟩ := named_of_parse hparse
  exact ⟨_, names, hparse, by rfl, hnamed⟩

end Formula

end ColouredPetri
