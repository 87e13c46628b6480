import ColouredPetri.Proofs.ExpressionGrammar

/-! What a text holds in variables and in parentheses. The tally of a text is made of those of its
tokens, and each reader takes away the tally of what it reads. So the parser reads the variables that
the text is cut into, and closes as many parentheses as it opens. -/

namespace ColouredPetri

namespace Expr

mutual

def names : Expr → List String
  | lit _ => []
  | name n => [n]
  | tuple items => namesAll items
  | neg operand => names operand
  | arith _ left right => names left ++ names right
  | compare _ left right => names left ++ names right
  | and left right => names left ++ names right
  | or left right => names left ++ names right
  | not operand => names operand

def namesAll : List Expr → List String
  | [] => []
  | e :: l => names e ++ namesAll l

end

end Expr

namespace Lexer

/-- The variables of a text in their order, and how many more parentheses close in it than open. -/
structure Tally where
  names : List String
  surplus : Int
  deriving DecidableEq

namespace Tally

def empty : Tally := ⟨[], 0⟩

instance : Append Tally := ⟨fun x y => ⟨x.names ++ y.names, x.surplus + y.surplus⟩⟩

variable {x y z : Tally}

lemma append_eq : x ++ y = ⟨x.names ++ y.names, x.surplus + y.surplus⟩ := rfl

@[simp] lemma empty_append : empty ++ x = x := by simp [append_eq, empty]

@[simp] lemma append_empty : x ++ empty = x := by simp [append_eq, empty]

lemma append_assoc : x ++ y ++ z = x ++ (y ++ z) := by
  simp [append_eq, List.append_assoc, Int.add_assoc]

def ofToken : TokenKind → List Char → Tally
  | .name, t => ⟨if keywords.contains (String.ofList t) then [] else [String.ofList t], 0⟩
  | .symbol, t => ⟨[], if t = ['('] then -1 else if t = [')'] then 1 else 0⟩
  | _, _ => empty

def ofPieces (ps : List Piece) : Tally := ps.foldr (fun p x => ofToken p.kind p.text ++ x) empty

def ofExpr (e : Expr) : Tally := ⟨e.names, 0⟩

def total {α : Type} (N : α → Tally) (l : List α) : Tally := l.foldr (fun a x => N a ++ x) empty

lemma total_ofExpr {l : List Expr} : total ofExpr l = ⟨Expr.namesAll l, 0⟩ := by
  induction l with
  | nil => rfl
  | cons e l ih =>
    rw [total, List.foldr_cons, ← total, ih, Expr.namesAll]
    rfl

lemma names_ofPieces {ps : List Piece} :
    (ofPieces ps).names = (ps.filter Piece.isVariable).map fun p => String.ofList p.text := by
  induction ps with
  | nil => rfl
  | cons p ps ih =>
    have hp : (ofToken p.kind p.text).names =
        if p.isVariable then [String.ofList p.text] else [] := by
      rw [Piece.isVariable]
      cases p.kind with
      | name =>
        rw [ofToken]
        cases keywords.contains (String.ofList p.text) <;> rfl
      | _ => rfl
    rw [ofPieces, List.foldr_cons, ← ofPieces, append_eq, ih, hp, List.filter_cons]
    split <;> rfl

end Tally

variable {s t r u : List Char} {k : TokenKind} {x y : Tally}

def tally? (s : List Char) : Option Tally := (pieces? s).map fun x => Tally.ofPieces x.1

lemma tally?_of_blank (h : skipBlanks s = []) : tally? s = some Tally.empty := by
  rw [tally?, pieces?, if_pos h]
  rfl

lemma tally?_of_token? (h : token? k (skipBlanks s) = some (t, r)) :
    tally? s = (tally? r).map (Tally.ofToken k t ++ ·) := by
  rw [tally?, pieces?_of_token? h, tally?, Option.map_map, Option.map_map]
  rfl

lemma tally?_eq_none (h : ¬ Parser.Cut s) : tally? s = none := by
  rw [Parser.Cut, Option.not_isSome_iff_eq_none] at h
  rw [tally?, h]
  rfl

@[simp] lemma tally?_skipBlanks : tally? (skipBlanks s) = tally? s := by
  by_cases hcut : Parser.Cut s
  · obtain hs | ⟨k, t, r, ht, -⟩ := Parser.cut_iff.1 hcut
    · rw [tally?_of_blank hs, tally?_of_blank (by rw [hs]; rfl)]
    · rw [tally?_of_token? ht, tally?_of_token? (skipBlanks_skipBlanks.symm ▸ ht)]
  · rw [tally?_eq_none hcut, tally?_eq_none (mt Parser.cut_skipBlanks.1 hcut)]

def Splits (s : List Char) (x : Tally) (r : List Char) : Prop := tally? s = (tally? r).map (x ++ ·)

lemma splits_self : Splits s Tally.empty s := by
  rw [Splits]
  simp

lemma Splits.trans (h : Splits s x r) (h' : Splits r y u) : Splits s (x ++ y) u := by
  rw [Splits] at h h' ⊢
  rw [h, h', Option.map_map]
  exact congrArg (Option.map · _) (funext fun z => Tally.append_assoc.symm)

lemma Splits.around (h : Splits (skipBlanks s) x r) : Splits s x (skipBlanks r) := by
  rwa [Splits, tally?_skipBlanks] at h ⊢

end Lexer

namespace Parser

open Lexer Text Text.Reader

variable {α β γ : Type} {p : Reader α} {q : Reader β} {N : α → Tally} {M : β → Tally}
  {s r : List Char} {a : α} {n : Nat} {x : Tally}

def Accounts (p : Reader α) (N : α → Tally) : Prop :=
  ∀ ⦃s a r⦄, p s = some (a, r) → Splits s (N a) r

lemma accounts_token {k : TokenKind} {g : List Char → Option α} (hp : TokenReader k p g)
    (hg : ∀ {s t r a}, token? k s = some (t, r) → g t = some a → Tally.ofToken k t = N a) :
    Accounts p N := by
  intro s a r h
  rw [hp, Option.bind_eq_some_iff] at h
  obtain ⟨⟨t, r⟩, ht, h⟩ := h
  obtain ⟨a, ha, h⟩ := Option.map_eq_some_iff.1 h
  cases h
  rw [Splits, tally?_of_token? ((skipBlanks_of_token? ht).symm ▸ ht), hg ht ha]

lemma accounts_symbol (hp : TokenReader .symbol p fun t => (p t).map Prod.fst)
    (hall : ∀ t ∈ symbols, (p t).isSome = true → Tally.ofToken .symbol t = x) :
    Accounts p fun _ => x := by
  refine accounts_token hp fun {s t r a} ht ha => ?_
  obtain ⟨y, hy, -⟩ := Option.map_eq_some_iff.1 ha
  exact hall t (mem_symbols ht) (Option.isSome_of_mem hy)

lemma accounts_keyword {w : String} (hw : w ∈ keywords) (ha : N a = Tally.empty) :
    Accounts (keyword w a) N := by
  intro s b r h
  have ht : token? .name s = some (w.toList, r) :=
    keyword_identifier (isIdentifier_of_mem_keywords hw) h
  obtain ⟨-, -, rfl⟩ := keyword_eq_some_iff.1 h
  rw [Splits, tally?_of_token? ((skipBlanks_of_token? ht).symm ▸ ht), ha, Tally.ofToken,
    String.ofList_toList, if_pos (List.contains_iff_mem.2 hw)]
  rfl

lemma accounts_around (hp : Accounts p N) : Accounts (around p) N := by
  intro s a r h
  rw [around] at h
  split at h
  · cases h
  · next hs =>
    cases h
    exact (hp hs).around

lemma accounts_orElse {p' : Reader α} (hp : Accounts p N) (hp' : Accounts p' N) :
    Accounts (orElse p p') N := by
  intro s a r h
  rw [orElse] at h
  split at h
  · next hs =>
    cases h
    exact hp hs
  · exact hp' h

lemma accounts_both {f : α → β → γ} {K : γ → Tally} (hp : Accounts p N) (hq : Accounts q M)
    (hf : ∀ a b, K (f a b) = N a ++ M b) : Accounts (both p q f) K := by
  intro s c r h
  obtain ⟨a, u, b, hs, hu, rfl⟩ := both_eq_some h
  rw [hf]
  exact (hp hs).trans (hq hu)

lemma splits_manyUpTo (hp : Accounts p N) :
    Splits s (Tally.total N (manyUpTo p n s).1) (manyUpTo p n s).2 := by
  induction n generalizing s with
  | zero => exact splits_self
  | succ n ih =>
    rw [manyUpTo]
    cases hs : p s with
    | none => exact splits_self
    | some x => exact (hp hs).trans ih

section Expressions

open Tally

variable {p inner : Reader Expr}

lemma accounts_signed {sign : Reader Unit} {f : Expr → Expr}
    (hsign : Accounts sign fun _ => Tally.empty) (hp : Accounts p ofExpr)
    (hf : ∀ e, ofExpr (f e) = ofExpr e) : Accounts (signed sign f p n) ofExpr := by
  induction n with
  | zero => exact hp
  | succ n ih =>
    intro s e r h
    rw [signed] at h
    split at h
    · exact hp h
    · next hs =>
      split at h
      · exact hp h
      · next hr =>
        cases h
        rw [hf, ← empty_append (x := ofExpr _)]
        exact (accounts_around hsign hs).trans (ih hr)

lemma ofExpr_foldl {f : α → Expr → Expr → Expr} {l : List (α × Expr)} {e : Expr}
    (hf : ∀ a e e', ofExpr (f a e e') = ofExpr e ++ ofExpr e') :
    ofExpr (l.foldl (fun acc x => f x.1 acc x.2) e) =
      ofExpr e ++ total (fun x => ofExpr x.2) l := by
  induction l generalizing e with
  | nil => exact append_empty.symm
  | cons x l ih =>
    rw [List.foldl_cons, ih, hf, append_assoc]
    rfl

lemma accounts_leftChain {op : Reader α} {f : α → Expr → Expr → Expr}
    (hop : Accounts op fun _ => Tally.empty) (hp : Accounts p ofExpr)
    (hf : ∀ a e e', ofExpr (f a e e') = ofExpr e ++ ofExpr e') :
    Accounts (leftChain p op f) ofExpr := by
  intro s e r h
  rw [leftChain] at h
  split at h
  · cases h
  · next hs =>
    cases h
    rw [ofExpr_foldl hf]
    exact (hp hs).trans
      (splits_manyUpTo (accounts_both (accounts_around hop) hp fun _ _ => empty_append.symm))

lemma ofExpr_group {l : List Expr} {b : Bool} : ofExpr (group l b) = total ofExpr l := by
  rw [total_ofExpr]
  match l, b with
  | [e], false =>
    rw [group, ofExpr, Expr.namesAll, Expr.namesAll, List.append_nil]
  | [], _ => rfl
  | [e], true => rfl
  | e :: e' :: l, _ => rfl

lemma accounts_word {c : Char} (hc : c ∈ ['-', ',', '(', ')']) :
    Accounts (word [c] ()) fun _ => ofToken .symbol [c] := by
  refine accounts_symbol (tokenReader_word hc) ?_
  simp only [List.mem_cons, List.not_mem_nil, or_false] at hc
  rcases hc with rfl | rfl | rfl | rfl <;> decide

lemma accounts_productOp : Accounts productOp fun _ => Tally.empty :=
  accounts_symbol tokenReader_productOp (by decide)

lemma accounts_sumOp : Accounts sumOp fun _ => Tally.empty :=
  accounts_symbol tokenReader_sumOp (by decide)

lemma accounts_compareOp : Accounts compareOp fun _ => Tally.empty :=
  accounts_symbol tokenReader_compareOp (by decide)

lemma accounts_comma : Accounts comma fun _ => Tally.empty :=
  accounts_around (accounts_word (by decide))

lemma accounts_closing : Accounts closing fun _ => ⟨[], 1⟩ := by
  intro s b r h
  have hclose : Accounts (around (word [')'] ())) fun _ => ⟨[], 1⟩ :=
    accounts_around (accounts_word (by decide))
  rw [closing] at h
  split at h
  · next hs =>
    obtain ⟨x, hx, hb⟩ := Option.map_eq_some_iff.1 h
    cases hb
    rw [← empty_append (x := ⟨[], 1⟩)]
    exact (accounts_comma hs).trans (hclose hx)
  · obtain ⟨x, hx, hb⟩ := Option.map_eq_some_iff.1 h
    cases hb
    exact hclose hx

lemma splits_commaSeparated (hinner : Accounts inner ofExpr) :
    Splits s (total ofExpr (commaSeparated inner s).1) (commaSeparated inner s).2 := by
  cases hs : inner s with
  | none =>
    rw [commaSeparated_of_none hs]
    exact splits_self
  | some x =>
    rw [commaSeparated_of_some hs]
    exact (hinner hs).trans
      (splits_manyUpTo (accounts_both accounts_comma hinner fun _ _ => empty_append.symm))

lemma accounts_parenthesised (hinner : Accounts inner ofExpr) :
    Accounts (parenthesised inner) ofExpr := by
  -- what opens is closed again
  intro s e r h
  obtain ⟨x, b, hx, hy, rfl⟩ := parenthesised_eq_some h
  have hsplits := ((accounts_word (by decide) hx).trans (splits_commaSeparated hinner)).trans
    (accounts_closing hy)
  have hsum : ofToken .symbol ['('] ++ total ofExpr (commaSeparated inner x.2).1 ++ ⟨[], 1⟩ =
      total ofExpr (commaSeparated inner x.2).1 := by
    rw [total_ofExpr]
    simp [append_eq, ofToken]
  rw [ofExpr_group, ← hsum]
  exact hsplits

lemma accounts_literal : Accounts literal ofExpr := by
  have hword : ∀ {w : String} {v : Value}, w ∈ keywords →
      Accounts (keyword w (.lit v)) ofExpr := fun hw => accounts_keyword hw rfl
  have hinteger : Accounts integer ofExpr := accounts_token tokenReader_integer fun _ he => by
    obtain ⟨m, -, he⟩ := Option.bind_eq_some_iff.1 he
    split at he
    · cases he
      rfl
    · cases he
  have hstring : Accounts string ofExpr := accounts_token tokenReader_string fun _ he => by
    cases he
    rfl
  exact accounts_orElse (accounts_orElse (hword (by decide)) (hword (by decide)))
    <| accounts_orElse (accounts_orElse (hword (by decide)) (hword (by decide)))
    <| accounts_orElse (hword (by decide)) <| accounts_orElse hinteger hstring

lemma accounts_name : Accounts name ofExpr := by
  refine accounts_token tokenReader_name fun {s t r e} _ he => ?_
  split at he
  · cases he
  · next hk =>
    cases he
    rw [ofToken, if_neg hk]
    rfl

variable (hinner : Accounts inner ofExpr)
include hinner

lemma accounts_atom : Accounts (atom inner) ofExpr :=
  accounts_around <| accounts_orElse accounts_literal <| accounts_orElse accounts_name <|
    accounts_parenthesised hinner

lemma accounts_unary : Accounts (unary inner) ofExpr := by
  have hsign : Accounts (word ['-'] ()) fun _ => Tally.empty := accounts_word (by decide)
  exact fun _ _ _ h => accounts_signed (f := .neg) hsign (accounts_atom hinner) (fun _ => rfl) h

lemma accounts_product : Accounts (product inner) ofExpr :=
  accounts_leftChain accounts_productOp (accounts_unary hinner) fun _ _ _ => rfl

lemma accounts_sum : Accounts (sum inner) ofExpr :=
  accounts_leftChain accounts_sumOp (accounts_product hinner) fun _ _ _ => rfl

lemma accounts_comparison : Accounts (comparison inner) ofExpr := by
  intro s e r h
  rw [comparison] at h
  split at h
  · cases h
  · next hs =>
    split at h
    · next hb =>
      cases h
      obtain ⟨op, u, right, hop, hu, rfl⟩ := both_eq_some hb
      exact (accounts_sum hinner hs).trans
        (empty_append ▸ (accounts_around accounts_compareOp hop).trans (accounts_sum hinner hu))
    · cases h
      exact accounts_sum hinner hs

lemma accounts_negation : Accounts (negation inner) ofExpr := by
  have hsign : Accounts (keyword "not" ()) fun _ => Tally.empty := accounts_keyword (by decide) rfl
  exact fun _ _ _ h =>
    accounts_signed (f := .not) hsign (accounts_comparison hinner) (fun _ => rfl) h

lemma accounts_conjunction : Accounts (conjunction inner) ofExpr :=
  accounts_leftChain (accounts_keyword (by decide) rfl) (accounts_negation hinner) fun _ _ _ => rfl

lemma accounts_disjunction : Accounts (disjunction inner) ofExpr :=
  accounts_leftChain (accounts_keyword (by decide) rfl) (accounts_conjunction hinner) fun _ _ _ => rfl

omit hinner in
lemma accounts_nested : Accounts (nested n) ofExpr := by
  -- induction on the depth of the parentheses
  induction n with
  | zero => exact nofun
  | succ n ih => exact fun _ _ _ h => accounts_disjunction ih h

end Expressions

lemma tally?_of_expression {e : Expr} (h : expression s = some e) :
    tally? s = some (Tally.ofExpr e) := by
  have hsplits : Splits s (Tally.ofExpr e) [] :=
    accounts_around accounts_nested (Expr.expression_eq_some_iff.1 h)
  rw [hsplits, tally?_of_blank rfl, Option.map_some, Tally.append_empty]

end Parser

end ColouredPetri
