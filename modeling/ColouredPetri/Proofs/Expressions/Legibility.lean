import ColouredPetri.Proofs.Expressions.Levels

/-! The text of an expression is read as that expression. Each kind of expression is read at its own
level if its parts are at theirs, where parentheses make an atom of every expression. -/

namespace ColouredPetri

namespace Parser

open Lexer Text Text.Reader Expr

variable {s r t T : List Char} {L n : Nat} {e : Expr} {inner : Reader Expr} {y : Style}

lemma noNot_paren : NoNot ('(' :: T) := fun _ _ => rfl

lemma noMinus_paren : NoMinus ('(' :: T) := fun _ _ => rfl

lemma solid_paren : Solid ('(' :: T) := ⟨'(', T, rfl, rfl⟩

lemma stops_close : Stops 0 (')' :: r) where
  ends := fun _ h => .inr (.inr (Option.mem_some.1 h).symm)
  or := fun _ => rfl
  and := fun _ => rfl
  compare := fun _ => rfl
  sum := fun _ => rfl
  product := fun _ => rfl

lemma stops_comma : Stops 0 (',' :: r) where
  ends := fun _ h => .inr (.inl (Option.mem_some.1 h).symm)
  or := fun _ => rfl
  and := fun _ => rfl
  compare := fun _ => rfl
  sum := fun _ => rfl
  product := fun _ => rfl

lemma atom_of_parenthesised (h : parenthesised inner ('(' :: T) = some (e, r)) :
    atom inner ('(' :: T) = some (e, skipBlanks r) := by
  have hlit : literal ('(' :: T) = none := rfl
  have hname : name ('(' :: T) = none := rfl
  rw [atom, around, show skipBlanks ('(' :: T) = '(' :: T from rfl, orElse, hlit, orElse, hname, h]

lemma parenthesised_of_items {items : List Expr} {b : Bool}
    (hitems : commaSeparated inner T = (items, s)) (hs : closing s = some (b, r)) :
    parenthesised inner ('(' :: T) = some (group items b, r) := by
  have hopen : word ['('] () ('(' :: T) = some ((), T) := word_eq_some_iff.2 ⟨rfl, rfl⟩
  rw [parenthesised_eq, hopen, Option.bind_some, hitems, hs, Option.map_some]

lemma closing_close : closing (')' :: r) = some (false, skipBlanks r) := rfl

lemma closing_comma : closing (',' :: ')' :: r) = some (true, skipBlanks r) := rfl

lemma nested_close : nested n (')' :: r) = none := by
  cases n <;> rfl

lemma reads_more (hin : Reads inner Writable) :
    Reads (both comma inner fun _ e => e) Writable :=
  reads_both reads_comma hin fun _ _ _ h => h

lemma closing_skipBlanks : closing (skipBlanks s) = closing s := by
  rw [closing, closing, comma, around_skipBlanks, around_skipBlanks]

lemma atom_parens (hin : Reads inner Writable) (h : inner T = some (e, s))
    (hs : skipBlanks s = ')' :: r) : atom inner ('(' :: T) = some (e, skipBlanks r) := by
  have hnone : both comma inner (fun _ e => e) s = none := by
    rw [both, comma, ← around_skipBlanks, hs]
    rfl
  have hitems : commaSeparated inner T = ([e], s) := by
    rw [commaSeparated_of_some h, many_of_none (reads_more hin) hnone]
  have hclose : closing s = some (false, skipBlanks r) := by
    rw [← closing_skipBlanks, hs, closing_close]
  have hp := parenthesised_of_items hitems hclose
  exact (atom_of_parenthesised hp).trans (by rw [skipBlanks_skipBlanks]; rfl)

lemma stops_more {l : List Expr} : Stops 0 (moreChars y l ++ ')' :: r) := by
  cases l with
  | nil => exact stops_close
  | cons e l => exact stops_comma

lemma skipBlanks_more {l : List Expr} :
    skipBlanks (moreChars y l ++ ')' :: r) = moreChars y l ++ ')' :: r := by
  cases l <;> rfl

lemma many_more (hin : Reads inner Writable) {l : List Expr}
    (hl : ∀ e ∈ l, Solid (e.chars y) ∧
      ∀ ⦃r⦄, Stops 0 r → inner (e.chars y ++ r) = some (e, skipBlanks r)) :
    many (both comma inner fun _ e => e) (moreChars y l ++ ')' :: r) = (l, ')' :: r) := by
  induction l with
  | nil => exact many_of_none (reads_more hin) rfl
  | cons e l ih =>
    obtain ⟨⟨hsolid, he⟩, hl⟩ := List.forall_mem_cons.1 hl
    have hcomma : comma (moreChars y (e :: l) ++ ')' :: r) =
        some ((), e.chars y ++ (moreChars y l ++ ')' :: r)) := by
      have hblank : comma (',' :: ' ' :: (e.chars y ++ (moreChars y l ++ ')' :: r))) =
          some ((), skipBlanks (e.chars y ++ (moreChars y l ++ ')' :: r))) := rfl
      rw [moreChars, List.cons_append, List.cons_append, List.append_assoc, hblank,
        hsolid.skipBlanks]
    have hboth : both comma inner (fun _ e => e) (moreChars y (e :: l) ++ ')' :: r) =
        some (e, moreChars y l ++ ')' :: r) := by
      rw [both, hcomma]
      simp only [he stops_more, skipBlanks_more]
    rw [many_of_some (reads_more hin) hboth, ih hl]

lemma atom_tuple {items : List Expr}
    (hitems : ∀ e ∈ items, Solid (e.chars y) ∧
      ∀ ⦃r⦄, Stops 0 r → nested n (e.chars y ++ r) = some (e, skipBlanks r)) :
    atom (nested n) ('(' :: (itemsChars y items ++ ')' :: r)) =
      some (.tuple items, skipBlanks r) := by
  have hin : Reads (nested n) Writable := reads_nested
  rcases items with _ | ⟨e, _ | ⟨e', l⟩⟩
  · have hp := parenthesised_of_items (commaSeparated_of_none (nested_close (n := n) (r := r)))
      closing_close
    exact (atom_of_parenthesised hp).trans (by rw [skipBlanks_skipBlanks]; rfl)
  · obtain ⟨-, he⟩ := hitems e (List.mem_singleton_self e)
    have hnone : both comma (nested n) (fun _ e => e) (',' :: ')' :: r) = none := by
      rw [both, show comma (',' :: ')' :: r) = some ((), ')' :: r) from rfl]
      simp only [nested_close]
    have hread : nested n (itemsChars y [e] ++ ')' :: r) = some (e, ',' :: ')' :: r) := by
      rw [itemsChars, List.append_assoc]
      exact he stops_comma
    have hsep : commaSeparated (nested n) (itemsChars y [e] ++ ')' :: r) =
        ([e], ',' :: ')' :: r) := by
      rw [commaSeparated_of_some hread, many_of_none (reads_more hin) hnone]
    have hp := parenthesised_of_items hsep closing_comma
    exact (atom_of_parenthesised hp).trans (by rw [skipBlanks_skipBlanks]; rfl)
  · obtain ⟨⟨-, he⟩, hl⟩ := List.forall_mem_cons.1 hitems
    have hread : nested n (itemsChars y (e :: e' :: l) ++ ')' :: r) =
        some (e, moreChars y (e' :: l) ++ ')' :: r) := by
      rw [itemsChars, List.append_assoc, he stops_more, skipBlanks_more]
      exact List.cons_ne_nil e' l
    have hsep : commaSeparated (nested n) (itemsChars y (e :: e' :: l) ++ ')' :: r) =
        (e :: e' :: l, ')' :: r) := by
      rw [commaSeparated_of_some hread, many_more hin hl]
    have hp := parenthesised_of_items hsep closing_close
    exact (atom_of_parenthesised hp).trans (by rw [skipBlanks_skipBlanks]; rfl)

lemma ends_blank : Ends (' ' :: s) := fun _ h => .inl (Option.mem_some.1 h).symm

lemma stops_or : Stops 1 (' ' :: ("or".toList ++ ' ' :: s)) where
  ends := ends_blank
  or := nofun
  and := fun _ => rfl
  compare := fun _ => rfl
  sum := fun _ => rfl
  product := fun _ => rfl

lemma stops_and : Stops 2 (' ' :: ("and".toList ++ ' ' :: s)) where
  ends := ends_blank
  or := nofun
  and := nofun
  compare := fun _ => rfl
  sum := fun _ => rfl
  product := fun _ => rfl

lemma stops_compare {op : CompareOp} : Stops 4 (' ' :: (op.sign ++ ' ' :: s)) where
  ends := ends_blank
  or := nofun
  and := nofun
  compare := nofun
  sum := fun _ => by cases op <;> rfl
  product := fun _ => by cases op <;> rfl

lemma stops_arith {op : ArithOp} :
    Stops (op.precedence + 1) (' ' :: (op.sign y ++ ' ' :: s)) where
  ends := ends_blank
  or := nofun
  and := fun h => by cases op <;> cases h <;> contradiction
  compare := fun h => by cases op <;> simp [ArithOp.precedence] at h
  sum := fun h => by cases op <;> simp [ArithOp.precedence] at h
  product := fun h => by
    cases op with
    | add => rfl
    | sub => rfl
    | _ => simp [ArithOp.precedence] at h

lemma around_compareOp {op : CompareOp} :
    around compareOp (' ' :: (op.sign ++ ' ' :: s)) = some (op, skipBlanks s) := by
  cases op <;> rfl

lemma around_sumOp {op : ArithOp} (h : op.precedence = 4) :
    around sumOp (' ' :: (op.sign y ++ ' ' :: s)) = some (op, skipBlanks s) := by
  cases op with
  | add => rfl
  | sub => rfl
  | _ => cases h

lemma around_productOp {op : ArithOp} (h : op.precedence = 5) :
    around productOp (' ' :: (op.sign y ++ ' ' :: s)) = some (op, skipBlanks s) := by
  cases op with
  | mul => rfl
  | rem => rfl
  | div =>
    rw [ArithOp.sign]
    cases y.doubleSlash <;> rfl
  | _ => cases h

def Legible (y : Style) (e : Expr) : Prop :=
  ∀ n, (e.chars y).length ≤ n → Spelled (nested n) (e.chars y) e e.precedence

lemma Legible.operand (h : Legible y e) (hn : (operandChars y L e).length ≤ n) (hL : L ≤ 7):
    ∃ K, L ≤ K ∧ Spelled (nested n) (operandChars y L e) e K := by
  by_cases hp : e.precedence < L
  · have hT : operandChars y L e = '(' :: (e.chars y ++ [')']) := by
      rw [operandChars, parens, if_pos (decide_eq_true hp)]
    rw [hT] at hn ⊢
    obtain ⟨m, rfl⟩ : ∃ m, n = m + 1 := ⟨n - 1, by simp at hn; omega⟩
    refine ⟨7, hL, le_rfl, solid_paren, fun r _ => ?_, fun _ => noNot_paren, fun _ => noMinus_paren⟩
    have hin : nested (m + 1) (e.chars y ++ ')' :: r) = some (e, ')' :: r) :=
      (h m (by simp at hn; omega)).read reads_nested (Nat.zero_le _) stops_close
    rw [List.cons_append, List.append_assoc]
    exact atom_parens reads_nested hin rfl
  · have hT : operandChars y L e = e.chars y := by
      rw [operandChars, parens, if_neg (by simpa using hp)]
    rw [hT] at hn ⊢
    exact ⟨_, Nat.le_of_not_lt hp, h n hn⟩

lemma leftChain_spaced {α : Type} {op : Reader α} {a : α} {operand : Reader Expr}
    {f : α → Expr → Expr → Expr} {P : α → Prop} {T' w : List Char} {e' : Expr} (hop : Reads op P)
    (hoperand : Reads operand Writable) (hT' : Solid T')
    (hl : leftChain operand op f (T ++ ' ' :: (w ++ ' ' :: (T' ++ r))) =
      some (chain operand op f e (skipBlanks (' ' :: (w ++ ' ' :: (T' ++ r))))))
    (hw : around op (' ' :: (w ++ ' ' :: (T' ++ r))) = some (a, skipBlanks (T' ++ r)))
    (hr : operand (T' ++ r) = some (e', skipBlanks r)) :
    leftChain operand op f (spaced T w T' ++ r) =
      some (chain operand op f (f a e e') (skipBlanks r)) := by
  rw [hT'.skipBlanks] at hw
  have hs : spaced T w T' ++ r = T ++ ' ' :: (w ++ ' ' :: (T' ++ r)) := by
    simp [spaced]
  rw [hs, hl, chain_of_some hop hoperand (around_skipBlanks.trans hw) hr]

lemma length_spaced {w T' : List Char} (hn : (spaced T w T').length ≤ n) :
    T.length ≤ n ∧ T'.length ≤ n := by
  simp only [spaced, List.length_append, List.length_cons] at hn
  omega

section Connectives

variable {T' : List Char} {e' : Expr} {K K' : Nat}

lemma spelled_or (hin : Reads inner Writable) (hl : Spelled inner T e K)
    (hr : Spelled inner T' e' K') (hK' : 1 ≤ K') :
    Spelled inner (spaced T "or".toList T') (.or e e') 0 := by
  refine ⟨Nat.zero_le 7, hl.solid.append, fun r hs => ?_, nofun, nofun⟩
  exact leftChain_spaced (f := fun _ => .or) reads_or (reads_conjunction hin) hr.solid
    (hl.open hin (by decide) (Nat.zero_le K) stops_or) rfl (hr.read hin hK' hs)

lemma spelled_and (hin : Reads inner Writable) (hl : Spelled inner T e K)
    (hr : Spelled inner T' e' K') (hK : 1 ≤ K) (hK' : 2 ≤ K') :
    Spelled inner (spaced T "and".toList T') (.and e e') 1 := by
  refine ⟨Nat.le_add_left 1 6, hl.solid.append, fun r hs => ?_, nofun, nofun⟩
  exact leftChain_spaced (f := fun _ => .and) reads_and (reads_negation hin) hr.solid
    (hl.open hin (by decide) hK stops_and) rfl (hr.read hin hK' hs)

lemma spelled_not (hin : Reads inner Writable) (he : Spelled inner T e K) (hK : 2 ≤ K) :
    Spelled inner ("not".toList ++ ' ' :: T) (.not e) 2 := by
  refine ⟨Nat.le_add_left 2 5, ⟨'n', _, rfl, rfl⟩, fun r hs => ?_, nofun, nofun⟩
  have hsign : around (keyword "not" ()) ("not".toList ++ ' ' :: (T ++ r)) = some ((), T ++ r) := by
    have hblank : around (keyword "not" ()) ("not".toList ++ ' ' :: (T ++ r)) =
        some ((), skipBlanks (T ++ r)) := rfl
    rw [hblank, he.solid.skipBlanks]
  rw [List.append_assoc, List.cons_append]
  exact signed_of_some reads_not hsign (he.read hin hK (hs.of_succ (.inl rfl)))

end Connectives

lemma legible_or {e' : Expr} (h : Legible y e) (h' : Legible y e') : Legible y (.or e e') := by
  intro n hn
  have hT : (Expr.or e e').chars y =
    spaced (operandChars y 0 e) "or".toList (operandChars y 1 e') := rfl
  rw [hT] at hn ⊢
  obtain ⟨hn, hn'⟩ := length_spaced hn
  obtain ⟨K, -, hl⟩ := h.operand hn (by decide)
  obtain ⟨K', hK', hr⟩ := h'.operand hn' (by decide)
  exact spelled_or reads_nested hl hr hK'

lemma legible_and {e' : Expr} (h : Legible y e) (h' : Legible y e') : Legible y (.and e e') := by
  intro n hn
  have hT : (Expr.and e e').chars y =
    spaced (operandChars y 1 e) "and".toList (operandChars y 2 e') := rfl
  rw [hT] at hn ⊢
  obtain ⟨hn, hn'⟩ := length_spaced hn
  obtain ⟨K, hK, hl⟩ := h.operand hn (by decide)
  obtain ⟨K', hK', hr⟩ := h'.operand hn' (by decide)
  exact spelled_and reads_nested hl hr hK hK'

lemma NoNot.spaced {w T' : List Char} (h : NoNot T) : NoNot (spaced T w T') := by
  intro r _
  rw [Expr.spaced, List.append_assoc]
  exact h ends_blank

lemma legible_arith {op : ArithOp} {e' : Expr} (h : Legible y e) (h' : Legible y e') :
    Legible y (.arith op e e') := by
  intro n hn
  have hT : (Expr.arith op e e').chars y =
    spaced (operandChars y op.precedence e) (op.sign y) (operandChars y (op.precedence + 1) e') :=
      rfl
  have hop : op.precedence = 4 ∨ op.precedence = 5 := by
    cases op <;> simp [ArithOp.precedence]
  rw [hT] at hn ⊢
  obtain ⟨hn, hn'⟩ := length_spaced hn
  obtain ⟨K, hK, hl⟩ := h.operand hn (by omega)
  obtain ⟨K', hK', hr⟩ := h'.operand hn' (by omega)
  refine ⟨by rw [precedence]; omega, hl.solid.append, fun r hs => ?_,
    fun _ => (hl.noNot (by omega)).spaced, fun h7 => absurd h7 (by rw [precedence]; omega)⟩
  have hsolid := hr.solid
  have hright := hr.read reads_nested hK' hs
  have hleft := fun s => hl.open (r := ' ' :: (op.sign y ++ ' ' :: s)) reads_nested
    (by rcases hop with hop | hop <;> simp [hop]) hK stops_arith
  rw [precedence]
  rcases hop with hop | hop
  · rw [hop] at hleft hright hsolid ⊢
    exact leftChain_spaced reads_sumOp (reads_product reads_nested) hsolid (hleft _)
      (around_sumOp hop) hright
  · rw [hop] at hleft hright hsolid ⊢
    exact leftChain_spaced reads_productOp (reads_unary reads_nested) hsolid (hleft _)
      (around_productOp hop) hright

lemma legible_compare {op : CompareOp} {e' : Expr} (h : Legible y e) (h' : Legible y e') :
    Legible y (.compare op e e') := by
  intro n hn
  have hT : (Expr.compare op e e').chars y =
    spaced (operandChars y 4 e) op.sign (operandChars y 4 e') := rfl
  rw [hT] at hn ⊢
  obtain ⟨hn, hn'⟩ := length_spaced hn
  obtain ⟨K, hK, hl⟩ := h.operand hn (by decide)
  obtain ⟨K', hK', hr⟩ := h'.operand hn' (by decide)
  refine ⟨Nat.le_add_left 3 4, hl.solid.append, fun r hs => ?_,
    fun _ => (hl.noNot (by omega)).spaced, nofun⟩
  have hleft : sum (nested n) (operandChars y 4 e ++
      ' ' :: (op.sign ++ ' ' :: (operandChars y 4 e' ++ r))) = some (e, skipBlanks
      (' ' :: (op.sign ++ ' ' :: (operandChars y 4 e' ++ r)))) :=
    hl.read reads_nested hK stops_compare
  have hright : sum (nested n) (operandChars y 4 e' ++ r) = some (e', skipBlanks r) :=
    hr.read reads_nested hK' hs
  have hs : spaced (operandChars y 4 e) op.sign (operandChars y 4 e') ++ r =
      operandChars y 4 e ++ ' ' :: (op.sign ++ ' ' :: (operandChars y 4 e' ++ r)) := by
    simp [spaced]
  rw [hs]
  change comparison (nested n) _ = _
  rw [comparison, hleft]
  simp only [both, around_skipBlanks, around_compareOp, hr.solid.skipBlanks, hright]
  rfl

lemma legible_not (h : Legible y e) : Legible y (.not e) := by
  intro n hn
  have hT : (Expr.not e).chars y = "not".toList ++ ' ' :: operandChars y 2 e := rfl
  rw [hT] at hn ⊢
  simp only [List.length_append, List.length_cons] at hn
  obtain ⟨K, hK, he⟩ := h.operand (n := n) (L := 2) (by omega) (by decide)
  exact spelled_not reads_nested he hK

lemma legible_neg (h : Legible y e) : Legible y (.neg e) := by
  intro n hn
  have hT : (Expr.neg e).chars y = '-' :: operandChars y 6 e := rfl
  rw [hT] at hn ⊢
  obtain ⟨K, hK, he⟩ := h.operand (n := n) (L := 6) (by simp at hn; omega) (by decide)
  refine ⟨Nat.le_add_left 6 1, ⟨'-', _, rfl, rfl⟩, fun r hs => ?_, fun _ _ _ => rfl, nofun⟩
  have hsign : around (word ['-'] ()) ('-' :: (operandChars y 6 e ++ r)) =
      some ((), operandChars y 6 e ++ r) := by
    have hblank : around (word ['-'] ()) ('-' :: (operandChars y 6 e ++ r)) =
        some ((), skipBlanks (operandChars y 6 e ++ r)) := rfl
    rw [hblank, he.solid.skipBlanks]
  exact signed_of_some reads_minus hsign (he.read reads_nested hK (hs.of_succ (.inr rfl)))

lemma spelled_token {k : TokenKind} (ht : ∀ ⦃r⦄, Ends r → token? k (T ++ r) = some (T, r))
    (hk : k ≠ .symbol) (hne : k = .name → T ≠ "not".toList)
    (h : ∀ ⦃r⦄, Ends r → atom inner (T ++ r) = some (e, skipBlanks r)) : Spelled inner T e 7 where
  le := le_rfl
  solid := solid_of_token? (ht (r := []) nofun)
  opened := fun _ hr => h hr.ends
  noNot := fun _ r hr => by
    have hsolid := solid_of_token? (ht hr)
    rw [around, hsolid.skipBlanks, keyword_none (by decide) (ht hr) hne]
  noMinus := fun _ r hr => by
    have hsolid := solid_of_token? (ht hr)
    rw [around, hsolid.skipBlanks, (tokenReader_word (by decide)).eq_none (ht hr) hk.symm]

lemma legible_word {w : String} {v : Value}
    (hw : (w, v) ∈ [("True", .bool true), ("False", .bool false), ("dot", .dot)]) :
    Legible y (.lit v) := by
  intro n _
  have hT : (Expr.lit v).chars y = w.toList ∧ isIdentifier w.toList = true ∧
      w.toList ≠ "not".toList := by
    simp only [List.mem_cons, Prod.mk.injEq, List.not_mem_nil, or_false] at hw
    rcases hw with ⟨rfl, rfl⟩ | ⟨rfl, rfl⟩ | ⟨rfl, rfl⟩ <;> exact ⟨rfl, by decide, by decide⟩
  obtain ⟨hT, hi, hne⟩ := hT
  rw [hT]
  exact spelled_token (fun _ hr => token?_word hi hr) nofun (fun _ => hne) fun _ hr =>
    atom_word hw hr

lemma legible_name {v : String} (h : isIdentifier v.toList = true)
    (hk : keywords.contains v = false) : Legible y (.name v) := by
  intro n _
  refine spelled_token (fun _ hr => token?_word h hr) nofun (fun _ hT => ?_) fun _ hr =>
    atom_name h hk hr
  rw [String.toList_inj.1 hT] at hk
  cases hk

lemma length_moreChars {items : List Expr} (he : e ∈ items) :
    (e.chars y).length ≤ (moreChars y items).length := by
  induction items with
  | nil => cases he
  | cons e' l ih =>
    simp only [moreChars, List.length_cons, List.length_append]
    rcases List.mem_cons.1 he with rfl | he
    · omega
    · have := ih he
      omega

lemma length_itemsChars {items : List Expr} (he : e ∈ items) :
    (e.chars y).length ≤ (itemsChars y items).length := by
  match items with
  | [e'] =>
    obtain rfl := List.mem_singleton.1 he
    rw [itemsChars, List.length_append]
    omega
  | e' :: e'' :: l =>
    rw [itemsChars, List.length_append]
    · rcases List.mem_cons.1 he with rfl | he
      · omega
      · have := length_moreChars (y := y) he
        omega
    · nofun

lemma legible_tuple {items : List Expr} (h : ∀ e ∈ items, Legible y e) :
    Legible y (.tuple items) := by
  intro n hn
  have hT : (Expr.tuple items).chars y = '(' :: (itemsChars y items ++ [')']) := rfl
  rw [hT] at hn ⊢
  refine ⟨le_rfl, solid_paren, fun r _ => ?_, fun _ => noNot_paren, fun _ => noMinus_paren⟩
  rw [List.cons_append, List.append_assoc]
  simp only [List.length_cons, List.length_append] at hn
  obtain ⟨m, rfl⟩ : ∃ m, n = m + 1 := ⟨n - 1, by omega⟩
  refine atom_tuple fun e he => ?_
  have hm : (e.chars y).length ≤ m := (length_itemsChars he).trans (by omega)
  exact ⟨(h e he m hm).solid, fun _ hs => (h e he m hm).read reads_nested (Nat.zero_le _) hs⟩

lemma legible (h : e.Writable) : Legible y e := by
  -- induction on the expression: the operands are read where the operator asks for them
  induction h with
  | int h => exact fun n _ => spelled_token (fun _ => token?_int h) nofun nofun fun _ => atom_int h
  | bool b =>
    cases b with
    | false => exact legible_word (w := "False") (by decide)
    | true => exact legible_word (w := "True") (by decide)
  | dot => exact legible_word (w := "dot") (by decide)
  | str h => exact fun n _ => spelled_token (fun _ _ => token?_str h) nofun nofun fun _ _ => atom_str h
  | name h hk => exact legible_name h hk
  | tuple _ ih => exact legible_tuple ih
  | neg _ ih => exact legible_neg ih
  | arith _ _ ihl ihr => exact legible_arith ihl ihr
  | compare _ _ ihl ihr => exact legible_compare ihl ihr
  | and _ _ ihl ihr => exact legible_and ihl ihr
  | or _ _ ihl ihr => exact legible_or ihl ihr
  | not _ ih => exact legible_not ih

end Parser

end ColouredPetri
