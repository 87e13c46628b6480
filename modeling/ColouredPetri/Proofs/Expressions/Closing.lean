import ColouredPetri.Proofs.Expressions.RenamedTexts
import ColouredPetri.Proofs.Expressions.Tallies

/-! Texts in front of a closing parenthesis. A reader asks for a closing parenthesis only behind one
that it has opened. So on a text that closes what is open in front of it each reader does what it does
without the parenthesis behind the text, and leaves that one alone. -/

namespace ColouredPetri

namespace Lexer

variable {s t r u : List Char} {k : TokenKind} {x : Tally} {n m d d' : Nat} {p : Char → Bool}

lemma skipBlanks_closed : skipBlanks (s ++ ')' :: u) = skipBlanks s ++ ')' :: u := by
  rw [skipBlanks, List.dropWhile_append]
  split
  · next h =>
    rw [skipBlanks, List.isEmpty_iff.1 h]
    rfl
  · rfl

lemma Breaks.closed (h : Breaks p r) (hp : p ')' = false) : Breaks p (r ++ ')' :: u) := by
  cases r with
  | nil =>
    intro c hc
    cases hc
    exact hp
  | cons c r => exact h

lemma token?_closed_of_some (hk : k ≠ .symbol) (h : token? k s = some (t, r)) :
    token? k (s ++ ')' :: u) = some (t, r ++ ')' :: u) := by
  obtain ⟨hne, rfl⟩ := token?_append h
  rw [List.append_assoc]
  cases k with
  | name =>
    obtain ⟨-, ht, hbreak⟩ := identifier?_eq_some_iff.1 h
    exact identifier?_eq_some_iff.2 ⟨rfl, ht, hbreak.closed rfl⟩
  | number =>
    obtain ⟨-, -, ht, hbreak⟩ := digits?_eq_some_iff.1 h
    exact digits?_eq_some_iff.2 ⟨rfl, hne, ht, hbreak.closed rfl⟩
  | text => exact token?_text_append h
  | symbol => exact absurd rfl hk

lemma token?_closed (hk : k ≠ .symbol) (hs : Parser.Cut s) :
    token? k (s ++ ')' :: u) = (token? k s).map fun x => (x.1, x.2 ++ ')' :: u) := by
  cases h : token? k s with
  | some x => exact token?_closed_of_some hk h
  | none =>
    cases s with
    | nil =>
      refine token?_eq_none fun h => hk ?_
      cases h
      rfl
    | cons c s =>
      refine token?_eq_none fun hc => ?_
      have hskip : skipBlanks (c :: s) = c :: s :=
        List.dropWhile_cons_of_neg (by rw [isSpace_of_startKind? hc]; nofun)
      obtain hnil | ⟨k', t, r, ht, -⟩ := Parser.cut_iff.1 hs
      · rw [hskip] at hnil
        cases hnil
      · rw [hskip] at ht
        cases hc.symm.trans (startKind?_of_token? ht)
        rw [h] at ht
        cases ht

structure Within (n d : Nat) (s : List Char) : Prop where
  length : s.length ≤ n
  tally : ∃ l, tally? s = some ⟨l, d⟩

lemma Within.skipBlanks (h : Within n d s) : Within n d (skipBlanks s) :=
  ⟨Parser.length_skipBlanks_le.trans h.length, by rw [tally?_skipBlanks]; exact h.tally⟩

lemma Within.cut (h : Within n d s) : Parser.Cut s := by
  by_contra hcut
  obtain ⟨l, hl⟩ := h.tally
  rw [tally?_eq_none hcut] at hl
  cases hl

lemma Within.rest (h : Within n d s) (hs : Splits s x r) (hlen : r.length ≤ m)
    (hd : x.surplus + d' = d) : Within m d' r := by
  obtain ⟨l, hl⟩ := h.tally
  rw [hs] at hl
  obtain ⟨y, hy, hsum⟩ := Option.map_eq_some_iff.1 hl
  have hsurplus : x.surplus + y.surplus = d := congrArg Tally.surplus hsum
  refine ⟨hlen, y.names, ?_⟩
  rw [hy]
  have : y.surplus = d' := by omega
  exact congrArg some (by rw [← this])

lemma Within.skipBlanks_ne (h : Within n d s) (hd : 0 < d) : Lexer.skipBlanks s ≠ [] := by
  intro hs
  obtain ⟨l, hl⟩ := h.tally
  rw [tally?_of_blank hs] at hl
  have hzero : (0 : Int) = d := congrArg Tally.surplus (Option.some.inj hl)
  omega

end Lexer

namespace Parser

open Lexer Text Text.Reader

variable {α β γ : Type} {p p' : Reader α} {q q' : Reader β} {N : α → Tally} {P : α → Prop}
  {s r u w : List Char} {a : α} {n m d : Nat}

def Balanced (p : Reader α) : Prop :=
  ∀ ⦃s a r⦄, p s = some (a, r) → r.length < s.length ∧ ∃ x, Splits s x r ∧ x.surplus = 0

lemma balanced (hp : Reads p P) (hN : Accounts p N) (h : ∀ a, (N a).surplus = 0) : Balanced p :=
  fun _ a _ hs => ⟨(hp hs).2.length_lt, N a, hN hs, h a⟩

lemma Balanced.within (hp : Balanced p) (hs : Within n d s) (h : p s = some (a, r)) :
    Within n d r := by
  obtain ⟨hlen, x, hx, hzero⟩ := hp h
  exact hs.rest hx (hlen.le.trans hs.length) (by rw [hzero, Int.zero_add])

def Extends (u : List Char) (n d : Nat) (p p' : Reader α) : Prop :=
  ∀ ⦃s⦄, Within n d s → p' (s ++ ')' :: u) = (p s).map fun x => (x.1, x.2 ++ ')' :: u)

lemma word_closed (hw : ')' ∉ w) :
    word w a (s ++ ')' :: u) = (word w a s).map fun x => (x.1, x.2 ++ ')' :: u) := by
  by_cases hs : w <+: s
  · obtain ⟨r, rfl⟩ := hs
    rw [List.append_assoc, word_append, word_append]
    rfl
  · have hnot : ¬ w <+: s ++ ')' :: u := by
      intro h
      rcases le_or_gt w.length s.length with hle | hlt
      · exact hs (List.prefix_of_prefix_length_le h (List.prefix_append _ _) hle)
      -- a longer word would run over the parenthesis
      · have hclose : s ++ [')'] <+: w := by
          refine List.prefix_of_prefix_length_le ?_ h (by rw [List.length_append]; exact hlt)
          exact ⟨u, by simp⟩
        exact hw (hclose.subset (by simp))
    rw [word, word, if_neg (mt List.isPrefixOf_iff_prefix.1 hnot),
      if_neg (mt List.isPrefixOf_iff_prefix.1 hs)]
    rfl

lemma extends_word (hw : ')' ∉ w) : Extends u n d (word w a) (word w a) :=
  fun _ _ => word_closed hw

lemma extends_keyword {w : String} (hw : ')' ∉ w.toList) :
    Extends u n d (keyword w a) (keyword w a) := by
  intro s _
  rw [keyword, keyword, word_closed hw]
  cases word w.toList a s with
  | none => rfl
  | some x =>
    obtain ⟨b, r⟩ := x
    cases r with
    | nil => rfl
    | cons c r =>
      simp only [Option.map_some, List.cons_append]
      split <;> rfl

lemma extends_token {k : TokenKind} {g : List Char → Option α} (hp : TokenReader k p g)
    (hk : k ≠ .symbol) : Extends u n d p p := by
  intro s hs
  rw [hp, hp, token?_closed hk hs.cut]
  cases token? k s with
  | none => rfl
  | some x =>
    simp only [Option.map_some, Option.bind_some]
    cases g x.1 <;> rfl

lemma extends_around (hp : Extends u n d p p') : Extends u n d (around p) (around p') := by
  intro s hs
  rw [around, around, skipBlanks_closed, hp hs.skipBlanks]
  cases p (skipBlanks s) with
  | none => rfl
  | some x =>
    simp only [Option.map_some, skipBlanks_closed]

lemma extends_orElse {o o' : Reader α} (hp : Extends u n d p p') (ho : Extends u n d o o') :
    Extends u n d (orElse p o) (orElse p' o') := by
  intro s hs
  rw [orElse, orElse, hp hs]
  cases p s with
  | none => exact ho hs
  | some x => rfl

lemma extends_both {f : α → β → γ} (hb : Balanced p) (hp : Extends u n d p p')
    (hq : Extends u n d q q') : Extends u n d (both p q f) (both p' q' f) := by
  intro s hs
  rw [both, both, hp hs]
  cases h : p s with
  | none => rfl
  | some x =>
    simp only [Option.map_some, hq (hb.within hs h)]
    cases q x.2 <;> rfl

lemma extends_manyUpTo (hb : Balanced p) (hp : Extends u n d p p') (hs : Within n d s) :
    manyUpTo p' m (s ++ ')' :: u) = ((manyUpTo p m s).1, (manyUpTo p m s).2 ++ ')' :: u) := by
  induction m generalizing s with
  | zero => rfl
  | succ m ih =>
    rw [manyUpTo, manyUpTo, hp hs]
    cases h : p s with
    | none => rfl
    | some x => simp only [Option.map_some, ih (hb.within hs h)]

lemma extends_many (hread : Reads p P) (hb : Balanced p) (hp : Extends u n d p p')
    (hs : Within n d s) : many p' (s ++ ')' :: u) = ((many p s).1, (many p s).2 ++ ')' :: u) := by
  have hle : s.length ≤ (s ++ ')' :: u).length := by simp
  rw [many, extends_manyUpTo hb hp hs, many, manyUpTo_congr hread hle le_rfl]

section Expressions

open Tally Expr

variable {p p' inner inner' : Reader Expr}

lemma extends_signed {sign : Reader Unit} {f : Expr → Expr} (hread : Reads sign fun _ => True)
    (hcount : Accounts sign fun _ => Tally.empty) (hsign : Extends u n d sign sign)
    (hp : Extends u n d p p') :
    Extends u n d (fun s => signed sign f p s.length s)
      fun s => signed sign f p' s.length s := by
  have hb : Balanced (around sign) :=
    balanced (reads_around hread) (accounts_around hcount) fun _ => rfl
  have hm : ∀ m, Extends u n d (signed sign f p m) (signed sign f p' m) := by
    intro m
    induction m with
    | zero => exact hp
    | succ m ih =>
      intro s hs
      rw [signed, signed, extends_around hsign hs]
      cases h : around sign s with
      | none => exact hp hs
      | some x =>
        simp only [Option.map_some, ih (hb.within hs h)]
        cases signed sign f p m x.2 with
        | none => exact hp hs
        | some y => rfl
  intro s hs
  have hle : s.length ≤ (s ++ ')' :: u).length := by simp
  simp only
  rw [hm _ hs, signed_congr hread hle le_rfl]

lemma extends_leftChain {op : Reader α} {f : α → Expr → Expr → Expr} {P : α → Prop}
    {S : Expr → Prop} (hread : Reads op P) (hcount : Accounts op fun _ => Tally.empty)
    (hop : Extends u n d op op) (hreadp : Reads p S) (hcountp : Accounts p ofExpr)
    (hp : Extends u n d p p') : Extends u n d (leftChain p op f) (leftChain p' op f) := by
  have hbop : Balanced (around op) :=
    balanced (reads_around hread) (accounts_around hcount) fun _ => rfl
  have hbp : Balanced p := balanced hreadp hcountp fun _ => rfl
  have hblink : Balanced (both (around op) p Prod.mk) :=
    balanced (N := fun x => ofExpr x.2) (reads_link hread hreadp)
      (accounts_both (accounts_around hcount) hcountp fun _ _ => empty_append.symm) fun _ => rfl
  intro s hs
  rw [leftChain, leftChain, hp hs]
  cases h : p s with
  | none => rfl
  | some x =>
    have hlink := extends_both (f := Prod.mk) hbop (extends_around hop) hp
    simp only [Option.map_some,
      extends_many (reads_link hread hreadp) hblink hlink (hbp.within hs h)]

lemma extends_comma : Extends u n d comma comma := extends_around (extends_word (by decide))

lemma balanced_comma : Balanced comma := balanced reads_comma accounts_comma fun _ => rfl

lemma extends_close (hd : 0 < d) :
    Extends u n d (around (word [')'] ())) (around (word [')'] ())) := by
  intro s hs
  obtain ⟨c, l, hc⟩ := List.exists_cons_of_ne_nil (hs.skipBlanks_ne hd)
  rw [around, around, skipBlanks_closed, hc, List.cons_append]
  by_cases h : ')' = c
  · subst h
    have hword : ∀ l, word [')'] () (')' :: l) = some ((), l) := fun l => word_append [')'] l ()
    rw [hword, hword]
    simp only [Option.map_some, skipBlanks_closed]
  · rw [word_of_ne h, word_of_ne h]
    rfl

lemma extends_closing (hd : 0 < d) : Extends u n d closing closing := by
  intro s hs
  rw [closing, closing, extends_comma hs]
  cases h : comma s with
  | none =>
    simp only [Option.map_none, extends_close hd hs, Option.map_map]
    rfl
  | some x =>
    simp only [Option.map_some, extends_close hd (balanced_comma.within hs h), Option.map_map]
    rfl

variable (hread : Reads inner Writable) (hcount : Accounts inner ofExpr)
include hread hcount

lemma extends_commaSeparated (h : Extends u n d inner inner') (hs : Within n d s) :
    commaSeparated inner' (s ++ ')' :: u) =
      ((commaSeparated inner s).1, (commaSeparated inner s).2 ++ ')' :: u) ∧
        Within n d (commaSeparated inner s).2 := by
  constructor
  · have hb : Balanced inner := balanced hread hcount fun _ => rfl
    have hmore : Balanced (both comma inner fun _ e => e) :=
      balanced (N := ofExpr) (reads_more hread)
        (accounts_both accounts_comma hcount fun _ _ => empty_append.symm) fun _ => rfl
    cases hx : inner s with
    | none =>
      have hx' : inner' (s ++ ')' :: u) = none := by rw [h hs, hx]; rfl
      rw [commaSeparated_of_none hx, commaSeparated_of_none hx']
    | some x =>
      have hx' : inner' (s ++ ')' :: u) = some (x.1, x.2 ++ ')' :: u) := by rw [h hs, hx]; rfl
      rw [commaSeparated_of_some hx, commaSeparated_of_some hx',
        extends_many (reads_more hread) hmore (extends_both balanced_comma extends_comma h)
          (hb.within hs hx)]
  · refine hs.rest (splits_commaSeparated hcount)
      ((commaSeparated_all hread).2.length_le.trans hs.length) ?_
    rw [total_ofExpr, Int.zero_add]

lemma extends_parenthesised (h : ∀ m, n = m + 1 → Extends u m (d + 1) inner inner') :
    Extends u n d (parenthesised inner) (parenthesised inner') := by
  -- between parentheses one more is open, and the text is shorter
  intro s hs
  rw [parenthesised_eq, parenthesised_eq, word_closed (by decide)]
  cases hx : word ['('] () s with
  | none => rfl
  | some x =>
    have hlt : x.2.length < s.length := (reads_word (by decide) hx).2.length_lt
    obtain ⟨m, rfl⟩ := Nat.exists_eq_succ_of_ne_zero (Nat.ne_zero_of_lt (hlt.trans_le hs.length))
    have hin : Within m (d + 1) x.2 :=
      hs.rest (accounts_word (by decide) hx) (Nat.le_of_lt_succ (hlt.trans_le hs.length))
        (by rw [ofToken]; push_cast; simp)
    obtain ⟨hitems, hrest⟩ := extends_commaSeparated hread hcount (h m rfl) hin
    simp only [Option.map_some, Option.bind_some, hitems, extends_closing (Nat.succ_pos d) hrest,
      Option.map_map]
    rfl

variable (h : ∀ m, n = m + 1 → Extends u m (d + 1) inner inner')
include h

lemma extends_atom : Extends u n d (atom inner) (atom inner') := by
  have hword : ∀ {w : String} {e : Expr}, ')' ∉ w.toList →
      Extends u n d (keyword w e) (keyword w e) := fun hw => extends_keyword hw
  have hliteral : Extends u n d literal literal :=
    extends_orElse (extends_orElse (hword (by decide)) (hword (by decide)))
      <| extends_orElse (extends_orElse (hword (by decide)) (hword (by decide)))
      <| extends_orElse (hword (by decide))
      <| extends_orElse (extends_token tokenReader_integer nofun)
        (extends_token tokenReader_string nofun)
  exact extends_around <| extends_orElse hliteral <|
    extends_orElse (extends_token tokenReader_name nofun) (extends_parenthesised hread hcount h)

lemma extends_unary : Extends u n d (unary inner) (unary inner') :=
  extends_signed reads_minus (accounts_word (by decide)) (extends_word (by decide))
    (extends_atom hread hcount h)

lemma extends_product : Extends u n d (product inner) (product inner') := by
  have hop : Extends u n d productOp productOp :=
    extends_orElse (extends_word (by decide)) <| extends_orElse (extends_word (by decide)) <|
      extends_orElse (extends_word (by decide)) (extends_word (by decide))
  exact extends_leftChain reads_productOp accounts_productOp hop (reads_unary hread)
    (accounts_unary hcount) (extends_unary hread hcount h)

lemma extends_sum : Extends u n d (sum inner) (sum inner') := by
  have hop : Extends u n d sumOp sumOp :=
    extends_orElse (extends_word (by decide)) (extends_word (by decide))
  exact extends_leftChain reads_sumOp accounts_sumOp hop (reads_product hread)
    (accounts_product hcount) (extends_product hread hcount h)

lemma extends_comparison : Extends u n d (comparison inner) (comparison inner') := by
  have hop : Extends u n d compareOp compareOp :=
    extends_orElse (extends_word (by decide)) <| extends_orElse (extends_word (by decide)) <|
      extends_orElse (extends_word (by decide)) <| extends_orElse (extends_word (by decide)) <|
        extends_orElse (extends_word (by decide)) (extends_word (by decide))
  have hbop : Balanced (around compareOp) :=
    balanced (reads_around reads_compareOp) (accounts_around accounts_compareOp) fun _ => rfl
  have hb : Balanced (sum inner) := balanced (reads_sum hread) (accounts_sum hcount) fun _ => rfl
  intro s hs
  rw [comparison, comparison, extends_sum hread hcount h hs]
  cases hx : sum inner s with
  | none => rfl
  | some x =>
    have hright := extends_both (f := fun op right => Expr.compare op x.1 right) hbop
      (extends_around hop) (extends_sum hread hcount h) (hb.within hs hx)
    simp only [Option.map_some, hright]
    cases both (around compareOp) (sum inner) (fun op right => Expr.compare op x.1 right) x.2 <;> rfl

lemma extends_negation : Extends u n d (negation inner) (negation inner') :=
  extends_signed reads_not (accounts_keyword (by decide) rfl) (extends_keyword (by decide))
    (extends_comparison hread hcount h)

lemma extends_conjunction : Extends u n d (conjunction inner) (conjunction inner') :=
  extends_leftChain reads_and (accounts_keyword (by decide) rfl) (extends_keyword (by decide))
    (reads_negation hread) (accounts_negation hcount) (extends_negation hread hcount h)

lemma extends_disjunction : Extends u n d (disjunction inner) (disjunction inner') :=
  extends_leftChain reads_or (accounts_keyword (by decide) rfl) (extends_keyword (by decide))
    (reads_conjunction hread) (accounts_conjunction hcount) (extends_conjunction hread hcount h)

omit hread hcount h in
lemma extends_nested {k k' : Nat} (hk : n < k) (hk' : n < k') :
    Extends u n d (nested k) (nested k') := by
  -- induction on the length of the text, which bounds how deep parentheses nest
  induction n generalizing d k k' with
  | zero =>
    obtain ⟨k, rfl⟩ := Nat.exists_eq_succ_of_ne_zero (Nat.ne_zero_of_lt hk)
    obtain ⟨k', rfl⟩ := Nat.exists_eq_succ_of_ne_zero (Nat.ne_zero_of_lt hk')
    exact extends_disjunction reads_nested accounts_nested nofun
  | succ n ih =>
    obtain ⟨k, rfl⟩ := Nat.exists_eq_succ_of_ne_zero (Nat.ne_zero_of_lt hk)
    obtain ⟨k', rfl⟩ := Nat.exists_eq_succ_of_ne_zero (Nat.ne_zero_of_lt hk')
    refine extends_disjunction reads_nested accounts_nested fun m hm => ?_
    cases hm
    exact ih (Nat.lt_of_succ_lt_succ hk) (Nat.lt_of_succ_lt_succ hk')

end Expressions

section Blanks

variable {p inner : Reader Expr}

def SkipsBlanks (p : Reader α) : Prop := ∀ s, p (skipBlanks s) = p s

lemma skipsBlanks_leftChain {op : Reader α} {f : α → Expr → Expr → Expr} (hp : SkipsBlanks p) :
    SkipsBlanks (leftChain p op f) := by
  intro s
  rw [leftChain, leftChain, hp]

lemma skipsBlanks_signed {sign : Reader Unit} {f : Expr → Expr} (hread : Reads sign fun _ => True)
    (hp : SkipsBlanks p) : SkipsBlanks fun s => signed sign f p s.length s := by
  intro s
  simp only
  rw [signed_congr hread le_rfl (length_skipBlanks_le (s := s))]
  cases s.length with
  | zero => exact hp s
  | succ n => rw [signed, signed, around_skipBlanks, hp]

lemma skipsBlanks_comparison (hp : SkipsBlanks (sum inner)) : SkipsBlanks (comparison inner) := by
  intro s
  rw [comparison, comparison, hp]

lemma skipsBlanks_nested : SkipsBlanks (nested n) := by
  cases n with
  | zero => exact fun _ => rfl
  | succ n =>
    have hatom : SkipsBlanks (atom (nested n)) := fun _ => around_skipBlanks
    have hsum : SkipsBlanks (sum (nested n)) :=
      skipsBlanks_leftChain (skipsBlanks_leftChain (skipsBlanks_signed reads_minus hatom))
    have hdisjunction : SkipsBlanks (disjunction (nested n)) :=
      skipsBlanks_leftChain <| skipsBlanks_leftChain <|
        skipsBlanks_signed reads_not (skipsBlanks_comparison hsum)
    exact hdisjunction

end Blanks

lemma spelled_grouped {e : Expr} (h : expression s = some e) (hn : s.length < n) :
    Spelled (nested n) ('(' :: (s ++ [')'])) e 7 := by
  refine ⟨le_rfl, solid_paren, fun r _ => ?_, fun _ => noNot_paren, fun _ => noMinus_paren⟩
  have hwithin : Within s.length 0 s := ⟨le_rfl, e.names, tally?_of_expression h⟩
  obtain ⟨v, hread, hv⟩ : ∃ v, nested (s.length + 1) s = some (e, v) ∧ skipBlanks v = [] := by
    have hs := Expr.expression_eq_some_iff.1 h
    rw [around, skipsBlanks_nested] at hs
    split at hs
    · cases hs
    · next hx =>
      obtain ⟨he, hv⟩ := Prod.mk.inj (Option.some.inj hs)
      exact ⟨_, he ▸ hx, hv⟩
  have hclosed : nested n (s ++ ')' :: r) = some (e, v ++ ')' :: r) := by
    rw [extends_nested (Nat.lt_succ_self _) hn hwithin, hread, Option.map_some]
  have hrest : skipBlanks (v ++ ')' :: r) = ')' :: r := by rw [skipBlanks_closed, hv, List.nil_append]
  rw [List.cons_append, List.append_assoc]
  exact atom_parens reads_nested hclosed hrest

end Parser

end ColouredPetri
