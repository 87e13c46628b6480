import ColouredPetri.Proofs.Expressions.Lexemes

/-! What a reading takes and gives. Each reader of expressions takes whole tokens and at least one of
them, so that the loops of the parser never run out of their bounds and can be unfolded step by step,
and a text that is read to its end can be cut into tokens. -/

namespace ColouredPetri

namespace Parser

open Lexer Text Text.Reader

variable {α β γ : Type} {p : Reader α} {q : Reader β} {P : α → Prop} {Q : β → Prop} {R : γ → Prop}
  {s r r' w : List Char} {a : α} {n : Nat}

def Cut (s : List Char) : Prop := (pieces? s).isSome = true

/-- What is left of a text when some tokens are taken, but at least one, and blanks with them. -/
inductive Eats : List Char → List Char → Prop
  | token {s t r : List Char} {k : TokenKind} (h : token? k s = some (t, r)) : Eats s r
  | before {s r : List Char} (h : Eats (skipBlanks s) r) : Eats s r
  | behind {s r : List Char} (h : Eats s r) : Eats s (skipBlanks r)
  | trans {s r u : List Char} (h : Eats s r) (h' : Eats r u) : Eats s u

lemma length_skipBlanks_le : (skipBlanks s).length ≤ s.length := (List.dropWhile_sublist _).length_le

lemma Eats.length_lt (h : Eats s r) : r.length < s.length := by
  induction h with
  | token h =>
    obtain ⟨hne, rfl⟩ := token?_append h
    rw [List.length_append]
    exact Nat.lt_add_of_pos_left (List.length_pos_iff.2 hne)
  | before _ ih => exact ih.trans_le length_skipBlanks_le
  | behind _ ih => exact length_skipBlanks_le.trans_lt ih
  | trans _ _ ih ih' => exact ih'.trans ih

lemma cut_iff : Cut s ↔
    skipBlanks s = [] ∨ ∃ k t r, token? k (skipBlanks s) = some (t, r) ∧ Cut r := by
  constructor
  · intro h
    obtain ⟨⟨ps, e⟩, h⟩ := Option.isSome_iff_exists.1 h
    obtain ⟨hs, -, -⟩ | ⟨k, t, r, qs, ht, -, hr⟩ := pieces?_eq_some h
    · exact .inl hs
    · exact .inr ⟨k, t, r, ht, Option.isSome_iff_exists.2 ⟨_, hr⟩⟩
  · rintro (h | ⟨k, t, r, ht, hr⟩)
    · rw [Cut, pieces?, if_pos h]
      rfl
    · rw [Cut, pieces?_of_token? ht, Option.isSome_map]
      exact hr

lemma cut_skipBlanks : Cut (skipBlanks s) ↔ Cut s := by
  rw [cut_iff, skipBlanks_skipBlanks, ← cut_iff]

lemma Eats.cut (h : Eats s r) (hr : Cut r) : Cut s := by
  induction h with
  | token h =>
    exact cut_iff.2 (.inr ⟨_, _, _, (skipBlanks_of_token? h).symm ▸ h, hr⟩)
  | before _ ih => exact cut_skipBlanks.1 (ih hr)
  | behind _ ih => exact ih (cut_skipBlanks.1 hr)
  | trans _ _ ih ih' => exact ih (ih' hr)

def Leaves (s r : List Char) : Prop := s = r ∨ Eats s r

lemma Leaves.length_le (h : Leaves s r) : r.length ≤ s.length := by
  obtain rfl | h := h
  · exact le_rfl
  · exact h.length_lt.le

lemma Eats.leaves (h : Eats s r) (h' : Leaves r r') : Eats s r' := by
  obtain rfl | h' := h'
  · exact h
  · exact h.trans h'

def Reads (p : Reader α) (P : α → Prop) : Prop :=
  ∀ ⦃s a r⦄, p s = some (a, r) → P a ∧ Eats s r

lemma reads_token {k : TokenKind} {g : List Char → Option α} (hp : TokenReader k p g)
    (hg : ∀ {s t r a}, token? k s = some (t, r) → g t = some a → P a) : Reads p P := by
  intro s e r h
  rw [hp, Option.bind_eq_some_iff] at h
  obtain ⟨⟨t, r⟩, ht, h⟩ := h
  obtain ⟨e, he, h⟩ := Option.map_eq_some_iff.1 h
  cases h
  exact ⟨hg ht he, .token ht⟩

lemma reads_keyword {w : String} (hw : isIdentifier w.toList = true) (ha : P a) :
    Reads (keyword w a) P := by
  intro s b r h
  have ht : token? .name s = some (w.toList, r) := keyword_identifier hw h
  obtain ⟨-, -, rfl⟩ := keyword_eq_some_iff.1 h
  exact ⟨ha, .token ht⟩

lemma reads_around (hp : Reads p P) : Reads (around p) P := by
  intro s a r h
  rw [around] at h
  split at h
  · cases h
  · next hs =>
    cases h
    obtain ⟨ha, hr⟩ := hp hs
    exact ⟨ha, hr.before.behind⟩

lemma reads_orElse {p' : Reader α} (hp : Reads p P) (hp' : Reads p' P) : Reads (orElse p p') P := by
  intro s a r h
  rw [orElse] at h
  split at h
  · next hs =>
    cases h
    exact hp hs
  · exact hp' h

lemma both_eq_some {f : α → β → γ} {c : γ} (h : both p q f s = some (c, r)) :
    ∃ a u b, p s = some (a, u) ∧ q u = some (b, r) ∧ f a b = c := by
  rw [both] at h
  split at h
  · cases h
  · next hs =>
    split at h
    · cases h
    · next hu =>
      cases h
      exact ⟨_, _, _, hs, hu, rfl⟩

lemma reads_both {f : α → β → γ} (hp : Reads p P) (hq : Reads q Q)
    (hf : ∀ a b, P a → Q b → R (f a b)) : Reads (both p q f) R := by
  intro s c r h
  obtain ⟨a, u, b, hs, hu, rfl⟩ := both_eq_some h
  obtain ⟨ha, heats⟩ := hp hs
  obtain ⟨hb, heats'⟩ := hq hu
  exact ⟨hf _ _ ha hb, heats.trans heats'⟩

lemma Reads.not_nil (hp : Reads p P) : p [] = none := by
  cases h : p [] with
  | none => rfl
  | some x => exact absurd (hp h).2.length_lt (Nat.not_lt_zero _)

lemma manyUpTo_congr (hp : Reads p P) {m : Nat} (hn : s.length ≤ n) (hm : s.length ≤ m) :
    manyUpTo p n s = manyUpTo p m s := by
  induction n generalizing s m with
  | zero =>
    obtain rfl := List.eq_nil_of_length_eq_zero (Nat.le_zero.1 hn)
    cases m with
    | zero => rfl
    | succ m => rw [manyUpTo, manyUpTo, hp.not_nil]
  | succ n ih =>
    cases m with
    | zero =>
      obtain rfl := List.eq_nil_of_length_eq_zero (Nat.le_zero.1 hm)
      rw [manyUpTo, manyUpTo, hp.not_nil]
    | succ m =>
      rw [manyUpTo, manyUpTo]
      cases hs : p s with
      | none => rfl
      | some x =>
        have hlt := (hp hs).2.length_lt
        simp only [ih (Nat.le_of_lt_succ (hlt.trans_le hn)) (Nat.le_of_lt_succ (hlt.trans_le hm))]

lemma many_of_none (hp : Reads p P) (hs : p s = none) : many p s = ([], s) := by
  rw [many, manyUpTo_congr hp le_rfl (Nat.le_succ _), manyUpTo, hs]

lemma many_of_some (hp : Reads p P) (hs : p s = some (a, r)) :
    many p s = (a :: (many p r).1, (many p r).2) := by
  rw [many, manyUpTo_congr hp le_rfl (Nat.le_succ _), manyUpTo, hs]
  simp only [manyUpTo_congr hp (hp hs).2.length_lt.le le_rfl, many]

lemma manyUpTo_all (hp : Reads p P) :
    (∀ a ∈ (manyUpTo p n s).1, P a) ∧ Leaves s (manyUpTo p n s).2 := by
  induction n generalizing s with
  | zero => exact ⟨List.forall_mem_nil _, .inl rfl⟩
  | succ n ih =>
    rw [manyUpTo]
    cases hs : p s with
    | none => exact ⟨List.forall_mem_nil _, .inl rfl⟩
    | some x =>
      obtain ⟨ha, heats⟩ := hp hs
      obtain ⟨hl, hleaves⟩ := ih (s := x.2)
      exact ⟨List.forall_mem_cons.2 ⟨ha, hl⟩, .inr (heats.leaves hleaves)⟩

section Signs

variable {sign : Reader Unit} {f : Expr → Expr} {p : Reader Expr} {e : Expr} {S : Expr → Prop}

lemma reads_signed (hsign : Reads sign fun _ => True) (hp : Reads p S) (hf : ∀ e, S e → S (f e)) :
    Reads (signed sign f p n) S := by
  induction n with
  | zero => exact hp
  | succ n ih =>
    intro s e r h
    rw [signed] at h
    split at h
    · exact hp h
    · next hs =>
      split at h
      · exact hp h
      · next hr =>
        cases h
        obtain ⟨he, heats⟩ := ih hr
        exact ⟨hf _ he, (reads_around hsign hs).2.trans heats⟩

lemma signed_congr (hsign : Reads sign fun _ => True) {m : Nat} (hn : s.length ≤ n)
    (hm : s.length ≤ m) : signed sign f p n s = signed sign f p m s := by
  have hnil := (reads_around hsign).not_nil
  induction n generalizing s m with
  | zero =>
    obtain rfl := List.eq_nil_of_length_eq_zero (Nat.le_zero.1 hn)
    cases m with
    | zero => rfl
    | succ m => rw [signed, signed, hnil]
  | succ n ih =>
    cases m with
    | zero =>
      obtain rfl := List.eq_nil_of_length_eq_zero (Nat.le_zero.1 hm)
      rw [signed, signed, hnil]
    | succ m =>
      rw [signed, signed]
      cases hs : around sign s with
      | none => rfl
      | some x =>
        have hlt := (reads_around hsign hs).2.length_lt
        simp only [ih (Nat.le_of_lt_succ (hlt.trans_le hn)) (Nat.le_of_lt_succ (hlt.trans_le hm))]

lemma signed_of_none (hs : around sign s = none) : signed sign f p n s = p s := by
  cases n with
  | zero => rfl
  | succ n => rw [signed, hs]

lemma signed_of_some (hsign : Reads sign fun _ => True) {u : Unit}
    (hs : around sign s = some (u, r)) (hr : signed sign f p r.length r = some (e, r')) :
    signed sign f p s.length s = some (f e, r') := by
  rw [signed_congr hsign le_rfl (Nat.le_succ _), signed, hs]
  simp only [signed_congr hsign (reads_around hsign hs).2.length_lt.le le_rfl, hr]

end Signs

section Chains

variable {op : Reader α} {f : α → Expr → Expr → Expr} {operand : Reader Expr} {e e' : Expr}
  {S : Expr → Prop}

def chain (operand : Reader Expr) (op : Reader α) (f : α → Expr → Expr → Expr) (e : Expr)
    (s : List Char) : Expr × List Char :=
  let (l, r) := many (both (around op) operand Prod.mk) s
  (l.foldl (fun acc x => f x.1 acc x.2) e, r)

lemma leftChain_of_some (hs : operand s = some (e, r)) :
    leftChain operand op f s = some (chain operand op f e r) := by
  rw [leftChain, hs]
  rfl

lemma reads_link (hop : Reads op P) (hoperand : Reads operand S) :
    Reads (both (around op) operand Prod.mk) fun x => S x.2 :=
  reads_both (reads_around hop) hoperand fun _ _ _ h => h

lemma chain_of_none (hop : Reads op P) (hoperand : Reads operand S) (hs : around op s = none) :
    chain operand op f e s = (e, s) := by
  rw [chain, many_of_none (reads_link hop hoperand) (by rw [both, hs])]
  rfl

lemma chain_of_some (hop : Reads op P) (hoperand : Reads operand S)
    (hs : around op s = some (a, r)) (hr : operand r = some (e', r')) :
    chain operand op f e s = chain operand op f (f a e e') r' := by
  have hlink : both (around op) operand Prod.mk s = some ((a, e'), r') := by
    rw [both, hs]
    simp only [hr]
  rw [chain, many_of_some (reads_link hop hoperand) hlink]
  rfl

lemma foldl_chain {l : List (α × Expr)} (he : S e) (hl : ∀ x ∈ l, S x.2)
    (hf : ∀ a e e', S e → S e' → S (f a e e')) :
    S (l.foldl (fun acc x => f x.1 acc x.2) e) := by
  induction l generalizing e with
  | nil => exact he
  | cons x l ih =>
    obtain ⟨hx, hl⟩ := List.forall_mem_cons.1 hl
    exact ih (hf _ _ _ he hx) hl

lemma reads_leftChain (hop : Reads op P) (hoperand : Reads operand S)
    (hf : ∀ a e e', S e → S e' → S (f a e e')) : Reads (leftChain operand op f) S := by
  intro s e r h
  rw [leftChain] at h
  split at h
  · cases h
  · next hs =>
    cases h
    obtain ⟨he, heats⟩ := hoperand hs
    obtain ⟨hl, hleaves⟩ := manyUpTo_all (reads_link hop hoperand)
    exact ⟨foldl_chain he hl hf, heats.leaves hleaves⟩

end Chains

section Parentheses

variable {inner : Reader Expr} {S : Expr → Prop} {b : Bool}

def group : List Expr → Bool → Expr
  | [e], false => e
  | items, _ => .tuple items

def closing : Reader Bool := fun s =>
  match comma s with
  | some (_, r) => (around (word [')'] ()) r).map fun x => (true, x.2)
  | none => (around (word [')'] ()) s).map fun x => (false, x.2)

lemma parenthesised_eq : parenthesised inner s = (word ['('] () s).bind fun x =>
    (closing (commaSeparated inner x.2).2).map fun y =>
      (group (commaSeparated inner x.2).1 y.1, y.2) := by
  rw [parenthesised]
  cases word ['('] () s with
  | none => rfl
  | some x =>
    simp only [Option.bind_some, closing]
    cases comma (commaSeparated inner x.2).2 with
    | none =>
      simp only
      cases around (word [')'] ()) (commaSeparated inner x.2).2 with
      | none => rfl
      | some y =>
        simp only [Option.map_some]
        rcases (commaSeparated inner x.2).1 with _ | ⟨e, _ | ⟨e', l⟩⟩ <;> rfl
    | some z =>
      simp only
      cases around (word [')'] ()) z.2 with
      | none => rfl
      | some y =>
        simp only [Option.map_some]
        rcases (commaSeparated inner x.2).1 with _ | ⟨e, _ | ⟨e', l⟩⟩ <;> rfl

lemma parenthesised_eq_some {e : Expr} {r : List Char} (h : parenthesised inner s = some (e, r)) :
    ∃ (x : Unit × List Char) (b : Bool), word ['('] () s = some x ∧
      closing (commaSeparated inner x.2).2 = some (b, r) ∧
        e = group (commaSeparated inner x.2).1 b := by
  rw [parenthesised_eq] at h
  obtain ⟨x, hx, h⟩ := Option.bind_eq_some_iff.1 h
  obtain ⟨⟨b, r'⟩, hy, h⟩ := Option.map_eq_some_iff.1 h
  cases h
  exact ⟨x, b, hx, hy, rfl⟩

lemma reads_word {c : Char} (hc : c ∈ ['-', ',', '(', ')']) :
    Reads (word [c] ()) fun _ => True :=
  reads_token (tokenReader_word hc) fun _ _ => trivial

lemma reads_comma : Reads comma fun _ => True := reads_around (reads_word (by decide))

lemma reads_closing : Reads closing fun _ => True := by
  intro s b r h
  have hclose : Reads (around (word [')'] ())) fun _ => True :=
    reads_around (reads_word (by decide))
  rw [closing] at h
  split at h
  · next hs =>
    obtain ⟨x, hx, hb⟩ := Option.map_eq_some_iff.1 h
    cases hb
    exact ⟨trivial, (reads_comma hs).2.trans (hclose hx).2⟩
  · obtain ⟨x, hx, hb⟩ := Option.map_eq_some_iff.1 h
    cases hb
    exact ⟨trivial, (hclose hx).2⟩

lemma commaSeparated_of_none (hs : inner s = none) : commaSeparated inner s = ([], s) := by
  rw [commaSeparated, hs]

lemma commaSeparated_of_some {e : Expr} (hs : inner s = some (e, r)) :
    commaSeparated inner s =
      (e :: (many (both comma inner fun _ e => e) r).1,
        (many (both comma inner fun _ e => e) r).2) := by
  rw [commaSeparated, hs]

lemma commaSeparated_all (hinner : Reads inner S) :
    (∀ e ∈ (commaSeparated inner s).1, S e) ∧ Leaves s (commaSeparated inner s).2 := by
  cases hs : inner s with
  | none =>
    rw [commaSeparated_of_none hs]
    exact ⟨nofun, .inl rfl⟩
  | some x =>
    obtain ⟨he, heats⟩ := hinner hs
    obtain ⟨hl, hleaves⟩ := manyUpTo_all (n := x.2.length) (s := x.2)
      (reads_both reads_comma hinner fun _ e _ he => he)
    rw [commaSeparated_of_some hs]
    exact ⟨List.forall_mem_cons.2 ⟨he, hl⟩, .inr (heats.leaves hleaves)⟩

lemma forall_group {l : List Expr} (hl : ∀ e ∈ l, S e)
    (htuple : ∀ l, (∀ e ∈ l, S e) → S (.tuple l)) : S (group l b) := by
  match l, b with
  | [e], false => exact hl e (List.mem_singleton_self e)
  | [e], true => exact htuple _ hl
  | [], _ => exact htuple _ hl
  | e :: e' :: l, _ => exact htuple _ hl

lemma reads_parenthesised (hinner : Reads inner S) (htuple : ∀ l, (∀ e ∈ l, S e) → S (.tuple l)) :
    Reads (parenthesised inner) S := by
  intro s e r h
  obtain ⟨x, b, hx, hy, rfl⟩ := parenthesised_eq_some h
  obtain ⟨hall, hleaves⟩ := commaSeparated_all (s := x.2) hinner
  have hopen : Reads (word ['('] ()) fun _ => True := reads_word (by decide)
  exact ⟨forall_group hall htuple, ((hopen hx).2.leaves hleaves).trans (reads_closing hy).2⟩

end Parentheses

lemma reads_minus : Reads (word ['-'] ()) fun _ => True := reads_word (by decide)

lemma reads_not : Reads (keyword "not" ()) fun _ => True := reads_keyword (by decide) trivial

lemma reads_and : Reads (keyword "and" ()) fun _ => True := reads_keyword (by decide) trivial

lemma reads_or : Reads (keyword "or" ()) fun _ => True := reads_keyword (by decide) trivial

lemma reads_productOp : Reads productOp fun _ => True :=
  reads_token tokenReader_productOp fun _ _ => trivial

lemma reads_sumOp : Reads sumOp fun _ => True := reads_token tokenReader_sumOp fun _ _ => trivial

lemma reads_compareOp : Reads compareOp fun _ => True :=
  reads_token tokenReader_compareOp fun _ _ => trivial

end Parser

end ColouredPetri
