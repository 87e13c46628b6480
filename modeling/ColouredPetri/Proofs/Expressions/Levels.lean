import ColouredPetri.Proofs.Expressions.Atoms

/-! The levels of the parser. A level reads an expression that binds as tightly, goes on with the
operators of its own, and stops where none of them follows; the looser levels then give the same
expression, since the sign that they begin with does not stand there. -/

namespace ColouredPetri

namespace Parser

open Lexer Text Text.Reader Expr

variable {s r T : List Char} {L K n : Nat} {e : Expr} {inner : Reader Expr} {y : Style}

def level (inner : Reader Expr) : Nat → Reader Expr
  | 0 => disjunction inner
  | 1 => conjunction inner
  | 2 => negation inner
  | 3 => comparison inner
  | 4 => sum inner
  | 5 => product inner
  | 6 => unary inner
  | _ => atom inner

structure Stops (L : Nat) (r : List Char) : Prop where
  ends : Ends r
  or : L ≤ 0 → around (keyword "or" ()) r = none
  and : L ≤ 1 → around (keyword "and" ()) r = none
  compare : L ≤ 3 → around compareOp r = none
  sum : L ≤ 4 → around sumOp r = none
  product : L ≤ 5 → around productOp r = none

lemma Stops.mono (h : Stops L r) (hle : L ≤ K) : Stops K r where
  ends := h.ends
  or := fun h' => h.or (hle.trans h')
  and := fun h' => h.and (hle.trans h')
  compare := fun h' => h.compare (hle.trans h')
  sum := fun h' => h.sum (hle.trans h')
  product := fun h' => h.product (hle.trans h')

lemma Stops.of_succ (h : Stops (L + 1) r) (hL : L = 2 ∨ L = 6) : Stops L r where
  ends := h.ends
  or := fun h' => by omega
  and := fun h' => by omega
  compare := fun h' => h.compare (by omega)
  sum := fun h' => h.sum (by omega)
  product := fun h' => h.product (by omega)

lemma around_skipBlanks {α : Type} {p : Reader α} : around p (skipBlanks s) = around p s := by
  rw [around, around, skipBlanks_skipBlanks]

def NoNot (T : List Char) : Prop := ∀ ⦃r⦄, Ends r → around (keyword "not" ()) (T ++ r) = none

def NoMinus (T : List Char) : Prop := ∀ ⦃r⦄, Ends r → around (word ['-'] ()) (T ++ r) = none

def rest (inner : Reader Expr) : Nat → Expr → List Char → Expr × List Char
  | 0 => chain (conjunction inner) (keyword "or" ()) fun _ => .or
  | 1 => chain (negation inner) (keyword "and" ()) fun _ => .and
  | 4 => chain (product inner) sumOp .arith
  | 5 => chain (unary inner) productOp .arith
  | _ => fun e s => (e, s)

lemma rest_of_stops (hin : Reads inner Writable) (hr : Stops L r) :
    rest inner L e (skipBlanks r) = (e, skipBlanks r) := by
  match L, hr with
  | 0, hr =>
    exact chain_of_none (f := fun _ => .or) reads_or (reads_conjunction hin)
      (around_skipBlanks.trans (hr.or le_rfl))
  | 1, hr =>
    exact chain_of_none (f := fun _ => .and) reads_and (reads_negation hin)
      (around_skipBlanks.trans (hr.and le_rfl))
  | 2, _ => rfl
  | 3, _ => rfl
  | 4, hr =>
    exact chain_of_none reads_sumOp (reads_product hin) (around_skipBlanks.trans (hr.sum le_rfl))
  | 5, hr =>
    exact chain_of_none reads_productOp (reads_unary hin)
      (around_skipBlanks.trans (hr.product le_rfl))
  | _ + 6, _ => rfl

structure Spelled (inner : Reader Expr) (T : List Char) (e : Expr) (K : Nat) : Prop where
  le : K ≤ 7
  solid : Solid T
  opened : ∀ ⦃r⦄, Stops (K + 1) r → level inner K (T ++ r) = some (rest inner K e (skipBlanks r))
  noNot : 3 ≤ K → NoNot T
  noMinus : 7 ≤ K → NoMinus T

lemma level_of_tighter (hL : L < 7) (hr : Stops L r)
    (hnot : L = 2 → NoNot T) (hminus : L = 6 → NoMinus T)
    (h : level inner (L + 1) (T ++ r) = some (e, skipBlanks r)) :
    level inner L (T ++ r) = some (rest inner L e (skipBlanks r)) := by
  match L, hL with
  | 0, _ => exact leftChain_of_some (f := fun _ => .or) h
  | 1, _ => exact leftChain_of_some (f := fun _ => .and) h
  | 2, _ => exact (signed_of_none (hnot rfl hr.ends)).trans h
  | 3, _ =>
    have hs : sum inner (T ++ r) = some (e, skipBlanks r) := h
    have hop : around compareOp (skipBlanks r) = none :=
      around_skipBlanks.trans (hr.compare le_rfl)
    rw [level, comparison, hs]
    simp only [both, hop]
    rfl
  | 4, _ => exact leftChain_of_some h
  | 5, _ => exact leftChain_of_some h
  | 6, _ => exact (signed_of_none (hminus rfl hr.ends)).trans h

lemma Spelled.read (h : Spelled inner T e K) (hin : Reads inner Writable) (hL : L ≤ K)
    (hr : Stops L r) : level inner L (T ++ r) = some (e, skipBlanks r) := by
  induction hL using Nat.decreasingInduction with
  | self => rw [h.opened (hr.mono (Nat.le_succ K)), rest_of_stops hin hr]
  | of_succ L hL ih =>
    rw [level_of_tighter (hL.trans_le h.le) hr ?_ ?_ (ih (hr.mono (Nat.le_succ L))),
      rest_of_stops hin hr]
    · rintro rfl
      exact h.noNot hL
    · rintro rfl
      exact h.noMinus hL

lemma Spelled.open (h : Spelled inner T e K) (hin : Reads inner Writable)
    (hchain : L ∈ [0, 1, 4, 5]) (hL : L ≤ K) (hr : Stops (L + 1) r) :
    level inner L (T ++ r) = some (rest inner L e (skipBlanks r)) := by
  rcases hL.eq_or_lt with rfl | hlt
  · exact h.opened hr
  · have hread := h.read hin hlt hr
    simp only [List.mem_cons, List.not_mem_nil, or_false] at hchain
    rcases hchain with rfl | rfl | rfl | rfl
    · exact leftChain_of_some (f := fun _ => .or) hread
    · exact leftChain_of_some (f := fun _ => .and) hread
    · exact leftChain_of_some hread
    · exact leftChain_of_some hread

end Parser

end ColouredPetri
