import ColouredPetri.Proofs.Expressions.Legibility

/-! The grammar of expressions. What the parser reads are the expressions that a text can express, and
each of them is read from its own text. -/

namespace ColouredPetri

open Lexer ColouredPetri.Parser

namespace Expr

variable {y : Style} {e : Expr}

lemma parse_eq_ok_iff {source : String} :
    parse source = .ok e ↔ expression source.toList = some e := by
  rw [parse]
  cases expression source.toList with
  | none => exact ⟨nofun, nofun⟩
  | some e' => simp

lemma expression_eq_some_iff {s : List Char} :
    expression s = some e ↔ around (nested (s.length + 1)) s = some (e, []) := by
  rw [expression]
  constructor
  · intro h
    split at h
    · next hs =>
      cases h
      exact hs
    · cases h
  · intro h
    rw [h]

lemma writable_of_parse {source : String} (h : parse source = .ok e) : e.Writable :=
  (reads_around reads_nested (expression_eq_some_iff.1 (parse_eq_ok_iff.1 h))).1

lemma stops_end : Stops 0 [] where
  ends := nofun
  or := fun _ => rfl
  and := fun _ => rfl
  compare := fun _ => rfl
  sum := fun _ => rfl
  product := fun _ => rfl

lemma parse_of_spelled {T : List Char} {K : Nat} (h : Spelled (nested T.length) T e K) :
    parse (String.ofList T) = .ok e := by
  have hread := h.read reads_nested (Nat.zero_le _) stops_end
  have hblank := h.solid.skipBlanks (r := [])
  rw [List.append_nil] at hread hblank
  have hnested : nested (T.length + 1) T = some (e, []) := hread
  rw [parse_eq_ok_iff, String.toList_ofList, expression_eq_some_iff, around, hblank, hnested]
  rfl

lemma parse_of_writable (h : e.Writable) : parse (e.print y) = .ok e :=
  parse_of_spelled (legible (y := y) h _ le_rfl)

theorem parse_print (y : Style) (e : Expr) :
    (e.Writable → parse (e.print y) = .ok e) ∧
      ∀ source, parse source = .ok e → e.Writable ∧ parse (e.print y) = .ok e :=
  ⟨parse_of_writable, fun _ h => ⟨writable_of_parse h, parse_of_writable (writable_of_parse h)⟩⟩

def sample : Expr :=
  .and (.compare .lt (.arith .sub (.name "a") (.arith .sub (.lit (.int 1)) (.neg (.name "b"))))
    (.arith .div (.name "c") (.lit (.int 2)))) (.not (.tuple [.lit (.str "it's")]))

example : sample.print ⟨true, false⟩ = "a - (1 - -b) < c // 2 and not (\"it's\",)" := by decide +kernel

theorem parse_print_sample :
    sample.Writable ∧ parse (sample.print ⟨true, false⟩) = .ok sample ∧
      parse "a-(1--b)<c//2 and(not(\"it's\" , ))" = .ok sample := by
  have hw : sample.Writable :=
    .and (.compare (.arith (.name (by decide) (by decide)) (.arith (.int (by decide))
      (.neg (.name (by decide) (by decide))))) (.arith (.name (by decide) (by decide))
        (.int (by decide)))) (.not (.tuple fun e he => by
          obtain rfl := List.mem_singleton.1 he
          exact .str (.inr (by decide))))
  have hread := ((parse_print ⟨true, false⟩ sample).2 "a-(1--b)<c//2 and(not(\"it's\" , ))" (by rfl))
  exact ⟨hread.1, (parse_print ⟨true, false⟩ sample).1 hw, by rfl⟩

end Expr

end ColouredPetri
