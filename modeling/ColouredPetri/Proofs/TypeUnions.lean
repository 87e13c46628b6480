import ColouredPetri.Proofs.Descriptions.Types

/-! Unions of types. The specification of a type loses nothing, however unions are nested in it, and
uniting types one after the other accepts what one of them accepts. -/

namespace ColouredPetri

namespace TokenType

lemma someAccepts_iff {v : Value} {l : List TokenType} :
    someAccepts v l = true ↔ ∃ t ∈ l, accepts v t = true := by
  induction l with
  | nil => simp [someAccepts]
  | cons t l ih => simp [someAccepts, ih]

lemma accepts_foldl_unite (v : Value) (t : TokenType) (l : List TokenType) :
    accepts v (l.foldl unite t) = accepts v (union (t :: l)) := by
  induction l generalizing t with
  | nil => simp [accepts, someAccepts]
  | cons u l ih =>
    rw [List.foldl_cons, ih]
    simp [accepts, someAccepts, accepts_unite, Bool.or_assoc]

theorem specs_faithful (t : TokenType) (l : List TokenType) (v : Value) :
    (∀ s, t.spec? = some s → (accepts v s.build = true ↔ accepts v t = true)) ∧
      (accepts v (l.foldl unite t) = true ↔ ∃ u ∈ t :: l, accepts v u = true) := by
  constructor
  · intro s hs
    exact accepts_build v hs
  · rw [accepts_foldl_unite, accepts, someAccepts_iff]

def even : TokenType := predicate "even" fun v =>
  match v.asInt? with
  | some n => n % 2 == 0
  | none => false

def digitsOrMore : TokenType :=
  union [oneOf (KeySet.ofList [.int 1, .int 2]), union [oneOf Table.empty, union [any, even]]]

theorem specs_faithful_nested :
    digitsOrMore.spec? = some .any ∧ even.spec? = none ∧
      accepts (.str "a") TypeSpec.any.build = accepts (.str "a") digitsOrMore ∧
      accepts (.int 4) ([kind .str, even].foldl unite (oneOf (KeySet.ofList [.int 1]))) = true ∧
      accepts (.int 3) ([kind .str, even].foldl unite (oneOf (KeySet.ofList [.int 1]))) = false := by
  have hspec : digitsOrMore.spec? = some .any := by decide
  refine ⟨hspec, rfl, ?_, ?_, ?_⟩
  · exact Bool.eq_iff_iff.2 ((specs_faithful digitsOrMore [] (.str "a")).1 .any hspec)
  · refine (specs_faithful _ _ _).2.2 ⟨even, by simp, by decide⟩
  · refine Bool.eq_false_iff.2 fun h => ?_
    obtain ⟨u, hu, hv⟩ := (specs_faithful _ _ _).2.1 h
    simp only [List.mem_cons, List.not_mem_nil, or_false] at hu
    obtain rfl | rfl | rfl := hu <;> revert hv <;> decide

end TokenType

end ColouredPetri
