import ColouredPetri.Arc.Modes
import ColouredPetri.Proofs.Failures

namespace ColouredPetri

inductive Error.OfValues : Error → Prop where
  | eval (cause : EvalError) : OfValues (.eval cause)
  | unbound (name : String) : OfValues (.domain (.unbound name))
  | refuted (b : Binding) : OfValues (.mode (.conditionFailed b))

lemma Error.OfValues.isNodeMissing {e : Error} (h : e.OfValues) : e.isNodeMissing = false := by
  cases h <;> rfl

lemma ofValues_eval {α : Type} (x : Except EvalError α) :
    FailsWith Error.OfValues (liftM x : Except Error α) :=
  failsWith_mapError fun cause _ => .eval cause

lemma failsWith_keepModes {P : Error → Prop} {check : Binding → Except Error Bool}
    {l : List Binding} (hc : ∀ b ∈ l, FailsWith (fun e => e.isDomain = true ∨ P e) (check b)) :
    FailsWith P (keepModes check l) := by
  -- domain errors of the check are not passed on
  induction l with
  | nil => exact failsWith_ok []
  | cons b l ih =>
    obtain ⟨hb, hl⟩ := List.forall_mem_cons.1 hc
    have hrest := ih hl
    rw [keepModes]
    split
    · exact hrest.bind_pure
    · exact hrest
    · next e he =>
      split
      · exact hrest
      · next hd => exact failsWith_error ((hb e he).resolve_left hd)

lemma avoids_keepModes {bad : Error → Bool} {check : Binding → Except Error Bool}
    {l : List Binding} (hc : ∀ b ∈ l, Avoids bad (check b)) : Avoids bad (keepModes check l) :=
  failsWith_keepModes fun b hb e he => .inr (hc b hb e he)

namespace Arc

variable {s : Scope}

mutual

def leaves : Arc → List Arc
  | multi parts => leavesAll parts
  | tuple parts => leavesAll parts
  | test inner => leaves inner
  | flush inner => leaves inner
  | a => [a]

def leavesAll : List Arc → List Arc
  | [] => []
  | a :: l => leaves a ++ leavesAll l

end

inductive LeafError (s : Scope) : Arc → Error → Prop where
  | unbound {name : String} : s.binding.get? name = none →
      LeafError s (var name) (.domain (.unbound name))
  | unvalued {f : Formula} {cause : EvalError} : f.eval s = .error cause →
      LeafError s (formula f) (.eval cause)
  | undecided {inner : Arc} {f : Formula} {cause : EvalError} : f.holds s = .error cause →
      LeafError s (inhibitor inner f) (.eval cause)
  | refuted {inner : Arc} {f : Formula} : f.holds s = .ok false →
      LeafError s (inhibitor inner f) (.mode (.conditionFailed s.binding))

def FailsIn (s : Scope) (l : List Arc) (e : Error) : Prop := ∃ a ∈ l, LeafError s a e

lemma FailsIn.mono {l l' : List Arc} {e : Error} (h : FailsIn s l e) (hl : l ⊆ l') :
    FailsIn s l' e := by
  obtain ⟨a, ha, he⟩ := h
  exact ⟨a, hl ha, he⟩

lemma failsIn_append {α β γ : Type} {x : Except Error α} {y : Except Error β} {f : α → β → γ}
    {l l' : List Arc} (hx : FailsWith (FailsIn s l) x) (hy : FailsWith (FailsIn s l') y) :
    FailsWith (FailsIn s (l ++ l')) (x >>= fun a => y >>= fun b => pure (f a b)) := by
  refine (hx.mono fun e he => he.mono (List.subset_append_left _ _)).bind fun a _ => ?_
  exact (hy.mono fun e he => he.mono (List.subset_append_right _ _)).bind_pure

mutual

lemma failsIn_bind : ∀ a : Arc, FailsWith (FailsIn s (leaves a)) (a.bind s)
  | value v => by
    rw [Arc.bind]
    exact failsWith_ok v
  | var name => by
    rw [Arc.bind]
    refine failsWith_mapError fun cause hc => ?_
    rw [Binding.lookup] at hc
    split at hc
    · cases hc
    · next hn =>
      cases hc
      exact ⟨var name, List.mem_singleton_self _, .unbound hn⟩
  | formula f => by
    rw [Arc.bind]
    exact failsWith_mapError fun _ hc => ⟨formula f, List.mem_singleton_self _, .unvalued hc⟩
  | multi parts => by
    rw [Arc.bind]
    exact (failsIn_bindAll parts).bind_pure
  | tuple parts => by
    rw [Arc.bind]
    exact (failsIn_bindAll parts).bind_pure
  | test inner => by
    rw [Arc.bind]
    exact failsIn_bind inner
  | inhibitor inner condition => by
    rw [Arc.bind]
    refine FailsWith.bind (failsWith_mapError fun cause hc => ?_) fun holds hh => ?_
    · exact ⟨inhibitor inner condition, List.mem_singleton_self _, .undecided hc⟩
    · cases holds with
      | true => exact failsWith_ok _
      | false =>
        rw [lift_eval, mapError_eq_ok_iff] at hh
        exact failsWith_error ⟨_, List.mem_singleton_self _, .refuted hh⟩
  | flush inner => by
    rw [Arc.bind]
    exact (failsIn_bind inner).bind_pure

lemma failsIn_bindAll : ∀ l : List Arc, FailsWith (FailsIn s (leavesAll l)) (bindAll s l)
  | [] => by
    rw [bindAll]
    exact failsWith_ok []
  | a :: l => by
    rw [bindAll]
    exact failsIn_append (failsIn_bind a) (failsIn_bindAll l)

end

mutual

lemma failsIn_tokens : ∀ a : Arc, FailsWith (FailsIn s (leaves a)) (a.tokens s)
  | value v => by rw [tokens]; exact failsWith_ok [v]
  | var name => by rw [tokens]; exact (failsIn_bind (var name)).bind_pure
  | formula f => by rw [tokens]; exact (failsIn_bind (formula f)).bind_pure
  | multi parts => by rw [tokens]; exact failsIn_tokensAll parts
  | tuple parts => by rw [tokens]; exact (failsIn_bind (tuple parts)).bind_pure
  | test inner => by rw [tokens]; exact failsIn_tokens inner
  | inhibitor inner condition => by rw [tokens]; exact failsWith_ok []
  | flush inner => by rw [tokens]; exact (failsIn_bind inner).bind_pure

lemma failsIn_tokensAll : ∀ l : List Arc, FailsWith (FailsIn s (leavesAll l)) (tokensAll s l)
  | [] => by rw [tokensAll]; exact failsWith_ok []
  | a :: l => by
    rw [tokensAll]
    exact failsIn_append (failsIn_tokens a) (failsIn_tokensAll l)

end

mutual

lemma failsIn_flow : ∀ a : Arc, FailsWith (FailsIn s (leaves a)) (a.flow s)
  | value v => by rw [flow]; exact failsWith_ok _
  | var name => by rw [flow]; exact (failsIn_bind (var name)).bind_pure
  | formula f => by rw [flow]; exact (failsIn_bind (formula f)).bind_pure
  | multi parts => by rw [flow]; exact (failsIn_flowAll parts).bind_pure
  | tuple parts => by rw [flow]; exact (failsIn_flowAll parts).bind_pure
  | test inner => by rw [flow]; exact failsWith_ok _
  | inhibitor inner condition => by rw [flow]; exact failsWith_ok _
  | flush inner => by rw [flow]; exact (failsIn_bind inner).bind_pure

lemma failsIn_flowAll : ∀ l : List Arc, FailsWith (FailsIn s (leavesAll l)) (flowAll s l)
  | [] => by rw [flowAll]; exact failsWith_ok []
  | a :: l => by
    rw [flowAll]
    exact failsIn_append (failsIn_flow a) (failsIn_flowAll l)

end

lemma FailsIn.ofValues {l : List Arc} {e : Error} (h : FailsIn s l e) : e.OfValues := by
  obtain ⟨_, _, he⟩ := h
  cases he with
  | unbound _ => exact .unbound _
  | unvalued _ => exact .eval _
  | undecided _ => exact .eval _
  | refuted _ => exact .refuted _

lemma ofValues_tokens (a : Arc) : FailsWith Error.OfValues (a.tokens s) :=
  (failsIn_tokens a).mono fun _ he => he.ofValues

lemma ofValues_flow (a : Arc) : FailsWith Error.OfValues (a.flow s) :=
  (failsIn_flow a).mono fun _ he => he.ofValues

lemma failsWith_matchTokens {P : Error → Prop}
    {matchParts : List Value → Except Error (Option (List (List Binding)))}
    (hm : ∀ items, FailsWith P (matchParts items)) (l : List (List Value)) :
    FailsWith P (matchTokens matchParts l) := by
  induction l with
  | nil => exact failsWith_ok []
  | cons items l ih =>
    rw [matchTokens]
    refine (hm items).bind fun parts _ => ?_
    cases parts with
    | none => exact ih
    | some parts => exact ih.bind_pure

end Arc

end ColouredPetri
