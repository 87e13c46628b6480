import ColouredPetri.Arc.Modes
import ColouredPetri.Proofs.Variables.Bindings
import ColouredPetri.Proofs.Variables.Formulas

namespace ColouredPetri

variable {f : String → String} {P : String → Prop} {globals b b' : Binding}

def KeepsGlobals (f : String → String) (P : String → Prop) (globals : Binding) : Prop :=
  ∀ n, P n → globals.get? (f n) = globals.get? n

lemma Binding.Renames.scope (hg : KeepsGlobals f P globals) (hb : b.Renames f P b') :
    Scope.Renames f P ⟨b, globals⟩ ⟨b', globals⟩ := by
  intro n hn
  rw [Scope.lookup?, Scope.lookup?, hb.get?_eq n hn, hg n hn]

lemma Binding.Renames.lookup {n : String} (hb : b.Renames f P b') (hn : P n) :
    SameOutcome (liftM (b.lookup n)) (liftM (b'.lookup (f n))) := by
  rw [Binding.lookup, Binding.lookup, hb.get?_eq n hn]
  cases b.get? n with
  | none => exact .error ⟨rfl, rfl⟩
  | some v => exact .ok rfl

lemma Expr.SameValue.lift {α : Type} {x y : Except EvalError α} (h : SameValue x y) :
    SameOutcome (liftM x) (liftM y) := h.mapError fun _ _ _ => ⟨rfl, rfl⟩

namespace Arc

mutual

inductive Renames (f : String → String) (P : String → Prop) : Arc → Arc → Prop
  | value (v : Value) : Renames f P (.value v) (.value v)
  | var {n : String} (h : P n) : Renames f P (.var n) (.var (f n))
  | formula {φ φ' : Formula} (h : φ.Renames f P φ') : Renames f P (.formula φ) (.formula φ')
  | multi {l l' : List Arc} (h : RenamesAll f P l l') : Renames f P (.multi l) (.multi l')
  | tuple {l l' : List Arc} (h : RenamesAll f P l l') : Renames f P (.tuple l) (.tuple l')
  | test {a a' : Arc} (h : Renames f P a a') : Renames f P (.test a) (.test a')
  | inhibitor {a a' : Arc} {φ φ' : Formula} (h : Renames f P a a') (hφ : φ.Renames f P φ') :
      Renames f P (.inhibitor a φ) (.inhibitor a' φ')
  | flush {a a' : Arc} (h : Renames f P a a') : Renames f P (.flush a) (.flush a')

inductive RenamesAll (f : String → String) (P : String → Prop) : List Arc → List Arc → Prop
  | nil : RenamesAll f P [] []
  | cons {a a' : Arc} {l l' : List Arc} (h : Renames f P a a') (hl : RenamesAll f P l l') :
      RenamesAll f P (a :: l) (a' :: l')

end

mutual

lemma bind_renames (hg : KeepsGlobals f P globals) (hb : b.Renames f P b') :
    ∀ {a a' : Arc}, Renames f P a a' → SameOutcome (bind ⟨b, globals⟩ a) (bind ⟨b', globals⟩ a')
  | _, _, .value v => by
    rw [bind, bind]
    exact .ok rfl
  | _, _, .var h => by
    rw [bind, bind]
    exact hb.lookup h
  | _, _, .formula h => by
    rw [bind, bind]
    exact (h _ _ (hb.scope hg)).lift
  | _, _, .multi h => by
    rw [bind, bind]
    exact (bindAll_renames hg hb h).bind_pure fun _ _ h => congrArg Value.tuple h
  | _, _, .tuple h => by
    rw [bind, bind]
    exact (bindAll_renames hg hb h).bind_pure fun _ _ h => congrArg Value.tuple h
  | _, _, .test h => by
    rw [bind, bind]
    exact bind_renames hg hb h
  | _, _, .inhibitor _ hφ => by
    rw [bind, bind]
    refine (hφ.holds (hb.scope hg)).lift.bind fun holds _ h => ?_
    subst h
    cases holds with
    | true => exact .ok rfl
    | false => exact .error ⟨rfl, rfl⟩
  | _, _, .flush h => by
    rw [bind, bind]
    exact (bind_renames hg hb h).bind_pure fun _ _ h =>
      congrArg (fun v : Value => (Bag.ofList v.spread).toValue) h

lemma bindAll_renames (hg : KeepsGlobals f P globals) (hb : b.Renames f P b') :
    ∀ {l l' : List Arc}, RenamesAll f P l l' →
      SameOutcome (bindAll ⟨b, globals⟩ l) (bindAll ⟨b', globals⟩ l')
  | _, _, .nil => by
    rw [bindAll, bindAll]
    exact .ok rfl
  | _, _, .cons h hl => by
    rw [bindAll, bindAll]
    exact (bind_renames hg hb h).bind fun _ _ hv =>
      (bindAll_renames hg hb hl).bind_pure fun _ _ hvs => congrArg₂ List.cons hv hvs

end

mutual

lemma tokens_renames (hg : KeepsGlobals f P globals) (hb : b.Renames f P b') :
    ∀ {a a' : Arc}, Renames f P a a' →
      SameOutcome (tokens ⟨b, globals⟩ a) (tokens ⟨b', globals⟩ a')
  | _, _, .value v => by
    rw [tokens, tokens]
    exact .ok rfl
  | _, _, .var h => by
    rw [tokens, tokens]
    exact (bind_renames hg hb (.var h)).bind_pure fun _ _ h => congrArg (fun v => [v]) h
  | _, _, .formula h => by
    rw [tokens, tokens]
    exact (bind_renames hg hb (.formula h)).bind_pure fun _ _ h => congrArg (fun v => [v]) h
  | _, _, .multi h => by
    rw [tokens, tokens]
    exact tokensAll_renames hg hb h
  | _, _, .tuple h => by
    rw [tokens, tokens]
    exact (bind_renames hg hb (.tuple h)).bind_pure fun _ _ h => congrArg (fun v => [v]) h
  | _, _, .test h => by
    rw [tokens, tokens]
    exact tokens_renames hg hb h
  | _, _, .inhibitor _ _ => by
    rw [tokens, tokens]
    exact .ok rfl
  | _, _, .flush h => by
    rw [tokens, tokens]
    exact (bind_renames hg hb h).bind_pure fun _ _ h => congrArg Value.spread h

lemma tokensAll_renames (hg : KeepsGlobals f P globals) (hb : b.Renames f P b') :
    ∀ {l l' : List Arc}, RenamesAll f P l l' →
      SameOutcome (tokensAll ⟨b, globals⟩ l) (tokensAll ⟨b', globals⟩ l')
  | _, _, .nil => by
    rw [tokensAll, tokensAll]
    exact .ok rfl
  | _, _, .cons h hl => by
    rw [tokensAll, tokensAll]
    exact (tokens_renames hg hb h).bind fun _ _ hv =>
      (tokensAll_renames hg hb hl).bind_pure fun _ _ hvs => congrArg₂ (· ++ ·) hv hvs

end

mutual

lemma flow_renames (hg : KeepsGlobals f P globals) (hb : b.Renames f P b') :
    ∀ {a a' : Arc}, Renames f P a a' → SameOutcome (flow ⟨b, globals⟩ a) (flow ⟨b', globals⟩ a')
  | _, _, .value v => by
    rw [flow, flow]
    exact .ok rfl
  | _, _, .var h => by
    rw [flow, flow]
    exact (bind_renames hg hb (.var h)).bind_pure fun _ _ h => congrArg (fun v => Bag.ofList [v]) h
  | _, _, .formula h => by
    rw [flow, flow]
    exact (bind_renames hg hb (.formula h)).bind_pure fun _ _ h =>
      congrArg (fun v => Bag.ofList [v]) h
  | _, _, .multi h => by
    rw [flow, flow]
    exact (flowAll_renames hg hb h).bind_pure fun _ _ h => congrArg (List.foldl (· + ·) Bag.empty) h
  | _, _, .tuple h => by
    rw [flow, flow]
    exact (flowAll_renames hg hb h).bind_pure fun _ _ h => congrArg tuples h
  | _, _, .test _ => by
    rw [flow, flow]
    exact .ok rfl
  | _, _, .inhibitor _ _ => by
    rw [flow, flow]
    exact .ok rfl
  | _, _, .flush h => by
    rw [flow, flow]
    exact (bind_renames hg hb h).bind_pure fun _ _ h =>
      congrArg (fun v : Value => Bag.ofList v.spread) h

lemma flowAll_renames (hg : KeepsGlobals f P globals) (hb : b.Renames f P b') :
    ∀ {l l' : List Arc}, RenamesAll f P l l' →
      SameOutcome (flowAll ⟨b, globals⟩ l) (flowAll ⟨b', globals⟩ l')
  | _, _, .nil => by
    rw [flowAll, flowAll]
    exact .ok rfl
  | _, _, .cons h hl => by
    rw [flowAll, flowAll]
    exact (flow_renames hg hb h).bind fun _ _ hv =>
      (flowAll_renames hg hb hl).bind_pure fun _ _ hvs => congrArg₂ List.cons hv hvs

end

lemma RenamesAll.length_eq : ∀ {l l' : List Arc}, RenamesAll f P l l' → l.length = l'.length
  | _, _, .nil => rfl
  | _, _, .cons _ hl => congrArg Nat.succ hl.length_eq

abbrev RenamesParts (f : String → String) (P : String → Prop)
    (found found' : Option (List (List Binding))) : Prop :=
  Option.Rel (List.Forall₂ (Binding.RenamesAll f P)) found found'

lemma matchTokens_renames {match₁ match₂ : List Value → Except Error (Option (List (List Binding)))}
    (hm : ∀ items, Parallel Error.SameKind (RenamesParts f P) (match₁ items) (match₂ items))
    (l : List (List Value)) :
    Parallel Error.SameKind (Binding.RenamesAll f P) (matchTokens match₁ l) (matchTokens match₂ l) := by
  induction l with
  | nil => exact .ok .nil
  | cons items l ih =>
    rw [matchTokens, matchTokens]
    refine (hm items).bind fun found found' h => ?_
    cases h with
    | none => exact ih
    | some h => exact ih.bind_pure fun _ _ hl => List.rel_append (Binding.combine_renames h) hl

lemma witness?_renames {φ φ' : Formula} (hg : KeepsGlobals f P globals) (hφ : φ.Renames f P φ')
    {l l' : List Binding} (hl : Binding.RenamesAll f P l l') :
    Parallel Error.SameKind (Option.Rel (Binding.Renames f P)) (witness? globals φ l)
      (witness? globals φ' l') := by
  induction hl with
  | nil => exact .ok .none
  | @cons b b' l l' hb _ ih =>
    rw [witness?, witness?]
    refine (hφ.holds (hb.scope hg)).lift.bind fun holds _ h => ?_
    subst h
    cases holds with
    | true => exact .ok (.some hb)
    | false => exact ih

mutual

lemma modes_renames (hf : Set.InjOn f {n | P n}) (hg : KeepsGlobals f P globals) :
    ∀ {a a' : Arc} (available : Bag), Renames f P a a' →
      Parallel Error.SameKind (Binding.RenamesAll f P) (modes globals a available)
        (modes globals a' available)
  | _, _, _, .value v => by
    rw [modes]
    split
    · exact .ok (.cons Binding.renames_empty .nil)
    · exact .error ⟨rfl, rfl⟩
  | .var n, _, _, .var h => by
    rw [modes, modes]
    split
    · exact .error ⟨rfl, rfl⟩
    · refine .ok (List.forall₂_map_left_iff.2 (List.forall₂_map_right_iff.2 ?_))
      exact List.forall₂_same.2 fun v _ => Binding.renames_single hf h
  | _, _, _, .formula _ => by
    rw [modes, modes]
    exact .error ⟨rfl, rfl⟩
  | _, _, available, .multi h => by
    rw [modes, modes]
    refine (modesEach_renames hf hg available h).bind fun _ _ hfound => ?_
    refine keepModes_parallel (Binding.combine_renames hfound) fun b b' hb => ?_
    exact (flow_renames hg hb (.multi h)).bind_pure fun _ _ h => h ▸ rfl
  | _, _, _, .tuple h => by
    rw [modes, modes, h.length_eq]
    refine (matchTokens_renames (fun items => matchItems_renames hf hg items h) _).bind fun l l' hl => ?_
    cases hl with
    | nil => exact .error ⟨rfl, rfl⟩
    | cons hb hl => exact .ok (.cons hb hl)
  | _, _, available, .test h => by
    rw [modes, modes]
    exact modes_renames hf hg available h
  | _, _, available, .inhibitor h hφ => by
    rw [modes, modes]
    obtain ⟨l, l', hx, hy, hl⟩ | ⟨d, e, hx, hy, hde⟩ :=
      (modes_renames hf hg available h).cases
    · rw [hx, hy]
      refine (witness?_renames hg hφ hl).bind fun _ _ h => ?_
      cases h with
      | none => exact .ok (.cons Binding.renames_empty .nil)
      | some _ => exact .error ⟨rfl, rfl⟩
    · -- whether the inhibitor passes over an error depends on its kind only
      rw [hx, hy]
      simp only [hde.1]
      split
      · exact .ok (.cons Binding.renames_empty .nil)
      · exact .error hde
  | _, _, _, .flush (.var h) => by
    rw [modes, modes]
    exact .ok (.cons (Binding.renames_single hf h) .nil)
  | _, _, _, .flush (.value _) => .error ⟨rfl, rfl⟩
  | _, _, _, .flush (.formula _) => .error ⟨rfl, rfl⟩
  | _, _, _, .flush (.multi _) => .error ⟨rfl, rfl⟩
  | _, _, _, .flush (.tuple _) => .error ⟨rfl, rfl⟩
  | _, _, _, .flush (.test _) => .error ⟨rfl, rfl⟩
  | _, _, _, .flush (.inhibitor _ _) => .error ⟨rfl, rfl⟩
  | _, _, _, .flush (.flush _) => .error ⟨rfl, rfl⟩

lemma modesEach_renames (hf : Set.InjOn f {n | P n}) (hg : KeepsGlobals f P globals) :
    ∀ {l l' : List Arc} (available : Bag), RenamesAll f P l l' →
      Parallel Error.SameKind (List.Forall₂ (Binding.RenamesAll f P))
        (modesEach globals l available) (modesEach globals l' available)
  | _, _, _, .nil => by
    rw [modesEach]
    exact .ok .nil
  | _, _, available, .cons h hl => by
    rw [modesEach, modesEach]
    exact (modes_renames hf hg available h).bind fun _ _ hpart =>
      (modesEach_renames hf hg available hl).bind_pure fun _ _ hparts => .cons hpart hparts

lemma matchItems_renames (hf : Set.InjOn f {n | P n}) (hg : KeepsGlobals f P globals) :
    ∀ {l l' : List Arc} (items : List Value), RenamesAll f P l l' →
      Parallel Error.SameKind (RenamesParts f P) (matchItems globals l items)
        (matchItems globals l' items)
  | _, _, _, .nil => by
    rw [matchItems]
    exact .ok (.some .nil)
  | _, _, [], .cons _ _ => by
    rw [matchItems, matchItems]
    exact .ok (.some .nil)
  | _, _, item :: items, .cons h hl => by
    rw [matchItems, matchItems]
    obtain ⟨part, part', hx, hy, hpart⟩ | ⟨d, e, hx, hy, hde⟩ :=
      (modes_renames hf hg (Bag.ofList [item]) h).cases
    · rw [hx, hy]
      refine (matchItems_renames hf hg items hl).bind_pure fun _ _ h => ?_
      cases h with
      | none => exact .none
      | some h => exact .some (.cons hpart h)
    · rw [hx, hy]
      simp only [hde.1]
      split
      · exact .ok .none
      · exact .error hde

end

end Arc

end ColouredPetri
