import ColouredPetri.Proofs.Arcs.Completeness
import ColouredPetri.Proofs.Nets.Joins
import ColouredPetri.Proofs.Unions

namespace ColouredPetri

lemma keepModes_eq_of_ok {check : Binding → Except Error Bool} {q : Binding → Bool}
    {l : List Binding} (h : ∀ b ∈ l, check b = .ok (q b)) : keepModes check l = .ok (l.filter q) := by
  induction l with
  | nil => rfl
  | cons b l ih =>
    obtain ⟨hb, hl⟩ := List.forall_mem_cons.1 h
    cases hq : q b <;> simp [keepModes, hb, hq, ih hl]

namespace Arc

open Net (flatten jointArc)

variable {s : Scope} {a : Arc} {l m : List Arc}

section Flatten

variable {β : Type} {F : Arc → β}

lemma flatten_congr (h : ∀ pre parts post,
      F (multi (pre ++ multi parts :: post)) = F (multi (pre ++ (parts ++ post)))) :
    ∀ pre, F (multi (pre ++ flatten l)) = F (multi (pre ++ l)) := by
  induction l with
  | nil => exact fun _ => rfl
  | cons a l ih =>
    intro pre
    have hother : F (multi (pre ++ a :: flatten l)) = F (multi (pre ++ a :: l)) := by
      rw [List.append_cons, ih, ← List.append_cons]
    cases a with
    | multi parts =>
      rw [flatten, h, ← List.append_assoc, ih, List.append_assoc]
    | _ => exact hother

lemma jointArc_congr (h : ∀ pre parts post,
      F (multi (pre ++ multi parts :: post)) = F (multi (pre ++ (parts ++ post))))
    (hsingle : ∀ a, F (multi [a]) = F a) : F (jointArc l) = F (multi l) := by
  have hflat : F (multi (flatten l)) = F (multi l) := flatten_congr h []
  rw [jointArc]
  split
  · next a ha => rw [← hsingle, ← ha, hflat]
  · exact hflat

end Flatten

section Sums

variable {β : Type} {F : Arc → Except Error β} {join : List β → β} {pre parts post : List Arc}

lemma nested_congr (hF : ∀ l, F (multi l) = (l.mapM F).map join)
    (hjoin : ∀ u v w, join (u ++ join v :: w) = join (u ++ (v ++ w))) :
    F (multi (pre ++ multi parts :: post)) = F (multi (pre ++ (parts ++ post))) := by
  rw [hF, hF, List.mapM_append, List.mapM_append, List.mapM_append, List.mapM_cons, hF]
  cases pre.mapM F with
  | error e => rfl
  | ok u =>
    cases parts.mapM F with
    | error e => rfl
    | ok v =>
      cases post.mapM F with
      | error e => rfl
      | ok w => exact congrArg Except.ok (hjoin u v w)

lemma single_congr (hF : ∀ l, F (multi l) = (l.mapM F).map join) (hjoin : ∀ v, join [v] = v) :
    F (multi [a]) = F a := by
  rw [hF, List.mapM_cons, List.mapM_nil]
  cases F a with
  | error e => rfl
  | ok v => exact congrArg Except.ok (hjoin v)

lemma flowAll_eq_mapM (l : List Arc) : flowAll s l = l.mapM (flow s) := by
  induction l with
  | nil => rfl
  | cons a l ih => rw [flowAll, List.mapM_cons, ih]

lemma flow_multi (l : List Arc) : flow s (multi l) = (l.mapM (flow s)).map List.sum := by
  rw [flow, flowAll_eq_mapM]
  cases l.mapM (flow s) with
  | error e => rfl
  | ok fs => exact congrArg Except.ok List.sum_eq_foldl.symm

lemma tokens_multi (l : List Arc) : tokens s (multi l) = (l.mapM (tokens s)).map List.flatten := by
  rw [tokens]
  induction l with
  | nil => rfl
  | cons a l ih =>
    rw [tokensAll, List.mapM_cons, ih]
    cases tokens s a <;> cases l.mapM (tokens s) <;> rfl

lemma flow_jointArc (l : List Arc) : flow s (jointArc l) = (l.mapM (flow s)).map List.sum := by
  rw [← flow_multi]
  refine jointArc_congr (fun pre parts post => nested_congr flow_multi fun u v w => ?_)
    fun a => single_congr flow_multi fun v => List.sum_singleton
  simp only [List.sum_append, List.sum_cons]

lemma tokens_jointArc (l : List Arc) :
    tokens s (jointArc l) = (l.mapM (tokens s)).map List.flatten := by
  rw [← tokens_multi]
  refine jointArc_congr (fun pre parts post => nested_congr tokens_multi fun u v w => ?_)
    fun a => single_congr tokens_multi fun v => List.flatten_singleton
  simp only [List.flatten_append, List.flatten_cons]

end Sums

section Modes

variable {globals : Binding} {available : Bag} {pre parts post : List Arc}

lemma modesEach_eq_mapM (l : List Arc) :
    modesEach globals l available = l.mapM fun a => modes globals a available := by
  induction l with
  | nil => rfl
  | cons a l ih => rw [modesEach, List.mapM_cons, ih]

def fits (globals : Binding) (available : Bag) (l : List Arc) (b : Binding) : Bool :=
  match flow ⟨b, globals⟩ (multi l) with
  | .ok f => f.isSubset available
  | .error _ => false

lemma modes_multi {l : List Arc} {each : List (List Binding)}
    (h : modesEach globals l available = .ok each) :
    modes globals (multi l) available =
      .ok ((Binding.combine each).filter (fits globals available l)) := by
  rw [modes, h, except_ok_bind]
  refine keepModes_eq_of_ok fun b hb => ?_
  obtain ⟨fs, hfs⟩ := flows_of_modesEach h (Binding.combine_extends hb)
  have hflow : flow ⟨b, globals⟩ (multi l) = .ok (fs.foldl (· + ·) Bag.empty) := by
    rw [flow, hfs b (Binding.extends_refl b)]
    rfl
  rw [fits, hflow]
  rfl

lemma modes_single (a : Arc) : modes globals (multi [a]) available = modes globals a available := by
  cases hm : modes globals a available with
  | error e => rw [modes, modesEach, hm]; rfl
  | ok found =>
    have heach : modesEach globals [a] available = .ok [found] := by
      rw [modesEach, hm]
      rfl
    have hcombine : Binding.combine [found] = found := by
      rw [Binding.combine, Binding.combineOnto_cons]
      simp [Binding.empty_union?, Binding.combineOnto]
    rw [modes_multi heach, hcombine]
    congr 1
    refine List.filter_eq_self.2 fun b hb => ?_
    obtain ⟨f, hsub, hf⟩ := flow_of_modes hm b hb
    rw [fits, single_congr flow_multi fun v => List.sum_singleton, hf b (Binding.extends_refl b)]
    exact hsub

lemma modesEach_append (l m : List Arc) : modesEach globals (l ++ m) available = do
    let u ← modesEach globals l available
    let v ← modesEach globals m available
    return u ++ v := by
  simp only [modesEach_eq_mapM, List.mapM_append]

lemma fits_nested : fits globals available (pre ++ multi parts :: post) =
    fits globals available (pre ++ (parts ++ post)) := by
  funext b
  rw [fits, fits, nested_congr flow_multi fun u v w => by
    simp only [List.sum_append, List.sum_cons]]

lemma fits_eq_false {each : List (List Binding)} {g h : Binding}
    (heach : modesEach globals parts available = .ok each) (hg : g ∈ Binding.combine each)
    (hfits : fits globals available parts g = false) (hext : h.Extends g) :
    fits globals available (pre ++ (parts ++ post)) h = false := by
  obtain ⟨fs, hfs⟩ := flows_of_modesEach heach (Binding.combine_extends hg)
  simp only [flowAll_eq_mapM] at hfs
  rw [fits, flow_multi, hfs g (Binding.extends_refl g)] at hfits
  rw [fits, flow_multi, List.mapM_append, List.mapM_append, hfs h hext]
  cases pre.mapM (flow ⟨h, globals⟩) with
  | error e => rfl
  | ok u =>
    cases post.mapM (flow ⟨h, globals⟩) with
    | error e => rfl
    | ok w =>
      refine Bool.eq_false_iff.2 fun hsub => Bool.eq_false_iff.1 hfits (Bag.isSubset_iff.2 fun v => ?_)
      have hcount := Bag.isSubset_iff.1 hsub v
      simp only [List.sum_append, Bag.count_sum] at hcount
      omega

lemma modes_nested : modes globals (multi (pre ++ multi parts :: post)) available =
    modes globals (multi (pre ++ (parts ++ post))) available := by
  cases hpre : modesEach globals pre available with
  | error e => rw [modes, modes, modesEach_append, modesEach_append, hpre]; rfl
  | ok u =>
    cases hparts : modesEach globals parts available with
    | error e =>
      rw [modes, modes, modesEach_append, modesEach_append, modesEach_append, hparts, modesEach,
        modes, hparts, hpre]
      rfl
    | ok v =>
      cases hpost : modesEach globals post available with
      | error e =>
        rw [modes, modes, modesEach_append, modesEach_append, modesEach_append, hparts, modesEach,
          modes_multi hparts, hpre, hpost]
        rfl
      | ok w =>
        have hnested : modesEach globals (pre ++ multi parts :: post) available =
            .ok (u ++ (Binding.combine v).filter (fits globals available parts) :: w) := by
          rw [modesEach_append, modesEach, modes_multi hparts, hpre, hpost]
          rfl
        have hflat : modesEach globals (pre ++ (parts ++ post)) available =
            .ok (u ++ (v ++ w)) := by
          rw [modesEach_append, modesEach_append, hpre, hparts, hpost]
          rfl
        rw [modes_multi hnested, modes_multi hflat, fits_nested, Binding.filter_combine]
        exact fun g hg hfits h hext => fits_eq_false hparts hg hfits hext

lemma modes_jointArc (l : List Arc) :
    modes globals (jointArc l) available = modes globals (multi l) available :=
  jointArc_congr (F := fun a => modes globals a available) (fun _ _ _ => modes_nested) modes_single

end Modes

end Arc

end ColouredPetri
