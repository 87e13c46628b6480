import ColouredPetri.Proofs.Arcs.Completeness
import ColouredPetri.Proofs.Arcs.Failures

namespace ColouredPetri

namespace Arc

mutual

/-- The kinds of the parts for which there is no search: formulas, and all that a flush could be
made of but variables. -/
def obstacles : Arc → List String
  | value _ => []
  | var _ => []
  | formula f => [(formula f).kindName]
  | multi parts => obstaclesAll parts
  | tuple parts => obstaclesAll parts
  | test inner => obstacles inner
  | inhibitor inner _ => obstacles inner
  | flush (var _) => []
  | flush inner => [inner.kindName]

def obstaclesAll : List Arc → List String
  | [] => []
  | a :: l => obstacles a ++ obstaclesAll l

end

mutual

def conditions : Arc → List Formula
  | multi parts => conditionsAll parts
  | tuple parts => conditionsAll parts
  | test inner => conditions inner
  | inhibitor inner condition => condition :: conditions inner
  | _ => []

def conditionsAll : List Arc → List Formula
  | [] => []
  | a :: l => conditions a ++ conditionsAll l

end

mutual

def bare : Arc → Bool
  | value _ => true
  | var _ => true
  | formula _ => true
  | multi parts => allBare parts
  | tuple parts => allBare parts
  | _ => false

def allBare : List Arc → Bool
  | [] => true
  | a :: l => bare a && allBare l

end

inductive SearchError (globals : Binding) (obstacles : List String) (conditions : List Formula) :
    Error → Prop where
  | mode (cause : ModeError) : SearchError globals obstacles conditions (.mode cause)
  | condition {f : Formula} {b : Binding} {cause : EvalError} : f ∈ conditions →
      f.holds ⟨b, globals⟩ = .error cause → SearchError globals obstacles conditions (.eval cause)
  | obstacle {kind : String} : kind ∈ obstacles →
      SearchError globals obstacles conditions (.structural (.inputNotAllowed kind))

variable {globals : Binding} {o o' : List String} {c c' : List Formula} {e : Error}

lemma SearchError.mono (h : SearchError globals o c e) (ho : o ⊆ o') (hc : c ⊆ c') :
    SearchError globals o' c' e := by
  cases h with
  | mode cause => exact .mode cause
  | condition hf he => exact .condition (hc hf) he
  | obstacle hk => exact .obstacle (ho hk)

lemma SearchError.eq_structural {cause : StructuralError}
    (h : SearchError globals o c (.structural cause)) :
    ∃ kind ∈ o, cause = .inputNotAllowed kind := by
  cases h with
  | obstacle hk => exact ⟨_, hk, rfl⟩

lemma SearchError.isNodeMissing (h : SearchError globals o c e) : e.isNodeMissing = false := by
  cases h <;> rfl

lemma failsWith_witness? (condition : Formula) (l : List Binding) :
    FailsWith (SearchError globals o (condition :: c)) (witness? globals condition l) := by
  induction l with
  | nil => exact failsWith_ok none
  | cons b l ih =>
    rw [witness?]
    refine FailsWith.bind (failsWith_mapError fun cause he => ?_) fun holds _ => ?_
    · exact .condition List.mem_cons_self he
    · cases holds with
      | true => exact failsWith_ok _
      | false => exact ih

lemma flow_of_combine {parts : List Arc} {available : Bag} {each : List (List Binding)}
    {b : Binding} (h : modesEach globals parts available = .ok each)
    (hb : b ∈ Binding.combine each) : ∃ f, flow ⟨b, globals⟩ (multi parts) = .ok f := by
  obtain ⟨fs, hfs⟩ := flows_of_modesEach h (Binding.combine_extends hb)
  refine ⟨fs.foldl (· + ·) Bag.empty, ?_⟩
  rw [flow, hfs b (Binding.extends_refl b)]
  rfl

mutual

lemma failsWith_modes : ∀ (a : Arc) (available : Bag),
    FailsWith (SearchError globals (obstacles a) (conditions a)) (modes globals a available)
  | value v, available => by
    rw [modes]
    split
    · exact failsWith_ok _
    · exact failsWith_error (.mode _)
  | var name, available => by
    rw [modes]
    split
    · exact failsWith_error (.mode _)
    · exact failsWith_ok _
  | formula f, available => by
    rw [modes]
    exact failsWith_error (.obstacle (List.mem_singleton_self _))
  | multi parts, available => by
    rw [modes]
    refine (failsWith_modesEach parts available).bind fun each heach => ?_
    -- what was found has flows, so that the filter on the combinations does not fail
    have hkept : ∃ found, keepModes
        (fun b => do return (← flow ⟨b, globals⟩ (multi parts)).isSubset available)
        (Binding.combine each) = .ok found := by
      refine keepModes_ok fun b hb => ?_
      obtain ⟨f, hf⟩ := flow_of_combine heach hb
      rw [hf]
      exact .inl ⟨_, rfl⟩
    obtain ⟨found, hfound⟩ := hkept
    rw [hfound]
    exact failsWith_ok found
  | tuple parts, available => by
    rw [modes]
    refine (failsWith_matchTokens (failsWith_matchItems parts) _).bind fun found _ => ?_
    split
    · exact failsWith_error (.mode _)
    · exact failsWith_ok found
  | test inner, available => by
    rw [modes]
    exact failsWith_modes inner available
  | inhibitor inner condition, available => by
    rw [modes]
    split
    · next e he =>
      split
      · exact failsWith_ok _
      · refine failsWith_error ((failsWith_modes inner available e he).mono ?_ ?_)
        · exact List.Subset.refl _
        · exact List.subset_cons_self _ _
    · next found _ =>
      refine (failsWith_witness? condition found).bind fun witness _ => ?_
      cases witness with
      | none => exact failsWith_ok _
      | some b => exact failsWith_error (.mode _)
  | flush inner, available => by
    cases inner with
    | var name => exact failsWith_ok _
    | _ => exact failsWith_error (.obstacle (List.mem_singleton_self _))

lemma failsWith_modesEach : ∀ (l : List Arc) (available : Bag),
    FailsWith (SearchError globals (obstaclesAll l) (conditionsAll l))
      (modesEach globals l available)
  | [], available => by
    rw [modesEach]
    exact failsWith_ok []
  | a :: l, available => by
    rw [modesEach]
    refine FailsWith.bind ((failsWith_modes a available).mono fun e he => ?_) fun _ _ => ?_
    · exact he.mono (List.subset_append_left _ _) (List.subset_append_left _ _)
    · refine ((failsWith_modesEach l available).mono fun e he => ?_).bind_pure
      exact he.mono (List.subset_append_right _ _) (List.subset_append_right _ _)

lemma failsWith_matchItems : ∀ (l : List Arc) (items : List Value),
    FailsWith (SearchError globals (obstaclesAll l) (conditionsAll l))
      (matchItems globals l items)
  | [], items => by
    rw [matchItems]
    exact failsWith_ok _
  | _ :: _, [] => by
    rw [matchItems]
    exact failsWith_ok _
  | a :: l, item :: items => by
    rw [matchItems]
    split
    · next e he =>
      split
      · exact failsWith_ok _
      · refine failsWith_error ((failsWith_modes a _ e he).mono ?_ ?_)
        · exact List.subset_append_left _ _
        · exact List.subset_append_left _ _
    · refine ((failsWith_matchItems l items).mono fun e he => ?_).bind_pure
      exact he.mono (List.subset_append_right _ _) (List.subset_append_right _ _)

end

lemma avoids_modes (a : Arc) (available : Bag) :
    Avoids Error.isNodeMissing (modes globals a available) :=
  (failsWith_modes a available).mono fun _ he => he.isNodeMissing

mutual

lemma inputAllowed_of_obstacles : ∀ {a : Arc}, a.obstacles = [] → a.inputAllowed = true
  | value _, _ => rfl
  | var _, _ => rfl
  | formula _, h => by cases h
  | multi parts, h => allInputAllowed_of_obstaclesAll (l := parts) h
  | tuple parts, h => allInputAllowed_of_obstaclesAll (l := parts) h
  | test _, _ => rfl
  | inhibitor _ _, _ => rfl
  | flush inner, h => by
    cases inner with
    | var name => rfl
    | _ => cases h

lemma allInputAllowed_of_obstaclesAll : ∀ {l : List Arc}, obstaclesAll l = [] →
    allInputAllowed l = true
  | [], _ => rfl
  | a :: l, h => by
    obtain ⟨ha, hl⟩ := List.append_eq_nil_iff.1 h
    rw [allInputAllowed, inputAllowed_of_obstacles ha, allInputAllowed_of_obstaclesAll hl]
    rfl

end

mutual

lemma obstacles_of_bare : ∀ {a : Arc}, a.bare = true → a.inputAllowed = true → a.obstacles = []
  | value _, _, _ => rfl
  | var _, _, _ => rfl
  | formula _, _, h => by cases h
  | multi parts, hb, h => obstaclesAll_of_allBare (l := parts) hb h
  | tuple parts, hb, h => obstaclesAll_of_allBare (l := parts) hb h
  | test _, hb, _ => by cases hb
  | inhibitor _ _, hb, _ => by cases hb
  | flush _, hb, _ => by cases hb

lemma obstaclesAll_of_allBare : ∀ {l : List Arc}, allBare l = true →
    allInputAllowed l = true → obstaclesAll l = []
  | [], _, _ => rfl
  | a :: l, hb, h => by
    obtain ⟨hba, hbl⟩ := Bool.and_eq_true_iff.1 hb
    obtain ⟨ha, hl⟩ := Bool.and_eq_true_iff.1 h
    rw [obstaclesAll, obstacles_of_bare hba ha, obstaclesAll_of_allBare hbl hl]
    rfl

end

/-- A search fails for want of a mode, for a condition that has no value, or at a part for which
there is no search, and without such a part never with a structural error. An arc without tests,
inhibitors and flushes has no such part if it is accepted. -/
theorem search_errors (a : Arc) :
    (∀ globals available e, a.modes globals available = .error e →
      SearchError globals a.obstacles a.conditions e) ∧
    (a.obstacles = [] → a.inputAllowed = true ∧ ∀ globals available cause,
      a.modes globals available ≠ .error (.structural cause)) ∧
    (a.bare = true → a.inputAllowed = true → a.obstacles = []) := by
  refine ⟨fun globals available => failsWith_modes a available, fun ho => ?_, obstacles_of_bare⟩
  refine ⟨inputAllowed_of_obstacles ho, fun globals available cause he => ?_⟩
  obtain ⟨kind, hk, -⟩ := (failsWith_modes a available _ he).eq_structural
  rw [ho] at hk
  cases hk

def unlessGreater : Arc := .multi [.var "x", .inhibitor (.var "y") ⟨"y > limit"⟩]

theorem search_errors_unlessGreater :
    unlessGreater.modes Table.empty (Bag.ofList [.int 1]) =
      .error (.eval (.unboundName "limit")) ∧
    SearchError Table.empty [] [⟨"y > limit"⟩] (.eval (.unboundName "limit")) ∧
    unlessGreater.inputAllowed = true ∧
    unlessGreater.modes Table.empty Bag.empty ≠ .error (.structural (.inputNotAllowed "variable")) ∧
    (Arc.multi [.var "x", .tuple [.value .dot]]).obstacles = [] := by
  obtain ⟨herror, hfree, -⟩ := search_errors unlessGreater
  have hmodes : unlessGreater.modes Table.empty (Bag.ofList [.int 1]) =
      .error (.eval (.unboundName "limit")) := by decide
  obtain ⟨hallowed, hstructural⟩ := hfree rfl
  exact ⟨hmodes, herror _ _ _ hmodes, hallowed, hstructural _ _ _,
    (search_errors (.multi [.var "x", .tuple [.value .dot]])).2.2 rfl rfl⟩

/-- Arcs that are accepted on input arcs, and fail for all tokens. -/
theorem allowed_never_searched :
    ((test (formula ⟨"x + 1"⟩)).validate = .ok () ∧
      (test (formula ⟨"x + 1"⟩)).inputAllowed = true ∧ ∀ globals available,
        modes globals (test (formula ⟨"x + 1"⟩)) available =
          .error (.structural (.inputNotAllowed "expression"))) ∧
    ((inhibitor (formula ⟨"x + 1"⟩) .truth).validate = .ok () ∧
      (inhibitor (formula ⟨"x + 1"⟩) .truth).inputAllowed = true ∧ ∀ globals available,
        modes globals (inhibitor (formula ⟨"x + 1"⟩) .truth) available =
          .error (.structural (.inputNotAllowed "expression"))) ∧
    ((flush (value .dot)).validate = .ok () ∧ (flush (value .dot)).inputAllowed = true ∧
      ∀ globals available, modes globals (flush (value .dot)) available =
        .error (.structural (.inputNotAllowed "value"))) :=
  ⟨⟨rfl, rfl, fun _ _ => rfl⟩, ⟨rfl, rfl, fun _ _ => rfl⟩, rfl, rfl, fun _ _ => rfl⟩

end Arc

end ColouredPetri
