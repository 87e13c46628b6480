import ColouredPetri.Proofs.EnabledModes
import ColouredPetri.Proofs.Nets.Lookups
import ColouredPetri.Proofs.SearchErrors

namespace ColouredPetri

namespace Arc

mutual

def boundConditions : Arc → List Formula
  | multi parts => boundConditionsAll parts
  | tuple parts => boundConditionsAll parts
  | test inner => boundConditions inner
  | inhibitor _ condition => [condition]
  | flush inner => boundConditions inner
  | _ => []

def boundConditionsAll : List Arc → List Formula
  | [] => []
  | a :: l => boundConditions a ++ boundConditionsAll l

end

mutual

/-- The conditions that the tokens of an arc depend on: those inside of tuples and flushes. -/
def checkedConditions : Arc → List Formula
  | multi parts => checkedConditionsAll parts
  | tuple parts => boundConditionsAll parts
  | test inner => checkedConditions inner
  | flush inner => boundConditions inner
  | _ => []

def checkedConditionsAll : List Arc → List Formula
  | [] => []
  | a :: l => checkedConditions a ++ checkedConditionsAll l

end

inductive ValueError (s : Scope) (conditions : List Formula) : Error → Prop where
  | eval (cause : EvalError) : ValueError s conditions (.eval cause)
  | domain (cause : DomainError) : ValueError s conditions (.domain cause)
  | refuted {f : Formula} : f ∈ conditions → f.holds s = .ok false →
      ValueError s conditions (.mode (.conditionFailed s.binding))

variable {s : Scope} {c c' : List Formula} {e : Error}

lemma ValueError.mono (h : ValueError s c e) (hc : c ⊆ c') : ValueError s c' e := by
  cases h with
  | eval cause => exact .eval cause
  | domain cause => exact .domain cause
  | refuted hf hr => exact .refuted (hc hf) hr

mutual

lemma mem_boundConditions {inner : Arc} {f : Formula} : ∀ {a : Arc},
    inhibitor inner f ∈ leaves a → f ∈ boundConditions a
  | value _, h => by cases List.mem_singleton.1 h
  | var _, h => by cases List.mem_singleton.1 h
  | formula _, h => by cases List.mem_singleton.1 h
  | multi _, h => mem_boundConditionsAll h
  | tuple _, h => mem_boundConditionsAll h
  | test inner, h => mem_boundConditions (a := inner) h
  | inhibitor _ _, h => by
    cases List.mem_singleton.1 h
    exact List.mem_singleton_self f
  | flush inner, h => mem_boundConditions (a := inner) h

lemma mem_boundConditionsAll {inner : Arc} {f : Formula} : ∀ {l : List Arc},
    inhibitor inner f ∈ leavesAll l → f ∈ boundConditionsAll l
  | [], h => by cases h
  | _ :: _, h => List.mem_append.2 ((List.mem_append.1 h).imp mem_boundConditions
      mem_boundConditionsAll)

end

lemma failsWith_bind (a : Arc) : FailsWith (ValueError s (boundConditions a)) (a.bind s) := by
  refine (failsIn_bind a).mono ?_
  rintro e ⟨leaf, hleaf, he⟩
  cases he with
  | unbound hn => exact .domain _
  | unvalued hf => exact .eval _
  | undecided hf => exact .eval _
  | refuted hf => exact .refuted (mem_boundConditions hleaf) hf

mutual

lemma failsWith_tokens : ∀ a : Arc, FailsWith (ValueError s (checkedConditions a)) (a.tokens s)
  | value v => by rw [tokens]; exact failsWith_ok [v]
  | var name => by rw [tokens]; exact (failsWith_bind (var name)).bind_pure
  | formula f => by rw [tokens]; exact (failsWith_bind (formula f)).bind_pure
  | multi parts => by rw [tokens]; exact failsWith_tokensAll parts
  | tuple parts => by rw [tokens]; exact (failsWith_bind (tuple parts)).bind_pure
  | test inner => by rw [tokens]; exact failsWith_tokens inner
  | inhibitor inner condition => by rw [tokens]; exact failsWith_ok []
  | flush inner => by rw [tokens]; exact (failsWith_bind inner).bind_pure

lemma failsWith_tokensAll : ∀ l : List Arc,
    FailsWith (ValueError s (checkedConditionsAll l)) (tokensAll s l)
  | [] => by rw [tokensAll]; exact failsWith_ok []
  | a :: l => by
    rw [tokensAll]
    refine FailsWith.bind ((failsWith_tokens a).mono fun e he => ?_) fun _ _ => ?_
    · exact he.mono (List.subset_append_left _ _)
    · refine ((failsWith_tokensAll l).mono fun e he => ?_).bind_pure
      exact he.mono (List.subset_append_right _ _)

end

end Arc

lemma keepModes_eq_filter {check : Binding → Except Error Bool} {l found : List Binding}
    (h : keepModes check l = .ok found) : found = l.filter (check · matches .ok true) ∧
      ∀ b ∈ l, (∃ passed, check b = .ok passed) ∨ ∃ cause, check b = .error (.domain cause) := by
  induction l generalizing found with
  | nil =>
    cases h
    exact ⟨rfl, nofun⟩
  | cons b l ih =>
    rw [keepModes] at h
    split at h
    · next hc =>
      obtain ⟨rest, hrest, h⟩ := except_bind_eq_ok.1 h
      cases h
      obtain ⟨rfl, hall⟩ := ih hrest
      exact ⟨by rw [List.filter_cons, hc]; rfl, List.forall_mem_cons.2 ⟨.inl ⟨true, hc⟩, hall⟩⟩
    · next hc =>
      obtain ⟨rfl, hall⟩ := ih h
      exact ⟨by rw [List.filter_cons, hc]; rfl, List.forall_mem_cons.2 ⟨.inl ⟨false, hc⟩, hall⟩⟩
    · next e hc =>
      split at h
      · next hd =>
        obtain ⟨rfl, hall⟩ := ih h
        cases e with
        | domain cause =>
          refine ⟨by rw [List.filter_cons, hc]; rfl, ?_⟩
          exact List.forall_mem_cons.2 ⟨.inr ⟨cause, hc⟩, hall⟩
        | _ => cases hd
      · cases h

namespace Net

variable {net : Net} {t : Transition} {b : Binding} {e : Error} {trans : String}

inductive ModesError (net : Net) (t : Transition) : Error → Prop where
  | eval (cause : EvalError) : ModesError net t (.eval cause)
  | obstacle {arc : String × Arc} {kind : String} : arc ∈ t.inputs → kind ∈ arc.2.obstacles →
      ModesError net t (.structural (.inputNotAllowed kind))
  | refuted {arc : String × Arc} {condition : Formula} {b : Binding} : arc ∈ t.outputs →
      condition ∈ arc.2.checkedConditions → condition.holds (net.scope b) = .ok false →
      ModesError net t (.mode (.conditionFailed b))

lemma ModesError.not_domain (h : ModesError net t e) : e.isDomain = false := by
  cases h <;> rfl

lemma ModesError.not_mode (h : ModesError net t e)
    (ht : ∀ arc ∈ t.outputs, arc.2.checkedConditions = []) : e.isMode = false := by
  cases h with
  | eval cause => rfl
  | obstacle _ _ => rfl
  | refuted harc hc _ =>
    rw [ht _ harc] at hc
    cases hc

lemma ModesError.of_search {arc : String × Arc} (harc : arc ∈ t.inputs)
    (h : Arc.SearchError net.globals arc.2.obstacles arc.2.conditions e)
    (he : ¬ e.isMode = true) : ModesError net t e := by
  cases h with
  | mode cause => exact absurd rfl he
  | condition _ _ => exact .eval _
  | obstacle hk => exact .obstacle harc hk

lemma ModesError.of_value {arc : String × Arc} (harc : arc ∈ t.outputs)
    (h : Arc.ValueError (net.scope b) arc.2.checkedConditions e) :
    e.isDomain = true ∨ ModesError net t e := by
  cases h with
  | eval cause => exact .inr (.eval cause)
  | domain cause => exact .inl rfl
  | refuted hc hr => exact .inr (.refuted harc hc hr)

lemma failsWith_check (hout : net.Finds t.outputs) :
    FailsWith (fun e => e.isDomain = true ∨ ModesError net t e) (net.check t b false false) := by
  rw [check]
  refine failsWith_branch (failsWith_mapError fun cause _ => .inr (.eval cause)) ?_
  refine failsWith_allArcs fun arc harc => ?_
  refine (failsWith_place (hout arc harc)).bind fun p _ => FailsWith.bind_pure ?_
  exact (Arc.failsWith_tokens arc.2).mono fun e he => ModesError.of_value harc he

lemma failsWith_inputModes {l : List (String × Arc)} (hl : ∀ arc ∈ l, arc ∈ t.inputs)
    (hfinds : net.Finds l) : FailsWith (ModesError net t) (net.inputModes l) := by
  induction l with
  | nil => exact failsWith_ok _
  | cons arc l ih =>
    obtain ⟨harc, hl⟩ := List.forall_mem_cons.1 hl
    obtain ⟨hfound, hfinds⟩ := List.forall_mem_cons.1 hfinds
    rw [inputModes]
    refine (failsWith_place hfound).bind fun p _ => ?_
    split
    · next e he =>
      split
      · exact failsWith_ok none
      · next hm =>
        exact failsWith_error (.of_search harc (Arc.failsWith_modes arc.2 p.tokens e he) hm)
    · exact (ih hl hfinds).bind_pure

lemma failsWith_modesOf (hin : net.Finds t.inputs) (hout : net.Finds t.outputs) :
    FailsWith (ModesError net t) (net.modesOf t) := by
  rw [modesOf]
  refine (failsWith_inputModes (fun _ h => h) hin).bind fun parts _ => ?_
  cases parts with
  | none => exact failsWith_ok []
  | some parts => exact failsWith_keepModes fun b _ => failsWith_check hout

def Searched (net : Net) (arc : String × Arc) (found : List Binding) : Prop :=
  ∃ p, net.place? arc.1 = some p ∧ arc.2.modes net.globals p.tokens = .ok found

def Unmatched (net : Net) (arc : String × Arc) : Prop :=
  ∃ p cause, net.place? arc.1 = some p ∧ arc.2.modes net.globals p.tokens = .error (.mode cause)

lemma inputModes_cases {l : List (String × Arc)} {result : Option (List (List Binding))}
    (h : net.inputModes l = .ok result) : (result = none ∧ ∃ arc ∈ l, net.Unmatched arc) ∨
      ∃ parts, result = some parts ∧ List.Forall₂ net.Searched l parts := by
  induction l generalizing result with
  | nil =>
    cases h
    exact .inr ⟨[], rfl, .nil⟩
  | cons arc l ih =>
    rw [inputModes, except_bind_eq_ok] at h
    obtain ⟨p, hp, h⟩ := h
    have hp := place_eq_ok_iff.1 hp
    split at h
    · next e he =>
      split at h
      · next hm =>
        cases h
        cases e with
        | mode cause => exact .inl ⟨rfl, arc, List.mem_cons_self, p, cause, hp, he⟩
        | _ => cases hm
      · cases h
    · next found hfound =>
      obtain ⟨rest, hrest, h⟩ := except_bind_eq_ok.1 h
      cases h
      rcases ih hrest with ⟨rfl, other, ho, hno⟩ | ⟨parts, rfl, hparts⟩
      · exact .inl ⟨rfl, other, List.mem_cons_of_mem arc ho, hno⟩
      · exact .inr ⟨found :: parts, rfl, .cons ⟨p, hp, hfound⟩ hparts⟩

lemma modesOf_cases {modes : List Binding} (h : net.modesOf t = .ok modes) :
    (modes = [] ∧ ∃ arc ∈ t.inputs, net.Unmatched arc) ∨
      ∃ parts, List.Forall₂ net.Searched t.inputs parts ∧
        modes = (Binding.combine parts).filter (net.check t · false false matches .ok true) ∧
        ∀ b ∈ Binding.combine parts, (∃ passed, net.check t b false false = .ok passed) ∨
          ∃ cause, net.check t b false false = .error (.domain cause) := by
  rw [modesOf, except_bind_eq_ok] at h
  obtain ⟨result, hresult, h⟩ := h
  rcases inputModes_cases hresult with ⟨rfl, hno⟩ | ⟨parts, rfl, hparts⟩
  · cases h
    exact .inl ⟨rfl, hno⟩
  · exact .inr ⟨parts, hparts, keepModes_eq_filter h⟩

/-- The search for modes never fails with a domain error, and with a mode error only for a condition
that the tokens of an output arc depend on. If it succeeds, either some input arc is unmatched and
there are no modes, or the modes are the candidates that pass the check, and the others fail it or
leave a variable open. -/
theorem modes_errors (h : net.Built) (ht : net.transition? trans = some t) :
    (∀ e, net.modes trans = .error e → ModesError net t e ∧ e.isDomain = false ∧
      ((∀ arc ∈ t.outputs, arc.2.checkedConditions = []) → e.isMode = false)) ∧
    ∀ modes, net.modes trans = .ok modes →
      (modes = [] ∧ ∃ arc ∈ t.inputs, net.Unmatched arc) ∨
        ∃ parts, List.Forall₂ net.Searched t.inputs parts ∧
          modes = (Binding.combine parts).filter (net.check t · false false matches .ok true) ∧
          ∀ b ∈ Binding.combine parts, (∃ passed, net.check t b false false = .ok passed) ∨
            ∃ cause, net.check t b false false = .error (.domain cause) := by
  have hw := h.wellFormed
  have hmem := (hw.keyed.mem_of_transition? ht).1
  have hmodes : net.modes trans = net.modesOf t := by
    rw [Net.modes, transition_eq_ok_iff.2 ht]
    rfl
  rw [hmodes]
  refine ⟨fun e he => ?_, fun modes hm => modesOf_cases hm⟩
  have herror := failsWith_modesOf (hw.finds hmem .input) (hw.finds hmem .output) e he
  exact ⟨herror, herror.not_domain, herror.not_mode⟩

def sieving : Net :=
  .ofNodes "sieving"
    [⟨"p", Bag.ofList [.int 1, .int 2], .any, [], ["t", "u"]⟩,
      ⟨"q", Bag.empty, .oneOf (KeySet.ofList [.int 1]), ["t", "u"], []⟩]
    [⟨"t", .truth, [("p", .var "x")], [("q", .var "x")]⟩,
      ⟨"u", .truth, [("p", .var "x")], [("q", .var "y")]⟩] Table.empty

theorem modes_errors_sieving : sieving.Built ∧
    sieving.modes "t" = .ok [Binding.single "x" (.int 1)] ∧ sieving.modes "u" = .ok [] ∧
    ∃ t parts, sieving.transition? "u" = some t ∧
      List.Forall₂ sieving.Searched t.inputs parts ∧ (Binding.combine parts).length = 2 ∧
      [] = (Binding.combine parts).filter (sieving.check t · false false matches .ok true) := by
  have hbuilt : sieving.Built := .described (d := .ofNet sieving) rfl
  have ht : sieving.transition? "u" = some _ := rfl
  obtain ⟨-, hok⟩ := modes_errors hbuilt ht
  refine ⟨hbuilt, rfl, rfl, ?_⟩
  rcases hok [] rfl with ⟨-, arc, harc, p, cause, hp, hno⟩ | ⟨parts, hparts, hnone, -⟩
  · -- the input arc has modes, so that it is not unmatched
    cases List.mem_singleton.1 harc
    cases hp
    cases hno
  · cases hparts with
    | cons hfirst hrest =>
      cases hrest
      obtain ⟨p, hp, hfound⟩ := hfirst
      cases hp
      cases hfound
      exact ⟨_, _, ht, .cons ⟨_, rfl, rfl⟩ .nil, rfl, hnone⟩

def refuting : Net :=
  .ofNodes "refuting"
    [⟨"p", Bag.ofList [.int 1], .any, [], ["t"]⟩, ⟨"q", Bag.empty, .any, ["t"], []⟩]
    [⟨"t", .truth, [("p", .var "x")], [("q", .tuple [.inhibitor (.var "x") ⟨"False"⟩])]⟩]
    Table.empty

/-- The condition makes the one candidate fail, and the search with it. -/
theorem mode_error_escapes : refuting.Built ∧ refuting.modes "t" =
    .error (.mode (.conditionFailed (Binding.single "x" (.int 1)))) :=
  ⟨.described (d := .ofNet refuting) rfl, rfl⟩

end Net

end ColouredPetri
