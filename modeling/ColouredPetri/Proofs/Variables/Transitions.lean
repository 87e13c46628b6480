import ColouredPetri.Net.Firing
import ColouredPetri.Proofs.Restrictions
import ColouredPetri.Proofs.Variables.Arcs

namespace ColouredPetri

variable {f : String → String} {P : String → Prop}

namespace KeySet

def Renames (f : String → String) (s s' : KeySet String) : Prop :=
  ∀ n, n ∈ s'.keys ↔ ∃ m ∈ s.keys, f m = n

variable {s s' t t' : KeySet String}

lemma renames_empty : Renames f Table.empty Table.empty := fun _ => by simp [Table.keys]

lemma renames_singleton {n : String} : Renames f (ofList [n]) (ofList [f n]) := fun m => by
  simp only [mem_keys_ofList, List.mem_singleton, exists_eq_left]
  exact eq_comm

lemma Renames.union (hs : Renames f s s') (ht : Renames f t t') :
    Renames f (s.union t) (s'.union t') := by
  intro n
  simp only [mem_keys_union, hs n, ht n, or_and_right, exists_or]

lemma Renames.eq_ofList (h : Renames f s s') : s' = ofList (s.keys.map f) :=
  ext fun n => (h n).trans (by rw [mem_keys_ofList, List.mem_map])

end KeySet

def KeepsVariables (f : String → String) (P : String → Prop) : Prop :=
  ∀ n, P n → isVariableName n = true → isVariableName (f n) = true

namespace Arc

mutual

def formulas : Arc → List Formula
  | value _ => []
  | var _ => []
  | formula φ => [φ]
  | multi parts => formulasAll parts
  | tuple parts => formulasAll parts
  | test inner => formulas inner
  | inhibitor inner condition => formulas inner ++ [condition]
  | flush inner => formulas inner

def formulasAll : List Arc → List Formula
  | [] => []
  | a :: l => formulas a ++ formulasAll l

end

lemma validateAll_of_multi {l : List Arc} (h : (multi l).validate = .ok ()) :
    validateAll l = .ok () := by
  cases l with
  | nil => rfl
  | cons a l => exact h

lemma validateAll_of_tuple {l : List Arc} (h : (tuple l).validate = .ok ()) :
    validateAll l = .ok () := by
  cases l with
  | nil => rfl
  | cons a l => exact h

lemma validateAll_cons {a : Arc} {l : List Arc} (h : validateAll (a :: l) = .ok ()) :
    a.validate = .ok () ∧ validateAll l = .ok () := by
  rw [validateAll] at h
  split at h
  · cases h
  · next ha => exact ⟨ha, h⟩

variable {r : Binding}

mutual

lemma exists_rename (hn : KeepsNames r.rename P) (hv : KeepsVariables r.rename P) :
    ∀ {a : Arc}, a.validate = .ok () → (∀ φ ∈ a.formulas, ∃ e, Expr.parse φ.source = .ok e) →
      (∀ n ∈ a.vars.keys, P n) → ∃ a', a.rename r = .ok a' ∧ Renames r.rename P a a' ∧
        KeySet.Renames r.rename a.vars a'.vars
  | value v, _, _, _ => ⟨value v, rfl, .value v, KeySet.renames_empty⟩
  | var n, hvalid, _, hP => by
    have hn : P n := hP n (KeySet.mem_keys_ofList.2 (List.mem_singleton_self n))
    have hvar : isVariableName n = true := by
      rw [validate] at hvalid
      split at hvalid
      · assumption
      · cases hvalid
    refine ⟨var (r.rename n), ?_, .var hn, KeySet.renames_singleton⟩
    rw [rename, named, if_pos (hv n hn hvar)]
    rfl
  | formula φ, _, hparse, hP => by
    obtain ⟨e, he⟩ := hparse φ (List.mem_singleton_self φ)
    obtain ⟨φ', hφ', hr, hvars⟩ := Formula.exists_rename hn he hP
    refine ⟨formula φ', ?_, .formula hr, hvars⟩
    rw [rename, hφ']
    rfl
  | multi l, hvalid, hparse, hP => by
    obtain ⟨l', hl', hr, hvars⟩ :=
      exists_renameAll hn hv (validateAll_of_multi hvalid) hparse hP
    refine ⟨multi l', ?_, .multi hr, hvars⟩
    rw [rename, hl']
    rfl
  | tuple l, hvalid, hparse, hP => by
    obtain ⟨l', hl', hr, hvars⟩ :=
      exists_renameAll hn hv (validateAll_of_tuple hvalid) hparse hP
    refine ⟨tuple l', ?_, .tuple hr, hvars⟩
    rw [rename, hl']
    rfl
  | test a, hvalid, hparse, hP => by
    obtain ⟨a', ha', hr, hvars⟩ := exists_rename (a := a) hn hv hvalid hparse hP
    refine ⟨test a', ?_, .test hr, hvars⟩
    rw [rename, ha']
    rfl
  | inhibitor a φ, hvalid, hparse, hP => by
    simp only [formulas, List.forall_mem_append, List.forall_mem_singleton] at hparse
    simp only [vars, KeySet.mem_keys_union, or_imp, forall_and] at hP
    obtain ⟨a', ha', hr, hvars⟩ := exists_rename (a := a) hn hv hvalid hparse.1 hP.1
    obtain ⟨e, he⟩ := hparse.2
    obtain ⟨φ', hφ', hrφ, hvarsφ⟩ := Formula.exists_rename hn he hP.2
    refine ⟨inhibitor a' φ', ?_, .inhibitor hr hrφ, hvars.union hvarsφ⟩
    rw [rename, ha', hφ']
    rfl
  | flush a, hvalid, hparse, hP => by
    obtain ⟨a', ha', hr, hvars⟩ := exists_rename (a := a) hn hv hvalid hparse hP
    refine ⟨flush a', ?_, .flush hr, hvars⟩
    rw [rename, ha']
    rfl

lemma exists_renameAll (hn : KeepsNames r.rename P) (hv : KeepsVariables r.rename P) :
    ∀ {l : List Arc}, validateAll l = .ok () →
      (∀ φ ∈ formulasAll l, ∃ e, Expr.parse φ.source = .ok e) → (∀ n ∈ (varsAll l).keys, P n) →
      ∃ l', renameAll r l = .ok l' ∧ RenamesAll r.rename P l l' ∧
        KeySet.Renames r.rename (varsAll l) (varsAll l')
  | [], _, _, _ => ⟨[], rfl, .nil, KeySet.renames_empty⟩
  | a :: l, hvalid, hparse, hP => by
    simp only [formulasAll, List.forall_mem_append] at hparse
    simp only [varsAll, KeySet.mem_keys_union, or_imp, forall_and] at hP
    obtain ⟨ha, hl⟩ := validateAll_cons hvalid
    obtain ⟨a', ha', hr, hvars⟩ := exists_rename hn hv ha hparse.1 hP.1
    obtain ⟨l', hl', hrl, hvarsl⟩ := exists_renameAll hn hv hl hparse.2 hP.2
    refine ⟨a' :: l', ?_, .cons hr hrl, hvars.union hvarsl⟩
    rw [renameAll, ha', hl']
    rfl

end

end Arc

namespace Transition

variable {r : Binding} {t t' : Transition}

abbrev RenamesArcs (f : String → String) (P : String → Prop) (l l' : List (String × Arc)) : Prop :=
  List.Forall₂ (fun e e' => e.1 = e'.1 ∧ Arc.Renames f P e.2 e'.2) l l'

structure Renames (f : String → String) (P : String → Prop) (t t' : Transition) : Prop where
  guard : t.guard.Renames f P t'.guard
  inputs : RenamesArcs f P t.inputs t'.inputs
  outputs : RenamesArcs f P t.outputs t'.outputs

def formulas (t : Transition) : List Formula :=
  t.guard :: ((t.inputs ++ t.outputs).flatMap fun e => e.2.formulas)

lemma exists_renameArcs (hn : KeepsNames r.rename P) (hv : KeepsVariables r.rename P) :
    ∀ {l : List (String × Arc)}, (∀ e ∈ l, e.2.validate = .ok ()) →
      (∀ e ∈ l, ∀ φ ∈ e.2.formulas, ∃ e, Expr.parse φ.source = .ok e) →
      (∀ n ∈ (arcVars l).keys, P n) →
      ∃ l', renameArcs r l = .ok l' ∧ RenamesArcs r.rename P l l' ∧
        KeySet.Renames r.rename (arcVars l) (arcVars l')
  | [], _, _, _ => ⟨[], rfl, .nil, KeySet.renames_empty⟩
  | (place, a) :: l, hvalid, hparse, hP => by
    obtain ⟨ha, hl⟩ := List.forall_mem_cons.1 hvalid
    obtain ⟨hpa, hpl⟩ := List.forall_mem_cons.1 hparse
    simp only [arcVars, List.map_cons, Arc.varsAll, KeySet.mem_keys_union, or_imp, forall_and] at hP
    obtain ⟨a', ha', hr, hvars⟩ := Arc.exists_rename hn hv ha hpa hP.1
    obtain ⟨l', hl', hrl, hvarsl⟩ := exists_renameArcs hn hv hl hpl hP.2
    refine ⟨(place, a') :: l', ?_, .cons ⟨rfl, hr⟩ hrl, hvars.union hvarsl⟩
    rw [renameArcs, ha', hl']
    rfl

lemma exists_rename (hn : KeepsNames r.rename P) (hv : KeepsVariables r.rename P)
    (hvalid : ∀ e ∈ t.inputs ++ t.outputs, e.2.validate = .ok ())
    (hparse : ∀ φ ∈ t.formulas, ∃ e, Expr.parse φ.source = .ok e) (hP : ∀ n ∈ t.vars.keys, P n) :
    ∃ t', t.rename r = .ok t' ∧ t.Renames r.rename P t' ∧
      KeySet.Renames r.rename t.vars t'.vars := by
  simp only [vars, KeySet.mem_keys_union, or_imp, forall_and] at hP
  obtain ⟨⟨hPguard, hPinputs⟩, hPoutputs⟩ := hP
  obtain ⟨⟨e, hguard⟩, harcs⟩ := List.forall_mem_cons.1 hparse
  have harcs : ∀ e ∈ t.inputs ++ t.outputs, ∀ φ ∈ e.2.formulas, ∃ e, Expr.parse φ.source = .ok e :=
    fun e he φ hφ => harcs φ (List.mem_flatMap.2 ⟨e, he, hφ⟩)
  rw [List.forall_mem_append] at hvalid harcs
  obtain ⟨guard, hrguard, hg, hgvars⟩ := Formula.exists_rename hn hguard hPguard
  obtain ⟨inputs, hrinputs, hi, hivars⟩ := exists_renameArcs hn hv hvalid.1 harcs.1 hPinputs
  obtain ⟨outputs, hroutputs, ho, hovars⟩ := exists_renameArcs hn hv hvalid.2 harcs.2 hPoutputs
  have hvars := (KeySet.Renames.union hgvars hivars).union hovars
  refine ⟨⟨t.name, guard, inputs, outputs⟩, ?_, ⟨hg, hi, ho⟩, hvars⟩
  rw [rename, hrguard, hrinputs, hroutputs]
  rfl

end Transition

namespace Net

open Transition

variable {net : Net} {b b' : Binding} {t t' : Transition} {l l' : List (String × Arc)}

lemma allArcs_renames {test test' : String → Arc → Except Error Bool}
    (ht : ∀ place a a', Arc.Renames f P a a' → SameOutcome (test place a) (test' place a'))
    (hl : RenamesArcs f P l l') : SameOutcome (allArcs test l) (allArcs test' l') := by
  induction hl with
  | nil => exact .ok rfl
  | @cons e e' l l' he _ ih =>
    obtain ⟨place, a⟩ := e
    obtain ⟨place', a'⟩ := e'
    obtain ⟨rfl, ha⟩ := he
    rw [allArcs, allArcs]
    refine (ht place a a' ha).bind fun passed _ h => ?_
    subst h
    cases passed with
    | true => exact ih
    | false => exact .ok rfl

lemma place_bind {α : Type} {place : String} {g k : Place → Except Error α}
    (h : ∀ p, SameOutcome (g p) (k p)) : SameOutcome (net.place place >>= g) (net.place place >>= k) :=
  (sameOutcome_self (net.place place)).bind fun p _ hp => hp ▸ h p

lemma available_renames (hg : KeepsGlobals f P net.globals) (hb : b.Renames f P b') (place : String)
    (a a' : Arc) (ha : Arc.Renames f P a a') :
    SameOutcome (net.available b place a) (net.available b' place a') := by
  rw [available, available]
  exact place_bind fun p => (Arc.flow_renames hg hb ha).bind_pure fun _ _ h => h ▸ rfl

lemma typesRespected_renames (hg : KeepsGlobals f P net.globals) (hb : b.Renames f P b')
    (place : String) (a a' : Arc) (ha : Arc.Renames f P a a') :
    SameOutcome (net.typesRespected b place a) (net.typesRespected b' place a') := by
  rw [typesRespected, typesRespected]
  exact place_bind fun p => (Arc.tokens_renames hg hb ha).bind_pure fun _ _ h => h ▸ rfl

lemma branch_parallel {x x' y y' : Except Error Bool} (hx : SameOutcome x x')
    (hy : SameOutcome y y') :
    SameOutcome (x >>= fun r => if r = false then .ok false else y)
      (x' >>= fun r => if r = false then .ok false else y') := by
  refine hx.bind fun r _ h => ?_
  subst h
  cases r with
  | true => exact hy
  | false => exact .ok rfl

lemma check_renames (hg : KeepsGlobals f P net.globals) (hb : b.Renames f P b')
    (ht : t.Renames f P t') (tokens input : Bool) :
    SameOutcome (net.check t b tokens input) (net.check t' b' tokens input) := by
  have havailable := allArcs_renames (available_renames hg hb) ht.inputs
  have hinputs := allArcs_renames (typesRespected_renames hg hb) ht.inputs
  have houtputs := allArcs_renames (typesRespected_renames hg hb) ht.outputs
  have hguard := (ht.guard.holds (hb.scope hg)).lift
  cases tokens <;> cases input <;>
    simp only [check, Bool.not_eq_eq_eq_not, Bool.not_true, except_pure, Bool.false_eq_true,
      ↓reduceIte]
  · exact branch_parallel hguard houtputs
  · exact branch_parallel hguard (branch_parallel hinputs houtputs)
  · exact branch_parallel hguard (branch_parallel havailable houtputs)
  · exact branch_parallel hguard (branch_parallel havailable (branch_parallel hinputs houtputs))

lemma arcFlows_renames (hg : KeepsGlobals f P net.globals) (hb : b.Renames f P b')
    (hl : RenamesArcs f P l l') : SameOutcome (net.arcFlows b l) (net.arcFlows b' l') := by
  induction hl with
  | nil => exact .ok rfl
  | @cons e e' l l' he _ ih =>
    obtain ⟨place, a⟩ := e
    obtain ⟨place', a'⟩ := e'
    obtain ⟨rfl, ha⟩ := he
    rw [arcFlows, arcFlows]
    exact (Arc.flow_renames hg hb ha).bind fun _ _ hf => ih.bind_pure fun _ _ hfs => by rw [hf, hfs]

lemma flowOf_renames (hg : KeepsGlobals f P net.globals) (hb : b.Renames f P b')
    (ht : t.Renames f P t') : SameOutcome (net.flowOf t b) (net.flowOf t' b') := by
  rw [flowOf, flowOf]
  refine (check_renames hg hb ht true true).bind fun enabled _ h => ?_
  subst h
  cases enabled with
  | false => exact .error ⟨rfl, rfl⟩
  | true =>
    exact (arcFlows_renames hg hb ht.inputs).bind fun _ _ hc =>
      (arcFlows_renames hg hb ht.outputs).bind_pure fun _ _ hp => by rw [hc, hp]

lemma inputModes_renames (hf : Set.InjOn f {n | P n}) (hg : KeepsGlobals f P net.globals)
    (hl : RenamesArcs f P l l') :
    Parallel Error.SameKind (Arc.RenamesParts f P) (net.inputModes l) (net.inputModes l') := by
  induction hl with
  | nil => exact .ok (.some .nil)
  | @cons e e' l l' he _ ih =>
    obtain ⟨place, a⟩ := e
    obtain ⟨place', a'⟩ := e'
    obtain ⟨rfl, ha⟩ := he
    rw [inputModes, inputModes]
    refine (sameOutcome_self (net.place place)).bind fun p _ hp => ?_
    subst hp
    obtain ⟨part, part', hx, hy, hpart⟩ | ⟨d, e, hx, hy, hde⟩ :=
      (Arc.modes_renames hf hg p.tokens ha).cases
    · rw [hx, hy]
      refine ih.bind_pure fun _ _ h => ?_
      cases h with
      | none => exact .none
      | some h => exact .some (.cons hpart h)
    · rw [hx, hy]
      simp only [hde.1]
      split
      · exact .ok .none
      · exact .error hde

lemma modesOf_renames (hf : Set.InjOn f {n | P n}) (hg : KeepsGlobals f P net.globals)
    (ht : t.Renames f P t') :
    Parallel Error.SameKind (Binding.RenamesAll f P) (net.modesOf t) (net.modesOf t') := by
  rw [modesOf, modesOf]
  refine (inputModes_renames hf hg ht.inputs).bind fun _ _ h => ?_
  cases h with
  | none => exact .ok .nil
  | some h =>
    exact keepModes_parallel (Binding.combine_renames h) fun b b' hb =>
      check_renames hg hb ht false false

end Net

end ColouredPetri
