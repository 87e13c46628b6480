import ColouredPetri.Proofs.ModeErrors
import ColouredPetri.Proofs.Nets.Restore
import ColouredPetri.Proofs.Variables.OpenNames

namespace ColouredPetri

namespace Transition

variable {t : Transition} {globals : Binding} {n : String}

/-- A name that the input arcs have in inhibitors and nowhere else, so that no token gives it a
value. -/
def OnlyInhibits (t : Transition) (n : String) : Prop :=
  n ∈ (arcVars t.inputs).keys ∧
    ∀ e ∈ t.inputs, ∀ leaf ∈ e.2.leaves, leaf.Names n → leaf.isInhibitor = true

lemma mem_arcVars {arcs : List (String × Arc)} :
    n ∈ (arcVars arcs).keys ↔ ∃ e ∈ arcs, n ∈ e.2.vars.keys := by
  rw [arcVars, Arc.mem_varsAll]
  simp only [List.mem_map, exists_exists_and_eq_and]

lemma mem_unboundOutputVars : n ∈ (t.unboundOutputVars globals).keys ↔
    (n ∈ t.guard.knownVars.keys ∨ n ∈ (arcVars t.outputs).keys) ∧
      n ∉ (arcVars t.inputs).keys ∧ n ∉ globals.keys := by
  rw [unboundOutputVars, KeySet.mem_keys_filter, KeySet.diff, KeySet.mem_keys_filter,
    KeySet.mem_keys_union, and_assoc, Bool.not_eq_true', Bool.not_eq_true', Bool.eq_false_iff,
    Bool.eq_false_iff, ne_eq, ne_eq, Table.contains_iff, Table.contains_iff]

end Transition

namespace Net

variable {net : Net} {t : Transition} {m : Marking} {b : Binding} {parts : List (List Binding)}
variable {n : String}

lemma bound_of_searched {arcs : List (String × Arc)}
    (hparts : List.Forall₂ net.Searched arcs parts)
    (hb : ∀ part ∈ parts, ∃ g ∈ part, b.Extends g) {e : String × Arc} (he : e ∈ arcs)
    {leaf : Arc} (hleaf : leaf ∈ e.2.leaves) (hno : leaf.isInhibitor = false)
    (hn : leaf.Names n) : n ∈ b.keys := by
  induction hparts with
  | nil => cases he
  | @cons arc found arcs parts hfirst hrest ih =>
    obtain ⟨⟨g, hg, hext⟩, hb⟩ := List.forall_mem_cons.1 hb
    rcases List.mem_cons.1 he with rfl | he
    · obtain ⟨p, -, hfound⟩ := hfirst
      exact hext.mem_keys (Arc.bound_of_modes hfound g hg leaf hleaf hno n hn)
    · exact ih hb he

lemma open_name (hopen : (t.unboundOutputVars net.globals).keys = [])
    (hparts : List.Forall₂ (net.restore m).Searched t.inputs parts)
    (hb : b ∈ Binding.combine parts)
    (hn : n ∈ t.guard.knownVars.keys ∨ n ∈ (Transition.arcVars t.outputs).keys)
    (hnone : b.get? n = none) : t.OnlyInhibits n ∨ n ∈ net.globals.keys := by
  refine or_iff_not_imp_right.2 fun hglobal => ⟨?_, fun e he leaf hleaf hhas => ?_⟩
  · by_contra hin
    have hmem := Transition.mem_unboundOutputVars.2 ⟨hn, hin, hglobal⟩
    rw [hopen] at hmem
    cases hmem
  · by_contra hno
    have hkeys := bound_of_searched hparts (Binding.combine_extends hb) he hleaf
      (Bool.eq_false_iff.2 hno) hhas
    obtain ⟨v, hv⟩ := Table.mem_keys_iff.1 hkeys
    rw [hnone] at hv
    cases hv

lemma scope_lookup_eq_none (h : (net.scope b).lookup? n = none) :
    b.get? n = none ∧ n ∉ net.globals.keys := by
  obtain ⟨hnone, hglobal⟩ := Scope.lookup_eq_none h
  refine ⟨hnone, fun hn => ?_⟩
  obtain ⟨v, hv⟩ := Table.mem_keys_iff.1 hn
  cases hv.symm.trans hglobal

/-- If a transition has no open variables, then for no candidate does its guard or the tokens or
flow of an output arc fail for want of a name, unless the input arcs have the name only in
inhibitors or it is a global that the output arc has as a variable. -/
theorem open_variables_reported (hopen : (t.unboundOutputVars net.globals).keys = [])
    (hparts : List.Forall₂ (net.restore m).Searched t.inputs parts)
    (hb : b ∈ Binding.combine parts) :
    (∀ n, t.guard.holds (net.scope b) = .error (.unboundName n) → t.OnlyInhibits n) ∧
    ∀ arc ∈ t.outputs, ∀ e,
      arc.2.tokens (net.scope b) = .error e ∨ arc.2.flow (net.scope b) = .error e →
        (∀ n, e = .eval (.unboundName n) → t.OnlyInhibits n) ∧
        ∀ n, e = .domain (.unbound n) → t.OnlyInhibits n ∨
          n ∈ net.globals.keys ∧ .var n ∈ arc.2.leaves ∧ b.get? n = none := by
  have hformula : ∀ {n}, n ∈ t.guard.knownVars.keys ∨ n ∈ (Transition.arcVars t.outputs).keys →
      (net.scope b).lookup? n = none → t.OnlyInhibits n := fun hn hnone => by
    obtain ⟨hbinding, hglobal⟩ := scope_lookup_eq_none hnone
    exact (open_name hopen hparts hb hn hbinding).resolve_right hglobal
  refine ⟨fun n he => ?_, fun arc harc e he => ?_⟩
  · obtain ⟨hn, hnone⟩ := Formula.wantsOnly_holds _ he
    exact hformula (.inl hn) hnone
  · obtain ⟨leaf, hleaf, hfails⟩ :=
      he.elim (Arc.failsIn_tokens arc.2 e) (Arc.failsIn_flow arc.2 e)
    have hname : ∀ {n}, leaf.Names n → n ∈ (Transition.arcVars t.outputs).keys :=
      fun hn => Transition.mem_arcVars.2 ⟨arc, harc, Arc.names_of_leaf hleaf hn⟩
    refine ⟨?_, ?_⟩
    · rintro n rfl
      obtain ⟨hn, hnone⟩ := hfails.wants
      exact hformula (.inr (hname hn)) hnone
    · rintro n rfl
      obtain ⟨rfl, hnone⟩ := hfails.var_of_unbound
      have hn : (Arc.var n).Names n := KeySet.mem_keys_ofList.2 (List.mem_singleton_self n)
      exact (open_name hopen hparts hb (.inr (hname hn)) hnone).imp_right (⟨·, hleaf, hnone⟩)

def capped : Transition :=
  ⟨"t", ⟨"x < limit"⟩, [("p", .var "x")], [("q", .var "limit")]⟩

def capping : Net :=
  .ofNodes "capping"
    [⟨"p", Bag.ofList [.int 1], .any, [], ["t"]⟩, ⟨"q", Bag.empty, .any, ["t"], []⟩]
    [capped] (Binding.single "limit" (.int 3))

theorem open_variables_reported_capping :
    (capped.unboundOutputVars capping.globals).keys = [] ∧
    ∃ parts, List.Forall₂ (capping.restore capping.marking).Searched capped.inputs parts ∧
      ∃ b ∈ Binding.combine parts,
        (∀ n, capped.guard.holds (capping.scope b) ≠ .error (.unboundName n)) ∧
        ∃ arc ∈ capped.outputs,
          arc.2.tokens (capping.scope b) = .error (.domain (.unbound "limit")) ∧
            "limit" ∈ capping.globals.keys ∧ .var "limit" ∈ arc.2.leaves := by
  have hopen : (capped.unboundOutputVars capping.globals).keys = [] := by decide +kernel
  have hparts : List.Forall₂ (capping.restore capping.marking).Searched capped.inputs
      [[Binding.single "x" (.int 1)]] := .cons ⟨_, rfl, rfl⟩ .nil
  have hb : Binding.single "x" (.int 1) ∈ Binding.combine [[Binding.single "x" (.int 1)]] :=
    List.mem_singleton_self _
  -- the input arcs have no inhibitors
  have hfree : ∀ n, ¬ capped.OnlyInhibits n := fun n hn => by
    obtain ⟨arc, harc, hin⟩ := Transition.mem_arcVars.1 hn.1
    cases List.mem_singleton.1 harc
    cases hn.2 _ (List.mem_singleton_self _) _ (List.mem_singleton_self _) hin
  obtain ⟨hguard, hout⟩ := open_variables_reported hopen hparts hb
  refine ⟨hopen, _, hparts, _, hb, fun n he => hfree n (hguard n he), ?_⟩
  refine ⟨_, List.mem_singleton_self _, rfl, ?_⟩
  obtain ⟨-, hunbound⟩ := hout _ (List.mem_singleton_self _) _ (.inl rfl)
  obtain ⟨hglobal, hvar, -⟩ := (hunbound "limit" rfl).resolve_left (hfree "limit")
  exact ⟨hglobal, hvar⟩

def overlooking : Net :=
  .ofNodes "overlooking"
    [⟨"p", Bag.empty, .any, [], ["t"]⟩, ⟨"q", Bag.empty, .any, ["t", "u"], []⟩]
    [⟨"t", .truth, [("p", .inhibitor (.var "x") .truth)], [("q", .var "x")]⟩,
      ⟨"u", .truth, [], [("q", .var "limit")]⟩] (Binding.single "limit" (.int 1))

/-- The output arcs have no open variables, and for the one candidate they fail for want of one. -/
theorem open_variable_unreported : overlooking.Built ∧
    ∀ t ∈ overlooking.transitions, (t.unboundOutputVars overlooking.globals).keys = [] ∧
      ∃ parts, List.Forall₂ overlooking.Searched t.inputs parts ∧ ∃ b ∈ Binding.combine parts,
        ∃ arc ∈ t.outputs, ∃ n,
          arc.2.tokens (overlooking.scope b) = .error (.domain (.unbound n)) ∧
            arc.2.flow (overlooking.scope b) = .error (.domain (.unbound n)) := by
  refine ⟨.described (d := .ofNet overlooking) rfl, fun t ht => ?_⟩
  rcases List.mem_cons.1 ht with rfl | ht
  · refine ⟨by decide +kernel, [[Table.empty]], .cons ⟨_, rfl, rfl⟩ .nil, Table.empty, ?_⟩
    exact ⟨List.mem_singleton_self _, _, List.mem_singleton_self _, "x", rfl, rfl⟩
  · cases List.mem_singleton.1 ht
    refine ⟨by decide +kernel, [], .nil, Table.empty, ?_⟩
    exact ⟨List.mem_singleton_self _, _, List.mem_singleton_self _, "limit", rfl, rfl⟩

end Net

end ColouredPetri
