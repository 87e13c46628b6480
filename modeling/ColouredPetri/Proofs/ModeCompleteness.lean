import ColouredPetri.Proofs.Arcs.Completeness
import ColouredPetri.Proofs.Nets.Enabling

/-! Completeness of the search on a transition. If all input arcs are solvable, every binding of
their variables that enables the transition is among the modes. -/

namespace ColouredPetri

namespace Net

variable {net : Net} {b : Binding} {t : Transition} {trans : String}

lemma inputModes_of_available {l : List (String × Arc)} (hs : ∀ e ∈ l, e.2.solvable = true)
    (ha : ∀ e ∈ l, net.available b e.1 e.2 = .ok true) :
    ∃ parts, net.inputModes l = .ok (some parts) ∧
      List.Forall₂ (Arc.Hits b) parts (l.map Prod.snd) := by
  induction l with
  | nil => exact ⟨[], rfl, .nil⟩
  | cons e l ih =>
    obtain ⟨hse, hs⟩ := List.forall_mem_cons.1 hs
    obtain ⟨hae, ha⟩ := List.forall_mem_cons.1 ha
    obtain ⟨p, f, hp, hf, hsub⟩ := available_eq_true_iff.1 hae
    obtain ⟨found, hfound, hhits⟩ := Arc.found_of_flow hse hf hsub
    obtain ⟨parts, hparts, hall⟩ := ih hs ha
    refine ⟨found :: parts, ?_, .cons hhits hall⟩
    rw [inputModes, place_eq_ok_iff.2 hp, except_ok_bind, show e.2.modes net.globals p.tokens = _
      from hfound]
    simp [hparts]

theorem modes_complete (ht : net.transition? trans = some t)
    (hs : ∀ e ∈ t.inputs, e.2.solvable = true) {modes : List Binding}
    (hm : net.modes trans = .ok modes) (hd : b.keys = (Transition.arcVars t.inputs).keys)
    (he : net.enabled trans b = .ok true) : b ∈ modes := by
  obtain ⟨u, hu, he⟩ := enabled_eq_true_iff.1 he
  cases ht.symm.trans hu
  obtain ⟨hguard, hin, -, hout⟩ := check_eq_true_iff.1 he
  obtain ⟨parts, hparts, hhits⟩ := inputModes_of_available hs (hin rfl)
  obtain ⟨g, hg, hr⟩ := Arc.hits_combine hhits
  -- the restriction to all names that the binding has is the binding
  obtain rfl : g = b := hr.eq fun name hn => by rwa [hd] at hn
  have hmodes : net.modesOf t =
      keepModes (fun b => net.check t b false false) (Binding.combine parts) := by
    rw [modesOf, hparts]
    rfl
  rw [Net.modes, transition_eq_ok_iff.2 ht, except_ok_bind, hmodes] at hm
  exact mem_keepModes_of_check hm hg (check_eq_true_iff.2 ⟨hguard, nofun, nofun, hout⟩)

def joining : Net :=
  .ofNodes "joining"
    [⟨"p", Bag.ofList [.tuple [.int 1, .int 2], .tuple [.int 2, .int 3],
      .tuple [.int 2, .int 4]], .kind .tuple, [], ["t"]⟩,
      ⟨"q", Bag.ofList [.int 2, .int 2], .any, [], ["t"]⟩]
    [⟨"t", .truth,
    [("p", .multi [.tuple [.var "x", .var "y"], .multi [.tuple [.var "y", .var "z"]]]),
      ("q", .multi [.var "y", .value (.int 2)])], []⟩] Table.empty

theorem modes_complete_joining : ∃ modes, joining.modes "t" = .ok modes ∧
    Table.ofList [("x", .int 1), ("y", .int 2), ("z", .int 4)] ∈ modes :=
  ⟨_, rfl, modes_complete (show joining.transition? "t" = some _ from rfl) (by decide) rfl rfl rfl⟩

end Net

end ColouredPetri
