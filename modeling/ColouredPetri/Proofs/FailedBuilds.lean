import ColouredPetri.Proofs.GraphCollections
import ColouredPetri.Proofs.Nets.Built
import ColouredPetri.Proofs.StateGraph.Processing

/-! Builds that end with an evaluation error. Nothing of the state that fails is recorded, so that
the graph is the one of the states before it, and building again fails in the same way. -/

namespace ColouredPetri

namespace StateGraph

variable {net : Net} {config : ExploreConfig} {g g' : StateGraph} {s : Nat} {rest : List Nat}
variable {cause : EvalError}

lemma Placed.nodes_eq_range (hp : Placed net config g) : g.nodes = List.range g.markings.next := by
  rw [StateGraph.nodes_eq, List.filter_eq_self]
  intro t ht
  obtain ⟨o, hget⟩ : ∃ o, g.markings.get? t = some o :=
    ⟨_, List.getElem?_eq_getElem (List.mem_range.1 ht)⟩
  cases o with
  | some m =>
    rw [marking?, hget]
    rfl
  | none =>
    rw [← hp.consistent.linked.removed_iff, ← Table.contains_iff] at hget
    cases (hp.whole t).symm.trans hget

lemma Placed.done_below_head (hp : Placed net config g) (hq : g.todo = s :: rest) :
    s = g.done.size ∧ g.done.keys = List.range s := by
  have hall : g.done.keys ++ s :: rest = List.range g.markings.next := by
    rw [← hq, ← hp.consistent.scheduled.nodes_eq, hp.nodes_eq_range]
  have hlt : g.done.keys.length < g.markings.next := by
    have := congrArg List.length hall
    simp only [List.length_append, List.length_cons, List.length_range] at this
    omega
  have hs : s = g.done.keys.length := by
    have hget := congrArg (·[g.done.keys.length]?) hall
    simpa [hlt] using hget
  refine ⟨hs.trans (Table.size_eq_length_keys _).symm, ?_⟩
  have htake := congrArg (List.take g.done.keys.length) hall
  rwa [List.take_left, List.take_range, Nat.min_eq_left (Nat.le_of_lt hlt), ← hs] at htake

lemma build_again (h : net.WellFormed) (hp : Steady net config g) (hq : g.todo = s :: rest)
    (hs : compute s { g with todo := rest } = .error (.eval cause) g') :
    build g' = .error (.eval cause) g' := by
  have hlive := hp.consistent.not_removed (hp.consistent.head_live hq)
  obtain ⟨m, hm, ha, hfails, rfl⟩ := (compute_error_iff h hp.settled hlive).1 hs
  have hstands : Settled net { g with todo := s :: rest, current := s, net := net.restore m } :=
    ⟨m, hm, ha, rfl⟩
  exact build_of_fails rfl ((compute_error_iff h hstands hlive).2 ⟨m, hm, ha, hfails, rfl⟩)

theorem failed_build (h : net.Built) {limit : Option Nat}
    (hb : build (ofNet net ⟨limit, false⟩) = .error (.eval cause) g) :
    ∃ s rest m g₀, explore s (ofNet net ⟨limit, false⟩) = .ok s g₀ ∧
      compute s { g₀ with todo := rest } = .error (.eval cause) g ∧
      g₀.todo = s :: rest ∧ g₀.done.keys = List.range s ∧ g₀.marking? s = some m ∧
      g = { g₀ with net := net.restore m, current := s } ∧ g.successorsOf s = [] ∧
      build g = .error (.eval cause) g := by
  have hw := h.wellFormed
  rcases processWhile_fails hb with he | ⟨k, s, rest, g₀, hk, hq, hfails⟩
  · cases he
  obtain ⟨hp, -, hcount⟩ := (placed_ofNet hw _).explore hw hk
  obtain ⟨hs, hdone⟩ := hp.done_below_head hq
  have hstate : s = k := hs.trans (hcount.trans (Nat.zero_add k))
  obtain ⟨m, hm, -, -, hg⟩ := (compute_error_iff hw hp.settled (hp.whole s)).1 hfails
  have hleft : g = { g₀ with net := net.restore m, current := s } := by
    rw [hg, ← hq]
  refine ⟨s, rest, m, g₀, hstate ▸ hk, hfails, hq, hdone, hm, hleft, ?_,
    build_again hw hp.steady hq hfails⟩
  refine List.eq_nil_iff_forall_not_mem.2 fun e he => ?_
  rw [hleft] at he
  exact hp.consistent.scheduled.idle s (by rw [hq]; exact List.mem_cons_self) e he

def dividing : Net :=
  .ofNodes "dividing"
    [⟨"p", Bag.ofList [.int 2], .any, ["t"], ["t"]⟩]
    [⟨"t", .truth, [("p", .var "x")], [("p", .formula ⟨"10 // (x - 1)"⟩)]⟩] Table.empty

def interrupted : StateGraph := after build (ofNet dividing ⟨none, false⟩)

theorem failed_build_dividing : dividing.Built ∧
    build (ofNet dividing ⟨none, false⟩) = .error (.eval .divisionByZero) interrupted ∧
    interrupted.done.keys = [0, 1] ∧ interrupted.todo = [2] ∧ interrupted.edgeCount = 2 ∧
    build interrupted = .error (.eval .divisionByZero) interrupted := by
  have hbuilt : dividing.Built := .described (d := .ofNet dividing) rfl
  have hfails : failure build (ofNet dividing ⟨none, false⟩) = some (.eval .divisionByZero) := by
    decide +kernel
  obtain ⟨s, rest, m, g₀, -, -, -, -, -, -, -, hagain⟩ :=
    failed_build hbuilt (error_of_failure hfails)
  exact ⟨hbuilt, error_of_failure hfails, by decide +kernel, by decide +kernel,
    by decide +kernel, hagain⟩

end StateGraph

end ColouredPetri
