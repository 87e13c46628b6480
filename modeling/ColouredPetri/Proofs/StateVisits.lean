import ColouredPetri.Proofs.GraphCollections
import ColouredPetri.Proofs.GraphPosition
import ColouredPetri.Proofs.StateGraph.Steady

namespace ColouredPetri

namespace StateGraph

variable {net : Net} {config : ExploreConfig} {g g' : StateGraph} {m : Marking} {s : Nat}
variable {rest : List Nat} {u : Unit}

lemma reached_of_succeeds (hr : Relation.ReflTransGen Succeeds (ofNet net config) g) :
    Reached net config g := by
  induction hr with
  | refl => exact .start
  | tail _ hstep ih =>
    obtain ⟨op, hs⟩ := hstep
    exact after_of_ok hs ▸ .next op ih

lemma states_eq {l : List (Nat × Marking)} (hkeys : l.map Prod.fst = g.nodes)
    (hl : ∀ e ∈ l, g.marking? e.1 = some e.2) : g.states = l := by
  have hirrefl : Std.Irrefl fun d e : Nat × Marking => d.1 < e.1 := ⟨fun e => Nat.lt_irrefl e.1⟩
  have hstates := List.pairwise_map.1 g.nodes_ascending
  have hpairs : l.Pairwise fun d e => d.1 < e.1 :=
    List.pairwise_map.1 (hkeys ▸ g.nodes_ascending)
  refine hstates.eq_of_mem_iff hpairs fun e => ?_
  rw [mem_states]
  constructor
  · intro he
    have hmem : e.1 ∈ l.map Prod.fst := hkeys ▸ mem_nodes.2 ⟨e.2, he⟩
    obtain ⟨d, hd, hde⟩ := List.mem_map.1 hmem
    have hsame : d.2 = e.2 := Option.some.inj ((hl d hd).symm.trans (hde ▸ he))
    exact Prod.ext hde hsame ▸ hd
  · exact hl e

section Visits

variable {ν : Type} {visitor : Nat → Net → EStateM Error ν Unit} {v v' : StateGraph × ν}

def callEach (net : Net) (visitor : Nat → Net → EStateM Error ν Unit)
    (l : List (Nat × Marking)) : EStateM Error ν Unit :=
  l.forM fun e => visitor e.1 (net.restore e.2)

lemma callEach_cons_eq_ok {e : Nat × Marking} {l : List (Nat × Marking)} {n n' : ν} :
    callEach net visitor (e :: l) n = .ok u n' ↔ ∃ n₁,
      visitor e.1 (net.restore e.2) n = .ok () n₁ ∧ callEach net visitor l n₁ = .ok u n' :=
  forM_cons_eq_ok

lemma callEach_append {l l' : List (Nat × Marking)} {n n₁ n₂ : ν}
    (hl : callEach net visitor l n = .ok () n₁) (hl' : callEach net visitor l' n₁ = .ok () n₂) :
    callEach net visitor (l ++ l') n = .ok () n₂ := by
  induction l generalizing n with
  | nil =>
    cases hl
    exact hl'
  | cons e l ih =>
    obtain ⟨n', hone, hrest⟩ := callEach_cons_eq_ok.1 hl
    exact callEach_cons_eq_ok.2 ⟨n', hone, ih hrest⟩

namespace Steady

lemma visitState (h : net.WellFormed) (hp : Steady net config v.1) (hs : v.1.Live s)
    (hv : visitState visitor s v = .ok u v') : ∃ m, v.1.marking? s = some m ∧
      visitor s (net.restore m) v.2 = .ok () v'.2 ∧ Steady net config v'.1 ∧
      v'.1 = { v.1 with current := s, net := net.restore m } := by
  obtain ⟨hgoto, hnote⟩ := visitState_eq_ok.1 hv
  obtain ⟨m, hm, ha, hg⟩ := (hp.goto_eq_ok_iff h hs).1 hgoto
  rw [hg] at hnote
  exact ⟨m, hm, hnote, hg ▸ hp.moved hm ha, hg⟩

lemma visitStates (h : net.WellFormed) {l : List Nat} (hp : Steady net config v.1)
    (hl : ∀ s ∈ l, v.1.Live s) (hv : l.forM (StateGraph.visitState visitor) v = .ok u v') :
    Steady net config v'.1 ∧ Moved v.1 v'.1 ∧ ∃ es : List (Nat × Marking), es.map Prod.fst = l ∧
      (∀ e ∈ es, v.1.marking? e.1 = some e.2) ∧ callEach net visitor es v.2 = .ok () v'.2 := by
  induction l generalizing v with
  | nil =>
    cases hv
    exact ⟨hp, .refl _, [], rfl, nofun, rfl⟩
  | cons s l ih =>
    obtain ⟨hs, hl⟩ := List.forall_mem_cons.1 hl
    obtain ⟨v₁, hone, hrest⟩ := forM_cons_eq_ok.1 hv
    obtain ⟨m, hm, hnote, hp₁, hg⟩ := hp.visitState h hs hone
    have hmoved : Moved v.1 v₁.1 := ⟨_, _, hg⟩
    obtain ⟨hp', hmoved', es, hkeys, hes, hcalls⟩ := ih hp₁ (hg ▸ hl) hrest
    rw [hg] at hes
    refine ⟨hp', hmoved.trans hmoved', (s, m) :: es, congrArg (s :: ·) hkeys, ?_,
      callEach_cons_eq_ok.2 ⟨v₁.2, hnote, hcalls⟩⟩
    exact List.forall_mem_cons.2 ⟨hm, hes⟩

lemma visitQueue (h : net.WellFormed) {fuel : Nat} (hp : Steady net config v.1)
    (hv : visitQueue visitor fuel v = .ok u v') :
    Steady net config v'.1 ∧ v'.1.todo = [] ∧
      (∀ t m, v.1.marking? t = some m → v'.1.marking? t = some m) ∧
      ∃ es : List (Nat × Marking), v'.1.done.keys = v.1.done.keys ++ es.map Prod.fst ∧
        (∀ e ∈ es, v'.1.marking? e.1 = some e.2) ∧ callEach net visitor es v.2 = .ok () v'.2 := by
  induction fuel generalizing v with
  | zero => cases hv
  | succ fuel ih =>
    cases hq : v.1.todo with
    | nil =>
      rw [visitQueue_of_nil hq] at hv
      cases hv
      exact ⟨hp, hq, fun _ _ hm => hm, [], (List.append_nil _).symm, nofun, rfl⟩
    | cons s rest =>
      obtain ⟨g, v₁, hone, hvisit, hrest⟩ := (visitQueue_of_cons hq).1 hv
      obtain ⟨hpg, honward, hdone, -⟩ := hp.compute h hq hone
      obtain ⟨k, hk⟩ := hp.consistent.head_live hq
      obtain ⟨m, hm, hnote, hp₁, hg⟩ :=
        hpg.visitState h (s := s) ⟨k, honward.marking? s k hk⟩ hvisit
      obtain ⟨hp', hnil, hkept, es, hkeys, hes, hcalls⟩ := ih hp₁ hrest
      have hold : ∀ t n, g.marking? t = some n → v'.1.marking? t = some n := fun t n hn =>
        hkept t n (by rw [hg]; exact hn)
      have hlast : (KeySet.add v.1.done s).keys = v.1.done.keys ++ [s] :=
        KeySet.keys_add_above fun d hd =>
          hp.consistent.scheduled.below d hd s (by rw [hq]; exact List.mem_cons_self)
      refine ⟨hp', hnil, fun t n hn => hold t n (honward.marking? t n hn), (s, m) :: es, ?_,
        List.forall_mem_cons.2 ⟨hold s m hm, hes⟩,
        callEach_cons_eq_ok.2 ⟨v₁.2, hnote, hcalls⟩⟩
      rw [hkeys, hg]
      change g.done.keys ++ _ = _
      rw [hdone, hlast, List.append_assoc, List.map_cons, List.singleton_append]

lemma visit (h : net.WellFormed) (hp : Steady net config v.1)
    (hv : visit visitor v = .ok u v') : Steady net config v'.1 ∧ v'.1.todo = [] ∧
      v'.1.current = v.1.current ∧ v'.1.net = v.1.net ∧
      callEach net visitor v'.1.states v.2 = .ok () v'.2 := by
  obtain ⟨current, v₁, v₂, hcurrent, hdone, hqueue, hgoto, hnotes⟩ := visit_eq_ok.1 hv
  cases hp.currentState.symm.trans hcurrent
  have hlive : ∀ s ∈ v.1.done.keys, v.1.Live s := fun s hs =>
    (hp.consistent.scheduled.live_iff s).2 (.inl hs)
  obtain ⟨hp₁, hmoved, es₁, hkeys₁, hes₁, hcalls₁⟩ := hp.visitStates h hlive hdone
  obtain ⟨hp₂, hnil, hkept, es₂, hkeys₂, hes₂, hcalls₂⟩ := hp₁.visitQueue h hqueue
  have hold : ∀ t m, v.1.marking? t = some m → v₂.1.marking? t = some m := fun t m hm =>
    hkept t m ((hmoved.marking? t).trans hm)
  -- the state from before the visit still has its marking
  obtain ⟨m, hm, ha, hnet⟩ := hp.settled
  have hm₂ := hold _ m hm
  obtain ⟨m', hm', -, hback⟩ := (hp₂.goto_eq_ok_iff h ⟨m, hm₂⟩).1 hgoto
  cases hm₂.symm.trans hm'
  have hnodes : (es₁ ++ es₂).map Prod.fst = v₂.1.nodes := by
    rw [hp₂.consistent.scheduled.nodes_eq, hnil, List.append_nil, hkeys₂, hmoved.done,
      List.map_append, hkeys₁]
  have hall : ∀ e ∈ es₁ ++ es₂, v₂.1.marking? e.1 = some e.2 := fun e he =>
    (List.mem_append.1 he).elim (fun he => hold _ _ (hes₁ e he)) (hes₂ e)
  have hstates : v₂.1.states = es₁ ++ es₂ := states_eq hnodes hall
  rw [hback, hnotes]
  refine ⟨hp₂.moved hm₂ ha, hnil, rfl, hnet.symm, ?_⟩
  change callEach net visitor v₂.1.states v.2 = _
  rw [hstates]
  exact callEach_append hcalls₁ hcalls₂

end Steady

/-- A visit that succeeds calls the visitor once at each state there is at the end, in the order of
the numbers and with the net at the marking of the state, and puts the net back. -/
theorem visit_each (h : net.Built) (hr : Relation.ReflTransGen Succeeds (ofNet net config) g)
    {notes notes' : ν} (hv : visit visitor (g, notes) = .ok () (g', notes')) :
    callEach net visitor g'.states notes = .ok () notes' ∧
      (g'.states.map Prod.fst).Pairwise (· < ·) ∧
      (∀ s m, (s, m) ∈ g'.states ↔ g'.marking? s = some m) ∧
      (∀ e ∈ g'.states, (net.restore e.2).marking = e.2) ∧
      g'.isCompleted = true ∧ g'.currentState = g.currentState ∧ g'.net = g.net := by
  have hw := h.wellFormed
  have hp : Steady net config g := .of_succeeds hw hr (placed_ofNet hw config).steady
  obtain ⟨hp', hnil, hcurrent, hnet, hcalls⟩ := hp.visit hw hv
  have hvisit : Succeeds g g' := ⟨.visit visitor notes, visitWith_eq_ok.2 ⟨notes', hv⟩⟩
  obtain ⟨-, hstanding⟩ := (reached_of_succeeds (hr.tail hvisit)).standing h
  refine ⟨hcalls, g'.nodes_ascending, fun s m => mem_states, fun e he => ?_,
    List.isEmpty_iff.2 hnil, ?_, hnet⟩
  · exact Net.marking_restore hw (hstanding.admits e.1 e.2 (mem_states.1 he)).1
  · rw [hp'.currentState, hp.currentState]
    exact congrArg Except.ok hcurrent

def logging (s : Nat) (net : Net) : EStateM Error (List (Nat × Marking)) Unit :=
  modify fun log => log ++ [(s, net.marking)]

lemma callEach_logging {l log log' : List (Nat × Marking)}
    (hl : ∀ e ∈ l, (net.restore e.2).marking = e.2)
    (hcalls : callEach net logging l log = .ok () log') : log' = log ++ l := by
  induction l generalizing log with
  | nil =>
    cases hcalls
    exact (List.append_nil _).symm
  | cons e l ih =>
    obtain ⟨he, hl⟩ := List.forall_mem_cons.1 hl
    obtain ⟨log₁, hone, hrest⟩ := callEach_cons_eq_ok.1 hcalls
    cases hone
    rw [ih hl hrest, he, List.append_assoc, List.singleton_append]

def begun : StateGraph :=
  after (Operation.explore 1).run (ofNet returning ⟨none, false⟩)

theorem visit_each_begun : Relation.ReflTransGen Succeeds (ofNet returning ⟨none, false⟩) begun ∧
    begun.todo = [1] ∧ ∃ g log, visit logging (begun, []) = .ok () (g, log) ∧
      log = g.states ∧ log.map Prod.fst = [0, 1] ∧ g.isCompleted = true ∧
      g.net.marking = returning.marking := by
  have hbuilt : returning.Built := .described (d := .ofNet returning) rfl
  have hr : Relation.ReflTransGen Succeeds (ofNet returning ⟨none, false⟩) begun :=
    .single ⟨.explore 1, rfl⟩
  obtain ⟨g, log, hv⟩ : ∃ g log, visit logging (begun, []) = .ok () (g, log) := ⟨_, _, rfl⟩
  obtain ⟨hcalls, -, -, hmarkings, hend, -, hnet⟩ := visit_each hbuilt hr hv
  have hlog : log = g.states := callEach_logging hmarkings hcalls
  refine ⟨hr, rfl, g, log, hv, hlog, ?_, hend, ?_⟩
  · cases hv
    rfl
  · rw [hnet]
    rfl

end Visits

end StateGraph

end ColouredPetri
