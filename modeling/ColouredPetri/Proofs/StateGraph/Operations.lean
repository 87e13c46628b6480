import ColouredPetri.Proofs.Outcomes
import ColouredPetri.StateGraph.Explore

/-! The operations of a state graph and the graphs that they lead to. Each of them moves the net,
processes the head of the queue and removes states, so that a property that these three keep holds
of every graph. -/

namespace ColouredPetri

namespace StateGraph

inductive Operation : Type 1 where
  | goto (s : Nat)
  | explore (limit : Nat)
  | build
  | buildUntil (stop : Nat)
  | successors (s : Nat)
  | predecessors (s : Nat)
  | visit {ν : Type} (visitor : Nat → Net → EStateM Error ν Unit) (notes : ν)
  | remove (s : Nat)

def visitWith {ν : Type} (visitor : Nat → Net → EStateM Error ν Unit) (notes : ν) :
    Explore Unit := fun g =>
  match visit visitor (g, notes) with
  | .ok _ (g, _) => .ok () g
  | .error e (g, _) => .error e g

def Operation.run : Operation → Explore Unit
  | .goto s => StateGraph.goto s
  | .explore limit => do let _ ← StateGraph.explore limit
  | .build => StateGraph.build
  | .buildUntil stop => StateGraph.buildUntil stop
  | .successors s => do let _ ← StateGraph.successors s
  | .predecessors s => do let _ ← look fun g => g.predecessors s
  | .visit visitor notes => visitWith visitor notes
  | .remove s => do let _ ← StateGraph.remove s

inductive Reached (net : Net) (config : ExploreConfig) : StateGraph → Prop
  | start : Reached net config (ofNet net config)
  | next (op : Operation) {g : StateGraph} :
      Reached net config g → Reached net config (after op.run g)

structure Kept (P : StateGraph → Prop) : Prop where
  goto : ∀ s, Keeps P (goto s)
  compute : ∀ {g s rest}, g.todo = s :: rest → P g → P (after (compute s) { g with todo := rest })
  remove : ∀ s, Keeps P (remove s)

section Visits

variable {ν α : Type} {P : StateGraph → Prop}

abbrev OnGraph (P : StateGraph → Prop) (v : StateGraph × ν) : Prop := P v.1

lemma keeps_get {ε σ : Type} {Q : σ → Prop} : Keeps Q (get : EStateM ε σ σ) := fun _ hs => hs

lemma after_onGraph (act : Explore α) (v : StateGraph × ν) :
    after (onGraph act) v = (after act v.1, v.2) := by
  obtain ⟨g, n⟩ := v
  simp only [after, onGraph]
  cases act g <;> rfl

lemma keeps_onGraph {act : Explore α} (h : Keeps P act) :
    Keeps (OnGraph (ν := ν) P) (onGraph act) := by
  intro v hv
  rw [after_onGraph]
  exact h v.1 hv

lemma keeps_onNotes (act : EStateM Error ν α) : Keeps (OnGraph P) (onNotes act) := by
  rintro ⟨g, n⟩ hv
  simp only [after, onNotes]
  cases act n <;> exact hv

end Visits

namespace Kept

variable {P : StateGraph → Prop} {ν : Type}

lemma processWhile (h : Kept P) (go : Nat → Bool) (fuel : Nat) :
    Keeps P (processWhile go fuel) := by
  induction fuel with
  | zero => exact keeps_throw _
  | succ fuel ih =>
    intro g hg
    refine after_bind (keeps_get g hg) fun g' t hget => ?_
    cases hget
    cases hq : g.todo with
    | nil => exact hg
    | cons s rest =>
      simp only
      split
      · -- taking the state off the queue and processing it is one step
        exact after_bind_of_keeps (x := StateGraph.compute s) (h.compute hq hg) fun _ => ih
      · exact hg

lemma explore (h : Kept P) (limit : Nat) : Keeps P (explore limit) := by
  induction limit with
  | zero => exact keeps_pure _
  | succ limit ih =>
    intro g hg
    refine after_bind (keeps_get g hg) fun g' t hget => ?_
    cases hget
    cases hq : g.todo with
    | nil => exact hg
    | cons s rest =>
      exact after_bind_of_keeps (x := StateGraph.compute s) (h.compute hq hg) fun _ =>
        keeps_bind ih fun _ => keeps_pure _

lemma successors (h : Kept P) (s : Nat) : Keeps P (successors s) :=
  keeps_bind (keeps_look _) fun _ => keeps_bind (keeps_look _) fun _ =>
    keeps_bind (h.processWhile _ _) fun _ => keeps_bind (h.goto _) fun _ =>
      keeps_bind keeps_get fun _ => keeps_pure _

variable {visitor : Nat → Net → EStateM Error ν Unit}

lemma visitState (h : Kept P) (s : Nat) : Keeps (OnGraph P) (visitState visitor s) :=
  keeps_bind (keeps_onGraph (h.goto s)) fun _ => keeps_bind keeps_get fun _ => keeps_onNotes _

lemma visitQueue (h : Kept P) (fuel : Nat) : Keeps (OnGraph P) (visitQueue visitor fuel) := by
  induction fuel with
  | zero => exact keeps_throw _
  | succ fuel ih =>
    rintro ⟨g, n⟩ hg
    refine after_bind (keeps_get _ hg) fun v t hget => ?_
    cases hget
    cases hq : g.todo with
    | nil =>
      simp only [hq]
      exact hg
    | cons s rest =>
      simp only [hq]
      have hone :
          OnGraph P (after (onGraph (StateGraph.compute s)) ({ g with todo := rest }, n)) := by
        rw [after_onGraph]
        exact h.compute hq hg
      exact after_bind_of_keeps (x := onGraph (StateGraph.compute s)) hone fun _ =>
        keeps_bind (h.visitState s) fun _ => ih

lemma visit (h : Kept P) : Keeps (OnGraph P) (visit visitor) :=
  keeps_bind (keeps_onGraph (keeps_look _)) fun _ => keeps_bind keeps_get fun _ =>
    keeps_bind (keeps_forM fun s _ => h.visitState s) fun _ =>
      keeps_bind (h.visitQueue _) fun _ => keeps_onGraph (h.goto _)

lemma visitWith (h : Kept P) (notes : ν) : Keeps P (visitWith visitor notes) := by
  intro g hg
  have : OnGraph P (after (StateGraph.visit visitor) (g, notes)) := h.visit (g, notes) hg
  simp only [after, StateGraph.visitWith] at this ⊢
  cases hv : StateGraph.visit visitor (g, notes) <;> rw [hv] at this <;> exact this

lemma run (h : Kept P) : ∀ op : Operation, Keeps P op.run
  | .goto s => h.goto s
  | .explore limit => keeps_bind (h.explore limit) fun _ => keeps_pure _
  | .build => h.processWhile _ _
  | .buildUntil _ => h.processWhile _ _
  | .successors s => keeps_bind (h.successors s) fun _ => keeps_pure _
  | .predecessors _ => keeps_bind (keeps_look _) fun _ => keeps_pure _
  | .visit _ notes => h.visitWith notes
  | .remove s => keeps_bind (h.remove s) fun _ => keeps_pure _

lemma reached (h : Kept P) {net : Net} {config : ExploreConfig} {g : StateGraph}
    (h₀ : P (ofNet net config)) (hr : Reached net config g) : P g := by
  induction hr with
  | start => exact h₀
  | next op _ ih => exact h.run op _ ih

end Kept

def Moved (g g' : StateGraph) : Prop :=
  ∃ net current, g' = { g with net := net, current := current }

variable {g g' : StateGraph} {s : Nat}

lemma Moved.refl (g : StateGraph) : Moved g g := ⟨g.net, g.current, rfl⟩

lemma Moved.symm (h : Moved g g') : Moved g' g := by
  obtain ⟨_, _, rfl⟩ := h
  exact ⟨g.net, g.current, rfl⟩

lemma Moved.trans {g₁ g₂ g₃ : StateGraph} (h₁ : Moved g₁ g₂) (h₂ : Moved g₂ g₃) :
    Moved g₁ g₃ := by
  obtain ⟨_, _, rfl⟩ := h₁
  obtain ⟨net, current, rfl⟩ := h₂
  exact ⟨net, current, rfl⟩

lemma Moved.marking? (h : Moved g g') (t : Nat) : g'.marking? t = g.marking? t := by
  obtain ⟨_, _, rfl⟩ := h
  rfl

lemma Moved.done (h : Moved g g') : g'.done = g.done := by
  obtain ⟨_, _, rfl⟩ := h
  rfl

lemma Moved.setCurrent (h : Moved g g') (s : Nat) : Moved g { g' with current := s } := by
  obtain ⟨net, _, rfl⟩ := h
  exact ⟨net, s, rfl⟩

lemma keeps_editNet {α : Type} (edit : Edit α) : Keeps (Moved g) (editNet edit) := by
  rintro _ ⟨net, current, rfl⟩
  simp only [after, editNet]
  cases edit net with
  | ok a net' => exact ⟨net', current, rfl⟩
  | error e net' => exact ⟨net', current, rfl⟩

lemma moved_goto (s : Nat) : Keeps (Moved g) (goto s) := by
  refine keeps_bind (keeps_look _) fun s => keeps_bind (keeps_look _) fun m =>
    keeps_bind keeps_get fun g' => ?_
  split
  · exact keeps_bind (fun _ h => h.setCurrent s) fun _ => keeps_editNet _
  · exact keeps_pure _

lemma moved_firings (s : Nat) : Keeps (Moved g) (firings s) :=
  keeps_bind (moved_goto s) fun _ => keeps_look _

lemma after_compute {rest : List Nat} (hq : g.todo = s :: rest) :
    Moved g (after (compute s) { g with todo := rest }) ∨
      ∃ found g', Moved { g with todo := rest } g' ∧
        after (compute s) { g with todo := rest } = recordAll s found g' := by
  have hm := moved_firings s _ (Moved.refl { g with todo := rest })
  rw [after, compute]
  cases hf : firings s { g with todo := rest } with
  | ok found g' =>
    rw [after_of_ok hf] at hm
    exact .inr ⟨found, g', hm, rfl⟩
  | error e g' =>
    rw [after_of_error hf] at hm
    obtain ⟨net, current, rfl⟩ := hm
    refine .inl ⟨net, current, ?_⟩
    change { g with todo := s :: rest, net := net, current := current } = _
    rw [← hq]

lemma remove_of_known {m : Marking} (hk : g.known s = .ok m) : remove s g =
    (if g.current = s then goto s >>= fun _ => pure m else pure m : Explore Marking)
      (g.forget s m) :=
  bind_of_ok _ (look_eq_ok_iff.2 ⟨hk, rfl⟩)

lemma after_remove_of_known {m : Marking} (hk : g.known s = .ok m) : after (remove s) g =
    if g.current = s then after (goto s) (g.forget s m) else g.forget s m := by
  rw [after, remove_of_known hk]
  by_cases hc : g.current = s
  · rw [if_pos hc, if_pos hc, after]
    cases hg : goto s (g.forget s m) with
    | ok u g' =>
      rw [bind_of_ok _ hg]
      rfl
    | error e g' => rw [bind_of_error _ hg]
  · rw [if_neg hc, if_neg hc]
    rfl

lemma remove_of_unknown {e : Error} (hk : g.known s = .error e) : remove s g = .error e g :=
  bind_of_error _ (look_eq_error_iff.2 ⟨hk, rfl⟩)

lemma after_remove (s : Nat) (g : StateGraph) : after (remove s) g = g ∨
    ∃ m, g.known s = .ok m ∧ after (remove s) g =
      if g.current = s then after (goto s) (g.forget s m) else g.forget s m := by
  cases hk : g.known s with
  | error e => exact .inl (after_of_error (remove_of_unknown hk))
  | ok m => exact .inr ⟨m, rfl, after_remove_of_known hk⟩

end StateGraph

end ColouredPetri
