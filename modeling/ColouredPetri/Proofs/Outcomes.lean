import ColouredPetri.Stateful
import Mathlib.Tactic.Common

/-! How programs that can fail come to their results, and what they keep on the way. An action
keeps a property of the state if the state that it leaves has it, after success and after failure. -/

namespace ColouredPetri

variable {ε σ α β : Type}

lemma except_bind_eq_ok {x : Except ε α} {f : α → Except ε β} {b : β} :
    x >>= f = .ok b ↔ ∃ a, x = .ok a ∧ f a = .ok b := by
  cases x with
  | error e => exact ⟨fun h => (by cases h), fun ⟨_, h, _⟩ => (by cases h)⟩
  | ok a => exact ⟨fun h => ⟨a, rfl, h⟩, fun ⟨_, h, hf⟩ => by cases h; exact hf⟩

@[simp] lemma except_ok_bind (a : α) (f : α → Except ε β) : (Except.ok a >>= f) = f a := rfl

@[simp] lemma except_pure (a : α) : (pure a : Except ε α) = .ok a := rfl

lemma mapError_eq_ok_iff {δ : Type} {f : ε → δ} {x : Except ε α} {a : α} :
    x.mapError f = .ok a ↔ x = .ok a := by
  cases x <;> simp [Except.mapError]

lemma mem_of_mapM_ok {f : α → Except ε β} {l : List α} {r : List β} (h : l.mapM f = .ok r) :
    (∀ b ∈ r, ∃ a ∈ l, f a = .ok b) ∧ ∀ a ∈ l, ∃ b ∈ r, f a = .ok b := by
  induction l generalizing r with
  | nil =>
    cases h
    exact ⟨nofun, nofun⟩
  | cons a l ih =>
    rw [List.mapM_cons, except_bind_eq_ok] at h
    obtain ⟨b, hb, h⟩ := h
    obtain ⟨rest, hrest, h⟩ := except_bind_eq_ok.1 h
    cases h
    obtain ⟨hfrom, hto⟩ := ih hrest
    refine ⟨List.forall_mem_cons.2 ⟨⟨a, List.mem_cons_self, hb⟩, fun c hc => ?_⟩,
      List.forall_mem_cons.2 ⟨⟨b, List.mem_cons_self, hb⟩, fun d hd => ?_⟩⟩
    · obtain ⟨d, hd, h⟩ := hfrom c hc
      exact ⟨d, List.mem_cons_of_mem _ hd, h⟩
    · obtain ⟨c, hc, h⟩ := hto d hd
      exact ⟨c, List.mem_cons_of_mem _ hc, h⟩

lemma ne_nil_of_mapM_ok {f : α → Except ε β} {l : List α} {r : List β} (h : l.mapM f = .ok r)
    (hl : l ≠ []) : r ≠ [] := by
  obtain ⟨a, ha⟩ := List.exists_mem_of_ne_nil l hl
  obtain ⟨b, hb, -⟩ := (mem_of_mapM_ok h).2 a ha
  exact List.ne_nil_of_mem hb

lemma lift_eval (x : Except EvalError α) : (liftM x : Except Error α) = x.mapError .eval := rfl

lemma lift_structural (x : Except StructuralError α) :
    (liftM x : Except Error α) = x.mapError .structural := rfl

lemma lift_token (x : Except TokenError α) : (liftM x : Except Error α) = x.mapError .token := rfl

lemma bind_eq_ok {x : EStateM ε σ α} {f : α → EStateM ε σ β} {s s' : σ} {b : β} :
    (x >>= f) s = .ok b s' ↔ ∃ a t, x s = .ok a t ∧ f a t = .ok b s' := by
  change (match x s with | .ok a t => f a t | .error e t => .error e t) = _ ↔ _
  cases hx : x s with
  | ok a t => exact ⟨fun h => ⟨a, t, rfl, h⟩, fun ⟨_, _, h, hf⟩ => by cases h; exact hf⟩
  | error e t => exact ⟨fun h => (by cases h), fun ⟨_, _, h, _⟩ => by cases h⟩

lemma bind_eq_error {x : EStateM ε σ α} {f : α → EStateM ε σ β} {s s' : σ} {e : ε} :
    (x >>= f) s = .error e s' ↔
      x s = .error e s' ∨ ∃ a t, x s = .ok a t ∧ f a t = .error e s' := by
  change (match x s with | .ok a t => f a t | .error e t => .error e t) = _ ↔ _
  cases hx : x s with
  | ok a t =>
    refine ⟨fun h => .inr ⟨a, t, rfl, h⟩, ?_⟩
    rintro (h | ⟨_, _, h, hf⟩)
    · cases h
    · cases h
      exact hf
  | error d t =>
    refine ⟨fun h => .inl (by cases h; rfl), ?_⟩
    rintro (h | ⟨_, _, h, _⟩)
    · cases h
      rfl
    · cases h

lemma forM_cons_eq_ok {f : α → EStateM ε σ PUnit} {a : α} {l : List α} {s s' : σ} {u : PUnit} :
    (a :: l).forM f s = .ok u s' ↔ ∃ t, f a s = .ok () t ∧ l.forM f t = .ok u s' := by
  refine (bind_eq_ok (x := f a) (f := fun _ => l.forM f)).trans ?_
  exact ⟨fun ⟨_, t, h⟩ => ⟨t, h⟩, fun ⟨t, h⟩ => ⟨(), t, h⟩⟩

lemma forM_cons_eq_error {f : α → EStateM ε σ PUnit} {a : α} {l : List α} {s s' : σ} {e : ε} :
    (a :: l).forM f s = .error e s' ↔
      f a s = .error e s' ∨ ∃ t, f a s = .ok () t ∧ l.forM f t = .error e s' := by
  refine (bind_eq_error (x := f a) (f := fun _ => l.forM f)).trans (or_congr_right ?_)
  exact ⟨fun ⟨_, t, h⟩ => ⟨t, h⟩, fun ⟨t, h⟩ => ⟨(), t, h⟩⟩

lemma bind_of_ok {x : EStateM ε σ α} (f : α → EStateM ε σ β) {s t : σ} {a : α}
    (h : x s = .ok a t) : (x >>= f) s = f a t := by
  change (match x s with | .ok a t => f a t | .error e t => .error e t) = _
  rw [h]

lemma bind_of_error {x : EStateM ε σ α} (f : α → EStateM ε σ β) {s t : σ} {e : ε}
    (h : x s = .error e t) : (x >>= f) s = .error e t := by
  change (match x s with | .ok a t => f a t | .error e t => .error e t) = _
  rw [h]

def after (act : EStateM ε σ α) (s : σ) : σ :=
  match act s with
  | .ok _ s' => s'
  | .error _ s' => s'

lemma after_of_ok {act : EStateM ε σ α} {s s' : σ} {a : α} (h : act s = .ok a s') :
    after act s = s' := by
  rw [after, h]

lemma after_of_error {act : EStateM ε σ α} {s s' : σ} {e : ε} (h : act s = .error e s') :
    after act s = s' := by
  rw [after, h]

def mapState {τ : Type} (f : σ → τ) : EStateM.Result ε σ α → EStateM.Result ε τ α
  | .ok a s => .ok a (f s)
  | .error e s => .error e (f s)

lemma after_of_mapState {τ : Type} {f : σ → τ} {act : EStateM ε σ α} {image : EStateM ε τ α} {s : σ}
    (h : image (f s) = mapState f (act s)) : after image (f s) = f (after act s) := by
  rw [after, h, after]
  cases act s <;> rfl

def failure (act : EStateM ε σ α) (s : σ) : Option ε :=
  match act s with
  | .ok _ _ => none
  | .error e _ => some e

lemma error_of_failure {act : EStateM ε σ α} {s : σ} {e : ε} (h : failure act s = some e) :
    act s = .error e (after act s) := by
  rw [failure] at h
  rw [after]
  split at h
  · cases h
  · next hr =>
    cases h
    rw [hr]

def Keeps (P : σ → Prop) (act : EStateM ε σ α) : Prop := ∀ s, P s → P (after act s)

variable {P : σ → Prop}

lemma Keeps.of_ok {act : EStateM ε σ α} (hk : Keeps P act) {s s' : σ} {a : α} (hs : P s)
    (hr : act s = .ok a s') : P s' :=
  after_of_ok hr ▸ hk s hs

lemma keeps_pure (a : α) : Keeps P (pure a : EStateM ε σ α) := fun _ hs => hs

lemma keeps_throw (e : ε) : Keeps P (throw e : EStateM ε σ α) := fun _ hs => hs

lemma after_bind {x : EStateM ε σ α} {f : α → EStateM ε σ β} {s : σ} (hx : P (after x s))
    (hf : ∀ a t, x s = .ok a t → P (after (f a) t)) : P (after (x >>= f) s) := by
  cases hr : x s with
  | ok a t =>
    have : after (x >>= f) s = after (f a) t := by rw [after, after, bind_of_ok f hr]
    exact this ▸ hf a t hr
  | error e t =>
    rw [after_of_error hr] at hx
    rwa [after_of_error (bind_of_error f hr)]

lemma after_bind_of_keeps {x : EStateM ε σ α} {f : α → EStateM ε σ β} {s : σ}
    (hx : P (after x s)) (hf : ∀ a, Keeps P (f a)) : P (after (x >>= f) s) :=
  after_bind hx fun a t hr => hf a t (after_of_ok hr ▸ hx)

lemma keeps_bind {x : EStateM ε σ α} {f : α → EStateM ε σ β} (hx : Keeps P x)
    (hf : ∀ a, Keeps P (f a)) : Keeps P (x >>= f) :=
  fun s hs => after_bind_of_keeps (hx s hs) hf

lemma keeps_forM {l : List α} {f : α → EStateM ε σ PUnit} (hf : ∀ a ∈ l, Keeps P (f a)) :
    Keeps P (l.forM f) := by
  induction l with
  | nil => exact keeps_pure _
  | cons a l ih =>
    exact keeps_bind (hf a List.mem_cons_self) fun _ =>
      ih fun b hb => hf b (List.mem_cons_of_mem _ hb)

lemma keeps_look (f : σ → Except Error α) : Keeps P (look f) := by
  intro s hs
  cases h : f s <;> simpa only [after, look, h] using hs

lemma look_eq_ok_iff {f : σ → Except Error α} {s s' : σ} {a : α} :
    look f s = .ok a s' ↔ f s = .ok a ∧ s' = s := by
  rw [look]
  cases f s with
  | ok b => exact ⟨fun h => by cases h; exact ⟨rfl, rfl⟩, fun ⟨h, hs⟩ => by cases h; cases hs; rfl⟩
  | error e => exact ⟨fun h => (by cases h), fun ⟨h, _⟩ => by cases h⟩

lemma look_eq_error_iff {f : σ → Except Error α} {s s' : σ} {e : Error} :
    look f s = .error e s' ↔ f s = .error e ∧ s' = s := by
  rw [look]
  cases f s with
  | ok b => exact ⟨fun h => (by cases h), fun ⟨h, _⟩ => by cases h⟩
  | error d => exact ⟨fun h => by cases h; exact ⟨rfl, rfl⟩, fun ⟨h, hs⟩ => by cases h; cases hs; rfl⟩

lemma keeps_look_bind {f : σ → Except Error α} {g : α → EStateM Error σ β}
    (hg : ∀ s a, P s → f s = .ok a → Keeps P (g a)) : Keeps P (look f >>= g) := by
  intro s hs
  refine after_bind (keeps_look f s hs) fun a t hr => ?_
  obtain ⟨ha, rfl⟩ := look_eq_ok_iff.1 hr
  exact hg _ a hs ha _ hs

def step (f : σ → Except Error (α × σ)) : EStateM Error σ α := fun s =>
  match f s with
  | .ok (a, s') => .ok a s'
  | .error e => .error e s

lemma step_eq_ok_iff {f : σ → Except Error (α × σ)} {s s' : σ} {a : α} :
    step f s = .ok a s' ↔ f s = .ok (a, s') := by
  rw [step]
  cases f s with
  | ok r => exact ⟨fun h => by cases h; rfl, fun h => by cases h; rfl⟩
  | error e => exact ⟨fun h => (by cases h), fun h => by cases h⟩

lemma step_eq_error_iff {f : σ → Except Error (α × σ)} {s s' : σ} {e : Error} :
    step f s = .error e s' ↔ f s = .error e ∧ s' = s := by
  rw [step]
  cases f s with
  | ok r => exact ⟨fun h => (by cases h), fun ⟨h, _⟩ => by cases h⟩
  | error d => exact ⟨fun h => by cases h; exact ⟨rfl, rfl⟩, fun ⟨h, hs⟩ => by cases h; cases hs; rfl⟩

lemma look_bind_step (f : σ → Except Error α) (g : α → σ → Except Error (β × σ)) :
    (look f >>= fun a => step (g a)) = step fun s => f s >>= fun a => g a s := by
  funext s
  cases h : f s with
  | error e =>
    rw [bind_of_error _ (look_eq_error_iff.2 ⟨h, rfl⟩), step, h]
    rfl
  | ok a => rw [bind_of_ok _ (look_eq_ok_iff.2 ⟨h, rfl⟩), step, step, h, except_ok_bind]

lemma step_bind_of_ok {f : σ → Except Error (α × σ)} {g : α → EStateM Error σ β} {s : σ}
    (r : α → σ → β × σ) (h : ∀ a t, f s = .ok (a, t) → g a t = .ok (r a t).1 (r a t).2) :
    (step f >>= g) s = step (fun s => (fun a => r a.1 a.2) <$> f s) s := by
  cases hf : f s with
  | error e =>
    rw [bind_of_error _ (step_eq_error_iff.2 ⟨hf, rfl⟩), step, hf]
    rfl
  | ok a =>
    rw [bind_of_ok _ (step_eq_ok_iff.2 hf), h _ _ hf, step, hf]
    rfl

def Atomic (act : EStateM ε σ α) : Prop := ∀ s e s', act s = .error e s' → s' = s

lemma atomic_step (f : σ → Except Error (α × σ)) : Atomic (step f) :=
  fun _ _ _ h => (step_eq_error_iff.1 h).2

lemma keeps_of_atomic {act : EStateM ε σ α} (ha : Atomic act)
    (hok : ∀ s a s', P s → act s = .ok a s' → P s') : Keeps P act := by
  intro s hs
  cases h : act s with
  | ok a s' =>
    rw [after_of_ok h]
    exact hok s a s' hs h
  | error e s' => rwa [after_of_error h, ha s e s' h]

end ColouredPetri
