import ColouredPetri.Proofs.Outcomes

/-! Failures that cannot occur. A program avoids a kind of error if all its steps do; an action
needs for this what it finds in the state, so that its steps have to keep that on the way. -/

namespace ColouredPetri

def Error.isNodeMissing : Error → Bool
  | structural (.nodeNotFound _ _) => true
  | _ => false

def Error.isArcMissing : Error → Bool
  | structural (.notConnected _) => true
  | _ => false

def FailsWith {ε α : Type} (P : ε → Prop) (x : Except ε α) : Prop := ∀ e, x = .error e → P e

section FailsWith

variable {ε α β : Type} {P Q : ε → Prop}

lemma failsWith_ok (a : α) : FailsWith P (.ok a) := fun _ h => by cases h

lemma failsWith_error {e : ε} (he : P e) : FailsWith P (.error e : Except ε α) :=
  fun _ h => by cases h; exact he

lemma FailsWith.mono {x : Except ε α} (hx : FailsWith P x) (hPQ : ∀ e, P e → Q e) :
    FailsWith Q x := fun e h => hPQ e (hx e h)

lemma FailsWith.bind {x : Except ε α} {f : α → Except ε β} (hx : FailsWith P x)
    (hf : ∀ a, x = .ok a → FailsWith P (f a)) : FailsWith P (x >>= f) := by
  intro e h
  cases hr : x with
  | ok a =>
    rw [hr] at h
    exact hf a hr e h
  | error d =>
    rw [hr] at h
    cases h
    exact hx _ hr

lemma FailsWith.bind_pure {x : Except ε α} {f : α → β} (hx : FailsWith P x) :
    FailsWith P (x >>= fun a => pure (f a)) :=
  hx.bind fun a _ => failsWith_ok (f a)

lemma failsWith_mapError {δ : Type} {f : δ → ε} {x : Except δ α}
    (hx : FailsWith (fun d => P (f d)) x) : FailsWith P (x.mapError f) := by
  cases x with
  | ok a => exact failsWith_ok a
  | error d => exact failsWith_error (hx d rfl)

end FailsWith

def Avoids {ε α : Type} (bad : ε → Bool) (x : Except ε α) : Prop :=
  ∀ e, x = .error e → bad e = false

section Avoids

variable {ε α β : Type} {bad : ε → Bool}

lemma avoids_ok (a : α) : Avoids bad (.ok a) := failsWith_ok a

lemma avoids_error {e : ε} (he : bad e = false) : Avoids bad (.error e : Except ε α) :=
  failsWith_error he

lemma Avoids.bind {x : Except ε α} {f : α → Except ε β} (hx : Avoids bad x)
    (hf : ∀ a, x = .ok a → Avoids bad (f a)) : Avoids bad (x >>= f) :=
  FailsWith.bind hx hf

lemma Avoids.bind_pure {x : Except ε α} {f : α → β} (hx : Avoids bad x) :
    Avoids bad (x >>= fun a => pure (f a)) :=
  FailsWith.bind_pure hx

lemma avoids_mapError {δ : Type} {f : δ → ε} {x : Except δ α}
    (hx : Avoids (fun d => bad (f d)) x) : Avoids bad (x.mapError f) :=
  failsWith_mapError hx

lemma avoids_mapM {l : List α} {f : α → Except ε β} (hf : ∀ a ∈ l, Avoids bad (f a)) :
    Avoids bad (l.mapM f) := by
  induction l with
  | nil => exact avoids_ok []
  | cons a l ih =>
    rw [List.mapM_cons]
    refine (hf a List.mem_cons_self).bind fun b _ => Avoids.bind_pure ?_
    exact ih fun c hc => hf c (List.mem_cons_of_mem a hc)

end Avoids

section Spares

variable {σ α β : Type} {P : σ → Prop} {bad : Error → Bool}

structure Spares (bad : Error → Bool) (P : σ → Prop) (act : EStateM Error σ α) : Prop where
  keeps : Keeps P act
  error : ∀ s, P s → ∀ e s', act s = .error e s' → bad e = false

lemma spares_pure (a : α) : Spares bad P (pure a) :=
  ⟨keeps_pure a, fun _ _ _ _ h => by cases h⟩

lemma spares_throw {e : Error} (he : bad e = false) :
    Spares bad P (throw e : EStateM Error σ α) :=
  ⟨keeps_throw e, fun _ _ _ _ h => by cases h; exact he⟩

lemma spares_look {f : σ → Except Error α} (hf : ∀ s, P s → Avoids bad (f s)) :
    Spares bad P (look f) :=
  ⟨keeps_look f, fun s hs e _ h => hf s hs e (look_eq_error_iff.1 h).1⟩

lemma spares_step {f : σ → Except Error (α × σ)} (hk : Keeps P (step f))
    (hf : ∀ s, P s → Avoids bad (f s)) : Spares bad P (step f) :=
  ⟨hk, fun s hs e _ h => hf s hs e (step_eq_error_iff.1 h).1⟩

lemma Spares.bind {x : EStateM Error σ α} {f : α → EStateM Error σ β} (hx : Spares bad P x)
    (hf : ∀ a, Spares bad P (f a)) : Spares bad P (x >>= f) where
  keeps := keeps_bind hx.keeps fun a => (hf a).keeps
  error s hs e s' h := by
    obtain h | ⟨a, t, hr, h⟩ := bind_eq_error.1 h
    · exact hx.error s hs e s' h
    · exact (hf a).error t (hx.keeps.of_ok hs hr) e s' h

lemma spares_forM {l : List α} {f : α → EStateM Error σ PUnit}
    (hf : ∀ a ∈ l, Spares bad P (f a)) : Spares bad P (l.forM f) := by
  induction l with
  | nil => exact spares_pure _
  | cons a l ih =>
    obtain ⟨ha, hf⟩ := List.forall_mem_cons.1 hf
    exact ha.bind fun _ => ih hf

end Spares

end ColouredPetri
