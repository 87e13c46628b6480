import ColouredPetri.Net.Firing
import ColouredPetri.Proofs.Nets.Keys
import ColouredPetri.Proofs.Nets.Steps

/-! What nets show of themselves when their tokens move. The outline of a net keeps of each type only
which values it accepts, and leaves out the links of the places; searches, checks and moves give the
same on the outline as on the net, so that nets with one outline cannot be told apart. -/

namespace ColouredPetri

def seen {σ τ α : Type} (g : σ → τ) : EStateM.Result Error σ α → EStateM.Result Error τ α
  | .ok a s => .ok a (g s)
  | .error e s => .error e (g s)

def Commutes {σ α : Type} (g : σ → σ) (act : EStateM Error σ α) : Prop :=
  ∀ s, act (g s) = seen g (act s)

section Commutes

variable {σ α β : Type} {g : σ → σ}

lemma commutes_pure (a : α) : Commutes g (pure a : EStateM Error σ α) := fun _ => rfl

lemma Commutes.bind {x : EStateM Error σ α} {f : α → EStateM Error σ β} (hx : Commutes g x)
    (hf : ∀ a, Commutes g (f a)) : Commutes g (x >>= f) := by
  intro s
  have h := hx s
  cases hr : x s with
  | ok a t =>
    rw [hr] at h
    rw [bind_of_ok f h, bind_of_ok f hr, hf a t]
  | error e t =>
    rw [hr] at h
    rw [bind_of_error f h, bind_of_error f hr]
    rfl

lemma commutes_forM {l : List α} {f : α → EStateM Error σ PUnit} (hf : ∀ a, Commutes g (f a)) :
    Commutes g (l.forM f) := by
  induction l with
  | nil => exact commutes_pure _
  | cons a l ih => exact (hf a).bind fun _ => ih

lemma commutes_look {f : σ → Except Error α} (hf : ∀ s, f (g s) = f s) :
    Commutes g (look f) := by
  intro s
  rw [look, look, hf]
  cases f s <;> rfl

lemma commutes_step {f : σ → Except Error (α × σ)}
    (hf : ∀ s, f (g s) = (f s).map fun r => (r.1, g r.2)) : Commutes g (step f) := by
  intro s
  rw [step, step, hf]
  cases f s <;> rfl

lemma Commutes.after {act : EStateM Error σ α} (h : Commutes g act) (s : σ) :
    after act (g s) = g (after act s) := by
  rw [ColouredPetri.after, ColouredPetri.after, h s]
  cases act s <;> rfl

end Commutes

def Place.outline (p : Place) : Place :=
  ⟨p.name, p.tokens, .predicate "" fun v => p.type.accepts v, [], []⟩

namespace Place

lemma check_outline (p : Place) : p.outline.check = p.check := rfl

lemma add_outline (p : Place) (values : List Value) :
    p.outline.add values = (p.add values).map outline := by
  rw [add, add, check_outline]
  cases p.check values <;> rfl

lemma remove_outline (p : Place) (values : List Value) :
    p.outline.remove values = (p.remove values).map outline := by
  rw [remove, remove, show p.outline.tokens = p.tokens from rfl]
  cases p.tokens.remove values 1 <;> rfl

lemma reset_outline (p : Place) (values : List Value) :
    p.outline.reset values = (p.reset values).map outline := by
  simp only [reset, check_outline]
  cases p.check (Bag.ofList values).toList <;> rfl

end Place

namespace Net

def outline (net : Net) : Net :=
  { net with placeMap := net.placeMap.map fun e => (e.1, e.2.outline) }

variable {net : Net} {b : Binding} {t : Transition}

lemma Keyed.outline_eq (h : net.Keyed) :
    net.outline = net.withNodes (net.places.map Place.outline) net.transitions := by
  rw [outline, h.placeMap_eq, withNodes, ofNodes, ← h.transitionMap_eq, named, named, List.map_map,
    List.map_map]
  rfl

section Reading

lemma place?_outline (name : String) :
    net.outline.place? name = (net.place? name).map Place.outline :=
  lookup_map Place.outline

lemma place_outline (name : String) :
    net.outline.place name = (net.place name).map Place.outline := by
  rw [place, place, place?_outline]
  cases net.place? name <;> rfl

lemma place_outline_bind {α : Type} {f : Place → Except Error α} (hf : ∀ p, f p.outline = f p)
    (name : String) : (net.outline.place name >>= f) = net.place name >>= f := by
  rw [place_outline]
  cases net.place name with
  | error e => rfl
  | ok p => exact hf p

lemma check_outline (tokens input : Bool) :
    net.outline.check t b tokens input = net.check t b tokens input := by
  have hscope : net.outline.scope b = net.scope b := rfl
  have havailable : net.outline.available b = net.available b :=
    funext₂ fun name arc => place_outline_bind (fun _ => rfl) name
  have htypes : net.outline.typesRespected b = net.typesRespected b :=
    funext₂ fun name arc => place_outline_bind (fun _ => rfl) name
  rw [check, check, hscope, havailable, htypes]

lemma inputModes_outline (l : List (String × Arc)) :
    net.outline.inputModes l = net.inputModes l := by
  induction l with
  | nil => rfl
  | cons e l ih =>
    rw [inputModes, inputModes, ih]
    exact place_outline_bind (fun _ => rfl) e.1

lemma modesOf_outline : net.outline.modesOf t = net.modesOf t := by
  simp only [modesOf, inputModes_outline, check_outline]

lemma arcFlows_outline (l : List (String × Arc)) :
    net.outline.arcFlows b l = net.arcFlows b l := by
  have hscope : net.outline.scope b = net.scope b := rfl
  induction l with
  | nil => rfl
  | cons e l ih => rw [arcFlows, arcFlows, ih, hscope]

lemma flowOf_outline : net.outline.flowOf t b = net.flowOf t b := by
  simp only [flowOf, enabledBy, check_outline, arcFlows_outline]

lemma modes_outline (trans : String) : net.outline.modes trans = net.modes trans := by
  simp only [modes, modesOf_outline]
  rfl

lemma enabled_outline (trans : String) (b : Binding) :
    net.outline.enabled trans b = net.enabled trans b := by
  simp only [enabled, enabledBy, check_outline]
  rfl

lemma flow_outline (trans : String) (b : Binding) :
    net.outline.flow trans b = net.flow trans b := by
  simp only [flow, flowOf_outline]
  rfl

lemma marking_outline : net.outline.marking = net.marking := by
  simp only [marking, places, outline, List.map_map]
  rfl

end Reading

section Moving

lemma outline_mapPlace {name : String} {p : Place} :
    (net.mapPlace name fun _ => p).outline = net.outline.mapPlace name fun _ => p.outline := by
  simp only [outline, mapPlace, updateKey, List.map_map]
  refine congrArg (fun l => { net with placeMap := l }) (List.map_congr_left fun e _ => ?_)
  simp only [Function.comp]
  split <;> rfl

lemma outline_restore (m : Marking) : (net.restore m).outline = net.outline.restore m := by
  simp only [outline, restore, List.map_map]
  rfl

lemma commutes_editTokens {name : String} {f : Place → Except TokenError Place}
    (hf : ∀ p, f p.outline = (f p).map Place.outline) : Commutes outline (editTokens name f) := by
  rw [editTokens_eq_step]
  refine commutes_step fun net => ?_
  rw [place_outline]
  cases net.place name with
  | error e => rfl
  | ok p =>
    change (liftM (f p.outline) >>= _ : Except Error (Unit × Net)) =
      (liftM (f p) >>= _ : Except Error (Unit × Net)).map _
    rw [hf]
    cases f p with
    | error e => rfl
    | ok q => exact congrArg (fun net => Except.ok ((), net)) outline_mapPlace.symm

lemma commutes_addTokens (name : String) (bag : Bag) : Commutes outline (addTokens name bag) :=
  commutes_editTokens fun p => p.add_outline bag.toList

lemma commutes_removeTokens (name : String) (bag : Bag) :
    Commutes outline (removeTokens name bag) :=
  commutes_editTokens fun p => p.remove_outline bag.toList

lemma commutes_resetTokens (m : Marking) (name : String) :
    Commutes outline (resetTokens m name) := by
  refine commutes_editTokens fun p => ?_
  have hname : p.outline.name = p.name := rfl
  rw [hname]
  cases m.get? p.name with
  | none => rfl
  | some bag => exact p.reset_outline bag.toList

lemma commutes_withRollback {act : Edit Unit} (h : Commutes outline act) :
    Commutes outline (withRollback act) := by
  intro net
  rw [withRollback, withRollback, h net]
  cases act net with
  | ok u s => rfl
  | error e s =>
    change EStateM.Result.error e (s.outline.restore net.outline.marking) = _
    rw [marking_outline, ← outline_restore]
    rfl

lemma commutes_setMarking (m : Marking) : Commutes outline (setMarking m) := by
  refine commutes_withRollback fun net => ?_
  have hkeys : (net.outline.placeMap.forM fun e => resetTokens m e.1) =
      net.placeMap.forM fun e => resetTokens m e.1 := List.forM_map
  change (net.outline.placeMap.forM fun e => resetTokens m e.1) net.outline = _
  rw [hkeys]
  exact commutes_forM (fun e : String × Place => commutes_resetTokens m e.1) net

lemma commutes_fire (trans : String) (b : Binding) : Commutes outline (fire trans b) := by
  have hlook : Commutes outline (look fun net => net.flow trans b) :=
    commutes_look fun _ => flow_outline trans b
  refine hlook.bind fun r => commutes_withRollback ?_
  exact (commutes_forM fun e : String × Bag => commutes_removeTokens e.1 e.2).bind fun _ =>
    commutes_forM fun e : String × Bag => commutes_addTokens e.1 e.2

end Moving

end Net

inductive Call where
  | setMarking (m : Marking)
  | fire (trans : String) (b : Binding)

namespace Call

def run : Call → Edit Unit
  | setMarking m => Net.setMarking m
  | fire t b => Net.fire t b

lemma commutes_run : ∀ c : Call, Commutes Net.outline c.run
  | setMarking m => Net.commutes_setMarking m
  | fire t b => Net.commutes_fire t b

end Call

namespace Net

def play (calls : List Call) (net : Net) : Net := calls.foldl (fun s c => after c.run s) net

/-- Both nets have the same tokens, give the same answers about each transition and each binding, and
every call has the same result and leaves the same tokens on both. -/
structure Alike (net net' : Net) : Prop where
  marking : net'.marking = net.marking
  modes : ∀ trans, net'.modes trans = net.modes trans
  enabled : ∀ trans b, net'.enabled trans b = net.enabled trans b
  flow : ∀ trans b, net'.flow trans b = net.flow trans b
  run : ∀ c : Call, seen Net.marking (c.run net') = seen Net.marking (c.run net)

def Indistinguishable (net net' : Net) : Prop :=
  ∀ calls, (net.play calls).Alike (net'.play calls)

variable {net net' : Net}

lemma play_outline (calls : List Call) : net.outline.play calls = (net.play calls).outline := by
  induction calls generalizing net with
  | nil => rfl
  | cons c calls ih =>
    have hrun := c.commutes_run.after net
    change play calls (after c.run net.outline) = (play calls (after c.run net)).outline
    rw [hrun, ih]

lemma run_outline (c : Call) : seen marking (c.run net.outline) = seen marking (c.run net) := by
  rw [c.commutes_run net]
  cases c.run net with
  | ok u s => exact congrArg (EStateM.Result.ok u) marking_outline
  | error e s => exact congrArg (EStateM.Result.error e) marking_outline

lemma alike_of_outline (h : net'.outline = net.outline) : net.Alike net' where
  marking := by rw [← marking_outline, h, marking_outline]
  modes trans := by rw [← modes_outline, h, modes_outline]
  enabled trans b := by rw [← enabled_outline, h, enabled_outline]
  flow trans b := by rw [← flow_outline, h, flow_outline]
  run c := by rw [← run_outline, h, run_outline]

lemma indistinguishable_of_outline (h : net'.outline = net.outline) : net.Indistinguishable net' :=
  fun calls => alike_of_outline (by rw [← play_outline, h, play_outline])

end Net

end ColouredPetri
