import ColouredPetri.Description
import ColouredPetri.Net.Merge
import ColouredPetri.Proofs.Nets.Firing
import ColouredPetri.Proofs.Nets.Renaming

namespace ColouredPetri

namespace TokenType

mutual

lemma accepts_of_spec? : ∀ {t : TokenType} (v : Value), t.spec? = some .any → accepts v t = true
  | .any, _, _ => rfl
  | .kind _, _, h => by cases h
  | .oneOf _, _, h => by cases h
  | .predicate _ _, _, h => by cases h
  | .union _, v, h => someAccepts_of_unionSpec? v h

lemma someAccepts_of_unionSpec? : ∀ {l : List TokenType} {values : KeySet Value} (v : Value),
    unionSpec? l values = some .any → someAccepts v l = true
  | [], _, _, h => by cases h
  | t :: l, values, v, h => by
    rw [someAccepts, Bool.or_eq_true]
    rw [unionSpec?] at h
    split at h
    · cases h
    · next hs => exact .inl (accepts_of_spec? v hs)
    · exact .inr (someAccepts_of_unionSpec? v h)
    · cases h

end

lemma accepts_unite (v : Value) (l r : TokenType) :
    accepts v (l.unite r) = (accepts v l || accepts v r) := by
  rw [unite]
  split
  · next h => rw [accepts_of_spec? v h, Bool.true_or]
  · split
    · next h => rw [accepts_of_spec? v h, Bool.or_true]
    · simp [accepts, someAccepts]

end TokenType

lemma Place.typed_of_add {p q : Place} {values : List Value} (hp : p.Typed)
    (h : p.add values = .ok q) : q.Typed := by
  rw [Place.add] at h
  split at h
  · cases h
  · next hc =>
    cases h
    intro v hv
    rw [Bag.mem_toList, Bag.count_addAll, Nat.one_mul] at hv
    by_cases hold : v ∈ p.tokens.toList
    · exact hp v hold
    · refine Net.check_eq_ok_iff.1 hc v (List.count_pos_iff.1 ?_)
      rw [Bag.mem_toList] at hold
      omega

lemma Place.typed_of_empty {p : Place} (h : p.tokens = Bag.empty) : p.Typed := by
  intro v hv
  rw [h] at hv
  cases hv

inductive Place.Made : Place → Prop where
  | untyped (name : String) (values : List Value) : Made (.untyped name values)
  | typed {name : String} {values : List Value} {type : TokenType} {p : Place} :
      Place.typed name values type = .ok p → Made p
  | add {p q : Place} {values : List Value} : Made p → p.add values = .ok q → Made q
  | remove {p q : Place} {values : List Value} : Made p → p.remove values = .ok q → Made q
  | reset {p q : Place} {values : List Value} : Made p → p.reset values = .ok q → Made q
  | clear {p : Place} : Made p → Made p.clear
  | copyAs {p : Place} (name : String) : Made p → Made (p.copyAs name)
  | renamed {p : Place} (name : String) : Made p → Made { p with name := name }

lemma Place.Made.typed_tokens {p : Place} (h : p.Made) : p.Typed := by
  induction h with
  | untyped name values => exact fun _ _ => rfl
  | typed h => exact Place.typed_of_add (Place.typed_of_empty rfl) h
  | add _ h ih => exact Place.typed_of_add ih h
  | remove _ h ih =>
    rw [Place.remove] at h
    split at h
    · cases h
    · next tokens hr =>
      cases h
      have hsum := Bag.sub_eq_ok_iff.1 hr
      exact fun v hv => ih v (hsum ▸ Bag.mem_toList_sum.2 (.inl hv))
  | reset _ h _ =>
    rw [Place.reset] at h
    split at h
    · cases h
    · next hc =>
      cases h
      exact Net.check_eq_ok_iff.1 hc
  | clear _ _ => exact Place.typed_of_empty rfl
  | copyAs _ _ ih => exact ih
  | renamed _ _ ih => exact ih

lemma Place.typed_of_build {d : PlaceDescription} {p : Place} (h : d.build = .ok p) : p.Typed :=
  Place.typed_of_add (Place.typed_of_empty rfl) h

namespace Net

lemma mergedPlace_typed {target : String} {first : Place} {rest : List Place}
    (hf : first.Typed) (hr : ∀ p ∈ rest, p.Typed) : (mergedPlace target first rest).Typed := by
  rw [mergedPlace]
  have hstart : (first.copyAs target).Typed := hf
  generalize first.copyAs target = acc at hstart
  induction rest generalizing acc with
  | nil => exact hstart
  | cons p rest ih =>
    refine ih (fun q hq => hr q (List.mem_cons_of_mem _ hq)) _ fun v hv => ?_
    rw [TokenType.accepts_unite, Bool.or_eq_true]
    exact (Bag.mem_toList_sum.1 hv).imp (hstart v) (hr p List.mem_cons_self v)

inductive Operation where
  | declare (name : String) (value : Value)
  | addPlace (p : Place) (typed : p.Typed)
  | addTransition (t : Transition)
  | removePlace (name : String)
  | removeTransition (name : String)
  | addArc (side : Side) (place trans : String) (arc : Arc)
  | removeArc (side : Side) (place trans : String)
  | renameNode (old new : String)
  | copyPlace (source : String) (targets : List String)
  | copyTransition (source : String) (targets : List String)
  | mergePlaces (target : String) (sources : List String)
  | mergeTransitions (target : String) (sources : List String)
  | setMarking (m : Marking)
  | addMarking (m : Marking)
  | removeMarking (m : Marking)
  | fire (trans : String) (b : Binding)

namespace Operation

def run : Operation → Edit Unit
  | declare name value => modify fun net => net.declare name value
  | addPlace p _ => Net.addPlace p
  | addTransition t => Net.addTransition t
  | removePlace name => do let _ ← Net.removePlace name
  | removeTransition name => do let _ ← Net.removeTransition name
  | addArc side place t arc => Net.addArc side place t arc
  | removeArc side place t => do let _ ← Net.removeArc side place t
  | renameNode old new => Net.renameNode old new
  | copyPlace source targets => Net.copyPlace source targets
  | copyTransition source targets => Net.copyTransition source targets
  | mergePlaces target sources => Net.mergePlaces target sources
  | mergeTransitions target sources => Net.mergeTransitions target sources
  | setMarking m => Net.setMarking m
  | addMarking m => Net.addMarking m
  | removeMarking m => Net.removeMarking m
  | fire t b => Net.fire t b

end Operation

inductive Built : Net → Prop where
  | empty (name : String) (globals : Binding) : Built ⟨name, [], [], globals⟩
  | described {d : NetDescription} {net : Net} : d.build = .ok net → Built net
  | edited {net : Net} (op : Operation) : Built net → Built (after op.run net)

lemma declare_wellFormed {net : Net} (h : net.WellFormed) (name : String) (value : Value) :
    (net.declare name value).WellFormed :=
  ⟨⟨h.keyed.places, h.keyed.transitions⟩, h.names_nodup, h.keys_nodup, h.links_nodup,
    h.keys_places, h.links_transitions, h.adjacent, h.valid, h.allowed, h.typed⟩

lemma keeps_undoing {α β : Type} {undo : Edit β} {act : Edit α} (hu : Keeps WellFormed undo)
    (ha : Keeps WellFormed act) : Keeps WellFormed (undoing undo act) := by
  intro net h
  have h₁ := ha net h
  cases hr : act net with
  | ok a net₁ =>
    rw [after_of_ok hr] at h₁
    rwa [after_of_ok (show undoing undo act net = .ok a net₁ by rw [undoing, hr])]
  | error e net₁ =>
    rw [after_of_error hr] at h₁
    have h₂ := hu net₁ h₁
    cases hb : undo net₁ with
    | ok b net₂ =>
      rw [after_of_ok hb] at h₂
      rwa [after_of_error (show undoing undo act net = .error e net₂ by simp only [undoing, hr, hb])]
    | error d net₂ =>
      rw [after_of_error hb] at h₂
      rwa [after_of_error (show undoing undo act net = .error d net₂ by simp only [undoing, hr, hb])]

lemma keeps_connect {P : Net → Prop} {name : String}
    (h : ∀ side place arc, Keeps P (addArc side place name arc))
    (inputs outputs : List (String × Arc)) : Keeps P (connect name inputs outputs) :=
  keeps_bind (keeps_forM fun e _ => h .input e.1 e.2) fun _ =>
    keeps_forM fun e _ => h .output e.1 e.2

lemma keeps_addTransition (t : Transition) : Keeps WellFormed (addTransition t) :=
  keeps_bind (keeps_addBare _ _) fun _ =>
    keeps_undoing (keeps_removeTransition _) (keeps_connect (keeps_addArc · · _ ·) _ _)

lemma keeps_copyInput (source target trans : String) :
    Keeps WellFormed (copyInput source target trans) :=
  keeps_bind (keeps_look _) fun _ => keeps_addArc .input target trans _

lemma keeps_copyOutput (source target trans : String) :
    Keeps WellFormed (copyOutput source target trans) :=
  keeps_bind (keeps_look _) fun _ => keeps_addArc .output target trans _

lemma keeps_copyPlace (source : String) (targets : List String) :
    Keeps WellFormed (copyPlace source targets) := by
  refine keeps_look_bind fun net p h hp => keeps_forM fun target _ => ?_
  have htyped : (p.copyAs target).Typed := h.typed p (h.keyed.mem_of_place? (place_eq_ok_iff.1 hp)).1
  exact keeps_bind (keeps_addPlace htyped) fun _ =>
    keeps_bind (keeps_forM fun _ _ => keeps_copyInput _ _ _) fun _ =>
      keeps_forM fun _ _ => keeps_copyOutput _ _ _

lemma keeps_copyTransition (source : String) (targets : List String) :
    Keeps WellFormed (copyTransition source targets) :=
  keeps_bind (keeps_look _) fun _ => keeps_forM fun _ _ => keeps_addTransition _

lemma keeps_addJoint (side : Side) (place trans : String) (arcs : List Arc) :
    Keeps WellFormed (do addArc side place trans (← look fun _ => joinArcs arcs)) :=
  keeps_bind (keeps_look _) fun _ => keeps_addArc side place trans _

lemma keeps_mergePlaces (target : String) (sources : List String) :
    Keeps WellFormed (mergePlaces target sources) := by
  refine keeps_look_bind fun net places h hp => ?_
  have htyped : ∀ p ∈ places, p.Typed := fun p hm => by
    obtain ⟨name, -, hname⟩ := (mem_of_mapM_ok hp).1 p hm
    exact h.typed p (h.keyed.mem_of_place? (place_eq_ok_iff.1 hname)).1
  cases places with
  | nil => exact keeps_throw _
  | cons first rest =>
    obtain ⟨hf, hr⟩ := List.forall_mem_cons.1 htyped
    exact keeps_bind (keeps_addPlace (mergedPlace_typed hf hr)) fun _ =>
      keeps_bind (keeps_look _) fun _ => keeps_bind (keeps_look _) fun _ =>
      keeps_bind (keeps_forM fun _ _ => keeps_addJoint .input _ _ _) fun _ =>
      keeps_forM fun _ _ => keeps_addJoint .output _ _ _

lemma keeps_mergeTransitions (target : String) (sources : List String) :
    Keeps WellFormed (mergeTransitions target sources) := by
  refine keeps_bind (keeps_look _) fun transitions => ?_
  have hrest : Keeps WellFormed (do
      addBare target (jointGuard transitions)
      (groups (transitions.flatMap Transition.inputs)).forM fun e => addJointInput e.1 target e.2
      (groups (transitions.flatMap Transition.outputs)).forM fun e =>
        addJointOutput e.1 target e.2) :=
    keeps_bind (keeps_addBare _ _) fun _ =>
      keeps_bind (keeps_forM fun _ _ => keeps_addJoint .input _ _ _) fun _ =>
      keeps_forM fun _ _ => keeps_addJoint .output _ _ _
  by_cases hempty : transitions.isEmpty = true
  · rw [if_pos hempty]
    exact keeps_bind (keeps_throw _) fun _ => hrest
  · rwa [if_neg hempty]

lemma keeps_run : ∀ op : Operation, Keeps WellFormed op.run
  | .declare name value => fun _ h => declare_wellFormed h name value
  | .addPlace _ typed => keeps_addPlace typed
  | .addTransition t => keeps_addTransition t
  | .removePlace name => keeps_bind (keeps_removePlace name) fun _ => keeps_pure _
  | .removeTransition name => keeps_bind (keeps_removeTransition name) fun _ => keeps_pure _
  | .addArc side place t arc => keeps_addArc side place t arc
  | .removeArc side place t => keeps_bind (keeps_removeArc side place t) fun _ => keeps_pure _
  | .renameNode old new => keeps_renameNode old new
  | .copyPlace source targets => keeps_copyPlace source targets
  | .copyTransition source targets => keeps_copyTransition source targets
  | .mergePlaces target sources => keeps_mergePlaces target sources
  | .mergeTransitions target sources => keeps_mergeTransitions target sources
  | .setMarking m => keeps_setMarking m
  | .addMarking m => keeps_addMarking m
  | .removeMarking m => keeps_removeMarking m
  | .fire t b => keeps_fire t b

lemma keeps_construct (d : NetDescription) : Keeps WellFormed d.construct := by
  refine keeps_bind (keeps_forM fun p _ => ?_) fun _ => keeps_forM fun t _ => ?_
  · refine keeps_look_bind fun net q _ hq => keeps_addPlace ?_
    exact Place.typed_of_build (d := p) (mapError_eq_ok_iff.1 hq)
  · exact keeps_bind (keeps_addBare _ _) fun _ =>
      keeps_connect (keeps_addArc · · _ ·) _ _

lemma build_wellFormed {d : NetDescription} {net : Net} (h : d.build = .ok net) :
    net.WellFormed := by
  have := keeps_construct d _ (empty_wellFormed d.name d.globals)
  rw [NetDescription.build] at h
  split at h
  · next hc =>
    cases h
    rwa [after_of_ok hc] at this
  · cases h

lemma Built.wellFormed {net : Net} (h : net.Built) : net.WellFormed := by
  induction h with
  | empty name globals => exact empty_wellFormed name globals
  | described hd => exact build_wellFormed hd
  | edited op _ ih => exact keeps_run op _ ih

end Net

end ColouredPetri
