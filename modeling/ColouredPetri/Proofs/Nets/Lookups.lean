import ColouredPetri.Proofs.Nets.Firing
import ColouredPetri.Proofs.SearchErrors

namespace ColouredPetri

namespace Net

variable {net : Net} {t : Transition} {b : Binding}

lemma failsWith_allArcs {P : Error → Prop} {test : String → Arc → Except Error Bool}
    {l : List (String × Arc)} (h : ∀ e ∈ l, FailsWith P (test e.1 e.2)) :
    FailsWith P (allArcs test l) := by
  induction l with
  | nil => exact failsWith_ok true
  | cons e l ih =>
    obtain ⟨he, hl⟩ := List.forall_mem_cons.1 h
    rw [allArcs]
    refine he.bind fun passed _ => ?_
    cases passed with
    | true => exact ih hl
    | false => exact failsWith_ok false

def Finds (net : Net) (l : List (String × Arc)) : Prop :=
  ∀ e ∈ l, ∃ p, net.place e.1 = .ok p

lemma WellFormed.finds (h : net.WellFormed) (ht : t ∈ net.transitions) (side : Side) :
    net.Finds (t.arcs side) := by
  intro e he
  obtain ⟨p, hp, hn⟩ := h.keys_places t ht side e.1 (List.mem_map_of_mem he)
  exact ⟨p, place_eq_ok_iff.2 (hn ▸ h.place?_of_mem hp)⟩

lemma failsWith_place {P : Error → Prop} {place : String} (h : ∃ p, net.place place = .ok p) :
    FailsWith P (net.place place) := by
  obtain ⟨p, hp⟩ := h
  exact hp ▸ failsWith_ok p

lemma avoids_place {place : String} (h : ∃ p, net.place place = .ok p) :
    Avoids Error.isNodeMissing (net.place place) := failsWith_place h

lemma ofValues_available {l : List (String × Arc)} (h : net.Finds l) :
    FailsWith Error.OfValues (allArcs (net.available b) l) :=
  failsWith_allArcs fun e he =>
    (failsWith_place (h e he)).bind fun _ _ => (Arc.ofValues_flow e.2).bind_pure

lemma ofValues_typesRespected {l : List (String × Arc)} (h : net.Finds l) :
    FailsWith Error.OfValues (allArcs (net.typesRespected b) l) :=
  failsWith_allArcs fun e he =>
    (failsWith_place (h e he)).bind fun _ _ => (Arc.ofValues_tokens e.2).bind_pure

lemma failsWith_branch {P : Error → Prop} {x y : Except Error Bool} (hx : FailsWith P x)
    (hy : FailsWith P y) : FailsWith P (do if !(← x) then return false else y) := by
  refine hx.bind fun passed _ => ?_
  cases passed with
  | true => exact hy
  | false => exact failsWith_ok false

lemma ofValues_check (hin : net.Finds t.inputs) (hout : net.Finds t.outputs)
    (tokens input : Bool) : FailsWith Error.OfValues (net.check t b tokens input) := by
  have htypes : FailsWith Error.OfValues (do
      if input then
        if !(← allArcs (net.typesRespected b) t.inputs) then return false
      allArcs (net.typesRespected b) t.outputs) := by
    cases input with
    | true => exact failsWith_branch (ofValues_typesRespected hin) (ofValues_typesRespected hout)
    | false => exact ofValues_typesRespected hout
  rw [check]
  refine failsWith_branch (ofValues_eval _) ?_
  cases tokens with
  | true => exact failsWith_branch (ofValues_available hin) htypes
  | false => exact htypes

lemma avoids_check (hin : net.Finds t.inputs) (hout : net.Finds t.outputs) (tokens input : Bool) :
    Avoids Error.isNodeMissing (net.check t b tokens input) :=
  (ofValues_check hin hout tokens input).mono fun _ he => he.isNodeMissing

lemma avoids_inputModes {l : List (String × Arc)} (h : net.Finds l) :
    Avoids Error.isNodeMissing (net.inputModes l) := by
  induction l with
  | nil => exact avoids_ok _
  | cons e l ih =>
    obtain ⟨he, hl⟩ := List.forall_mem_cons.1 h
    rw [inputModes]
    refine (avoids_place he).bind fun p _ => ?_
    split
    · next d hd =>
      split
      · exact avoids_ok none
      · exact avoids_error (Arc.avoids_modes e.2 p.tokens d hd)
    · exact (ih hl).bind_pure

lemma avoids_modesOf (hin : net.Finds t.inputs) (hout : net.Finds t.outputs) :
    Avoids Error.isNodeMissing (net.modesOf t) := by
  rw [modesOf]
  refine (avoids_inputModes hin).bind fun parts _ => ?_
  cases parts with
  | none => exact avoids_ok []
  | some parts => exact avoids_keepModes fun b _ => avoids_check hin hout false false

lemma ofValues_arcFlows (l : List (String × Arc)) :
    FailsWith Error.OfValues (net.arcFlows b l) := by
  induction l with
  | nil => exact failsWith_ok []
  | cons e l ih =>
    rw [arcFlows]
    exact (Arc.ofValues_flow e.2).bind fun _ _ => ih.bind_pure

lemma avoids_arcFlows (l : List (String × Arc)) :
    Avoids Error.isNodeMissing (net.arcFlows b l) :=
  (ofValues_arcFlows l).mono fun _ he => he.isNodeMissing

lemma avoids_flowOf (hin : net.Finds t.inputs) (hout : net.Finds t.outputs) :
    Avoids Error.isNodeMissing (net.flowOf t b) := by
  rw [flowOf]
  refine (avoids_check hin hout true true).bind fun enabled _ => ?_
  cases enabled with
  | true => exact (avoids_arcFlows _).bind fun _ _ => (avoids_arcFlows _).bind_pure
  | false => exact avoids_error rfl

lemma avoids_of_transition {α : Type} (h : net.WellFormed) {trans : String}
    (ht : net.hasTransition trans = true) {f : Transition → Except Error α}
    (hf : ∀ t, net.Finds t.inputs → net.Finds t.outputs → Avoids Error.isNodeMissing (f t)) :
    Avoids Error.isNodeMissing (net.transition trans >>= f) := by
  obtain ⟨t, ht⟩ := Option.isSome_iff_exists.1 ht
  have hmem := (h.keyed.mem_of_transition? ht).1
  rw [transition_eq_ok_iff.2 ht]
  exact hf t (h.finds hmem .input) (h.finds hmem .output)

lemma avoids_flow (h : net.WellFormed) {trans : String} (ht : net.hasTransition trans = true) :
    Avoids Error.isNodeMissing (net.flow trans b) :=
  avoids_of_transition h ht fun _ => avoids_flowOf

section Tokens

lemma spares_editTokens (h : net.WellFormed) {name : String} {f : Place → Except TokenError Place}
    (hk : Keeps net.Remarked (editTokens name f)) (hn : ∃ p ∈ net.places, p.name = name) :
    Spares Error.isNodeMissing net.Remarked (editTokens name f) := by
  obtain ⟨p, hp, rfl⟩ := hn
  rw [editTokens_eq_step] at hk ⊢
  refine spares_step hk fun s hs => ?_
  obtain ⟨m, -, rfl⟩ := hs
  have hfound : ∃ q, (net.restore m).place p.name = .ok q :=
    ⟨_, place_eq_ok_iff.2 (by rw [place?_restore, h.place?_of_mem hp]; rfl)⟩
  exact (avoids_place hfound).bind fun _ _ => (avoids_mapError fun _ _ => rfl).bind_pure

lemma spares_moveTokens (h : net.WellFormed) {consumed produced : Marking}
    (hc : net.Covers consumed) (hp : net.Covers produced) :
    Spares Error.isNodeMissing net.Remarked (moveTokens consumed produced) := by
  refine Spares.bind ?_ fun _ => ?_
  · exact spares_forM fun e he => spares_editTokens h (keeps_removeTokens h) (hc.entries e he)
  · exact spares_forM fun e he => spares_editTokens h (keeps_addTokens h) (hp.entries e he)

lemma fire_avoids (h : net.WellFormed) {trans : String} (ht : net.hasTransition trans = true)
    {e : Error} {net' : Net} (hs : fire trans b net = .error e net') : e.isNodeMissing = false := by
  rw [fire] at hs
  obtain hl | ⟨flows, net₁, hl, hmove⟩ := bind_eq_error.1 hs
  · exact avoids_flow h ht e (look_eq_error_iff.1 hl).1
  · obtain ⟨hf, rfl⟩ := look_eq_ok_iff.1 hl
    obtain ⟨hc, hp⟩ := covers_flow h hf
    obtain ⟨net₂, hmove⟩ := withRollback_fails hmove
    exact (spares_moveTokens h hc hp).error net₁ (remarked_self h) e net₂ hmove

end Tokens

end Net

end ColouredPetri
