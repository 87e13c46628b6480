import ColouredPetri.Proofs.Nets.Copies
import ColouredPetri.Proofs.Nets.Lookups

/-! The integrity of nets. Whatever was done to a net, every node stands at its own name and no two
nodes share one, the records on both ends of an arc agree, and all tokens are of the types of their
places. So no question about a transition misses a place, and no copy misses an arc of what it
copies. -/

namespace ColouredPetri

namespace Net

structure Intact (net : Net) : Prop where
  keyed : net.Keyed
  apart : ∀ n, ¬ (net.hasPlace n = true ∧ net.hasTransition n = true)
  place_iff : ∀ n p, net.place? n = some p ↔ p ∈ net.places ∧ p.name = n
  transition_iff : ∀ n t, net.transition? n = some t ↔ t ∈ net.transitions ∧ t.name = n
  input_place : ∀ t ∈ net.transitions, ∀ e ∈ t.inputs, net.hasPlace e.1 = true
  output_place : ∀ t ∈ net.transitions, ∀ e ∈ t.outputs, net.hasPlace e.1 = true
  post_iff : ∀ p ∈ net.places, ∀ n, n ∈ p.post ↔
    ∃ t ∈ net.transitions, t.name = n ∧ (t.input? p.name).isSome = true
  pre_iff : ∀ p ∈ net.places, ∀ n, n ∈ p.pre ↔
    ∃ t ∈ net.transitions, t.name = n ∧ (t.output? p.name).isSome = true
  valid : ∀ t ∈ net.transitions, ∀ e ∈ t.inputs ++ t.outputs, e.2.validate = .ok ()
  allowed : ∀ t ∈ net.transitions, ∀ e ∈ t.inputs, e.2.inputAllowed = true
  typed : ∀ p ∈ net.places, ∀ v ∈ p.tokens.toList, p.type.accepts v = true

variable {net : Net}

lemma WellFormed.links_iff (h : net.WellFormed) {p : Place} (hp : p ∈ net.places) (side : Side)
    (n : String) : n ∈ p.links side ↔
      ∃ t ∈ net.transitions, t.name = n ∧ ((t.arcs side).lookup p.name).isSome = true := by
  simp only [lookup_isSome_iff]
  constructor
  · intro hn
    obtain ⟨t, ht, rfl⟩ := h.links_transitions p hp side n hn
    exact ⟨t, ht, rfl, (h.adjacent p hp t ht side).1 hn⟩
  · rintro ⟨t, ht, rfl, hk⟩
    exact (h.adjacent p hp t ht side).2 hk

lemma WellFormed.intact (h : net.WellFormed) : net.Intact where
  keyed := h.keyed
  apart n := by
    rintro ⟨hp, ht⟩
    exact List.disjoint_of_nodup_append h.names_nodup (List.mem_map.2 (h.keyed.hasPlace_iff.1 hp))
      (List.mem_map.2 (h.keyed.hasTransition_iff.1 ht))
  place_iff n p := ⟨h.keyed.mem_of_place?, fun ⟨hp, hn⟩ => hn ▸ h.place?_of_mem hp⟩
  transition_iff n t := ⟨h.keyed.mem_of_transition?, fun ⟨ht, hn⟩ => hn ▸ h.transition?_of_mem ht⟩
  input_place t ht e he :=
    h.keyed.hasPlace_iff.2 (h.keys_places t ht .input e.1 (List.mem_map_of_mem he))
  output_place t ht e he :=
    h.keyed.hasPlace_iff.2 (h.keys_places t ht .output e.1 (List.mem_map_of_mem he))
  post_iff p hp n := h.links_iff hp .input n
  pre_iff p hp n := h.links_iff hp .output n
  valid t ht e he := (List.mem_append.1 he).elim (h.valid t ht .input e) (h.valid t ht .output e)
  allowed := h.allowed
  typed := h.typed

theorem built_intact (h : net.Built) :
    net.Intact ∧
    (∀ trans, net.hasTransition trans = true → ∀ b,
      Avoids Error.isNodeMissing (net.modes trans) ∧
      Avoids Error.isNodeMissing (net.enabled trans b) ∧
      Avoids Error.isNodeMissing (net.activated trans b) ∧
      Avoids Error.isNodeMissing (net.flow trans b) ∧
      ∀ e net', fire trans b net = .error e net' → e.isNodeMissing = false) ∧
    ∀ name names, ∀ act ∈ [copyPlace name names, copyTransition name names,
        mergePlaces name names, mergeTransitions name names],
      ∀ e net', act net = .error e net' → e.isArcMissing = false := by
  have hw := h.wellFormed
  refine ⟨hw.intact, fun trans ht b => ⟨?_, ?_, ?_, avoids_flow hw ht, ?_⟩, ?_⟩
  · exact avoids_of_transition hw ht fun _ => avoids_modesOf
  · exact avoids_of_transition hw ht fun _ hin hout => avoids_check hin hout true true
  · exact avoids_of_transition hw ht fun _ hin hout => avoids_check hin hout false true
  · exact fun e net' hs => fire_avoids hw ht hs
  · intro name names act hact e net' hs
    simp only [List.mem_cons, List.not_mem_nil, or_false] at hact
    rcases hact with rfl | rfl | rfl | rfl
    · exact copyPlace_avoids hw hs
    · exact copyTransition_avoids hw hs
    · exact mergePlaces_avoids hw hs
    · exact mergeTransitions_avoids hw hs

def afterAll (ops : List Operation) (net : Net) : Net :=
  ops.foldl (fun net op => after op.run net) net

lemma Built.afterAll (h : net.Built) (ops : List Operation) : (net.afterAll ops).Built := by
  induction ops generalizing net with
  | nil => exact h
  | cons op ops ih => exact ih (.edited op h)

def shuttle : Net := afterAll
  [.addPlace (.untyped "p" [.int 1]) (Place.Made.untyped "p" [.int 1]).typed_tokens,
    .addPlace (.untyped "q" []) (Place.Made.untyped "q" []).typed_tokens,
    .addTransition ⟨"t", .truth, [("p", .var "x")], [("q", .var "x")]⟩,
    .mergePlaces "r" ["p", "q"],
    .renameNode "p" "r",
    .fire "t" (Binding.single "x" (.int 1))]
  (empty "shuttle")

theorem built_intact_shuttle : shuttle.Built ∧ shuttle.Intact ∧
    (shuttle.place? "r").map Place.post = some ["t"] ∧
    (shuttle.transition? "t").map (fun t => t.inputs.map Prod.fst) = some ["p", "r"] ∧
    Avoids Error.isNodeMissing (shuttle.flow "t" (Binding.single "x" (.int 1))) := by
  have hbuilt : shuttle.Built := (Built.empty "shuttle" Table.empty).afterAll _
  obtain ⟨hintact, htrans, -⟩ := built_intact hbuilt
  exact ⟨hbuilt, hintact, rfl, rfl, (htrans "t" rfl (Binding.single "x" (.int 1))).2.2.2.1⟩

end Net

end ColouredPetri
