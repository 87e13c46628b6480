import ColouredPetri.Proofs.Descriptions.JsonViews
import ColouredPetri.Proofs.Descriptions.Outlines
import ColouredPetri.Proofs.Descriptions.Rebuilding
import ColouredPetri.Proofs.Descriptions.RonTexts

/-! Descriptions of nets and back. Every net is built again from its description, with the same
description and the same tokens, also through a text; if each of its types has a specification, no
call can tell the two nets apart. -/

namespace ColouredPetri

namespace Place

lemma ofPlace_rebuilt (p : Place) : PlaceDescription.ofPlace p.rebuilt = .ofPlace p := by
  have htype : p.type.described.spec?.getD .any = p.type.spec?.getD .any := by
    rw [TokenType.spec?_described, Option.getD_some]
  exact congrArg (PlaceDescription.mk p.name p.tokens) htype

lemma outline_rebuilt {p : Place} (h : p.type.spec? ≠ none) : p.rebuilt.outline = p.outline := by
  have hsame : (fun v => p.type.described.accepts v) = fun v => p.type.accepts v :=
    funext fun v => TokenType.accepts_described h v
  exact congrArg (fun test => Place.mk p.name p.tokens (.predicate "" test) [] []) hsame

end Place

namespace Net

open NetDescription

variable {net net' : Net}

structure Rebuilds (net net' : Net) : Prop where
  keyed : net'.Keyed
  name_eq : net'.name = net.name
  places_eq : net'.places.map Place.unlinked = net.places.map Place.rebuilt
  transitions_eq : net'.transitions = net.transitions
  globals_eq : net'.globals = net.globals

namespace Rebuilds

lemma of_unlinked_eq (hk : net'.Keyed)
    (h : net'.unlinked = net.withNodes (net.places.map Place.rebuilt) net.transitions) :
    net.Rebuilds net' := by
  have hname := congrArg Net.name h
  have hglobals := congrArg Net.globals h
  refine ⟨hk, hname, ?_, ?_, hglobals⟩
  · have hplaces := congrArg places h
    rwa [unlinked, places_withNodes, places_withNodes] at hplaces
  · have htransitions := congrArg transitions h
    rwa [unlinked, transitions_withNodes, transitions_withNodes] at htransitions

lemma map_places {α : Type} {g : Place → α} (h : net.Rebuilds net')
    (hg : ∀ p : Place, g p.unlinked = g p) : net'.places.map g = net.places.map (g ·.rebuilt) := by
  have hplaces := congrArg (List.map g) h.places_eq
  rw [List.map_map, List.map_map, show g ∘ Place.unlinked = g from funext hg] at hplaces
  exact hplaces

lemma ofNet_eq (h : net.Rebuilds net') : ofNet net' = ofNet net := by
  have hplaces : net'.places.map PlaceDescription.ofPlace =
      net.places.map PlaceDescription.ofPlace :=
    (h.map_places fun _ => rfl).trans (List.map_congr_left fun p _ => p.ofPlace_rebuilt)
  rw [ofNet, hplaces, h.name_eq, h.transitions_eq, h.globals_eq, ofNet]

lemma marking_eq (h : net.Rebuilds net') : net'.marking = net.marking :=
  congrArg Marking.ofList (h.map_places fun _ => rfl)

lemma outline_eq (h : net.Rebuilds net') (hk : net.Keyed)
    (ht : ∀ p ∈ net.places, p.type.spec? ≠ none) : net'.outline = net.outline := by
  have hplaces : net'.places.map Place.outline = net.places.map Place.outline :=
    (h.map_places fun _ => rfl).trans (List.map_congr_left fun p hp => p.outline_rebuilt (ht p hp))
  rw [h.keyed.outline_eq, hk.outline_eq, hplaces, h.transitions_eq, withNodes, withNodes,
    h.name_eq, h.globals_eq]

end Rebuilds

lemma netOfText_of_restores {f : Format} {text : String} (hbuild : (ofNet net).build = .ok net')
    (hproper : ∀ v ∈ (ofNet net).values, v.Proper) (hwrite : f.write? (ofNet net).doc = some text)
    (hrestores : f.Restores text (ofNet net).doc) :
    f.read? text = some (ofNet net) ∧ netOfText f text = .ok net' := by
  have hread := Format.read?_of_restores hproper hwrite hrestores
  refine ⟨hread, ?_⟩
  rw [netOfText, hread]
  simp only [hbuild]

theorem description_round_trip (h : net.Built) : ∃ net', (ofNet net).build = .ok net' ∧
    ofNet net' = ofNet net ∧ net'.marking = net.marking ∧
      ((∀ p ∈ net.places, p.type.spec? ≠ none) → net.Indistinguishable net') ∧
      (∀ (f : Format) (text : String), (∀ v ∈ (ofNet net).values, v.Proper) →
        f.write? (ofNet net).doc = some text → f.Restores text (ofNet net).doc →
          f.read? text = some (ofNet net) ∧ netOfText f text = .ok net') ∧
      (∃ text, Format.json.write? (ofNet net).doc = some text ∧
        ((ofNet net).doc.toJson.levels ≤ Json.maxDepth →
          Format.json.Restores text (ofNet net).doc)) ∧
      ((∃ text, Format.ron.write? (ofNet net).doc = some text) ↔
        (ofNet net).doc.levels ≤ Ron.maxLevels) := by
  obtain ⟨net', hbuild, hw, hunlinked⟩ := build_ofNet h.wellFormed
  have hrebuilds : net.Rebuilds net' := .of_unlinked_eq hw.keyed hunlinked
  exact ⟨net', hbuild, hrebuilds.ofNet_eq, hrebuilds.marking_eq,
    fun ht => indistinguishable_of_outline (hrebuilds.outline_eq h.wellFormed.keyed ht),
    fun f text => netOfText_of_restores hbuild, ⟨_, rfl, Format.restores_json⟩,
    Format.exists_write?_ron_iff⟩

def sample : Net :=
  .ofNodes "sample"
    [⟨"p", Bag.ofList [.int 0], .kind .int, ["t"], ["t"]⟩, ⟨"done", Bag.empty, .any, ["t"], []⟩]
    [⟨"t", ⟨"x < limit"⟩, [("p", .var "x")],
    [("p", .formula ⟨"x + 1"⟩), ("done", .value .dot)]⟩] (Table.empty.insert "limit" (.int 3))

theorem description_round_trip_sample : sample.Built ∧ ∃ net', (ofNet sample).build = .ok net' ∧
    sample.Indistinguishable net' ∧ netOfText .json (ofNet sample).doc.json = .ok net' ∧
    netOfText .ron ((ofNet sample).doc.ronAt 0) = .ok net' := by
  have hbuilt : sample.Built := .described (d := .ofNet sample) rfl
  obtain ⟨net', hbuild, -, -, hcalls, htexts, ⟨_, ⟨⟩, hjson⟩, -⟩ := description_round_trip hbuilt
  have htypes : ∀ p ∈ sample.places, p.type.spec? ≠ none :=
    List.forall_mem_cons.2 ⟨Option.some_ne_none _,
      List.forall_mem_singleton.2 (Option.some_ne_none _)⟩
  have hvalues : (ofNet sample).values =
      [.int 3, .bag [(.int 0, 1)], .bag [], .dot] := by decide +kernel
  have hproper : ∀ v ∈ (ofNet sample).values, v.Proper := by
    simp only [hvalues, List.forall_mem_cons]
    exact ⟨trivial, ⟨List.pairwise_singleton _ _, ⟨trivial, Nat.one_pos, by decide⟩, trivial⟩,
      ⟨List.Pairwise.nil, trivial⟩, trivial, List.forall_mem_nil _⟩
  have hlevels : (ofNet sample).doc.toJson.levels ≤ Json.maxDepth := by decide +kernel
  have hwrite : Format.ron.write? (ofNet sample).doc = some ((ofNet sample).doc.ronAt 0) :=
    Format.write?_ron (by decide +kernel)
  have hron : Format.ron.Restores ((ofNet sample).doc.ronAt 0) (ofNet sample).doc :=
    Format.restores_ron (by decide +kernel)
  exact ⟨hbuilt, net', hbuild, hcalls htypes, (htexts .json _ hproper rfl (hjson hlevels)).2,
    (htexts .ron _ hproper hwrite hron).2⟩

end Net

end ColouredPetri
