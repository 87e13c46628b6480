import ColouredPetri.Proofs.Descriptions.JsonTexts
import ColouredPetri.Proofs.Descriptions.Texts
import Mathlib.Data.List.Nodup

namespace ColouredPetri

namespace Doc

mutual

def Distinct : Doc → Prop
  | bool _ => True
  | int _ => True
  | str _ => True
  | list items => DistinctItems items
  | tuple items => DistinctItems items
  | map members => DistinctMembers members
  | record fields => (fields.map Prod.fst).Nodup ∧ DistinctMembers fields
  | name _ => True
  | variant _ content => Distinct content
  | variantRecord _ fields => (fields.map Prod.fst).Nodup ∧ DistinctMembers fields

def DistinctItems : List Doc → Prop
  | [] => True
  | d :: l => Distinct d ∧ DistinctItems l

def DistinctMembers : List (String × Doc) → Prop
  | [] => True
  | (_, d) :: l => Distinct d ∧ DistinctMembers l

end

lemma distinctItems_iff {l : List Doc} : DistinctItems l ↔ ∀ d ∈ l, d.Distinct := by
  induction l with
  | nil => exact iff_of_true trivial (List.forall_mem_nil _)
  | cons d l ih => rw [DistinctItems, ih, List.forall_mem_cons]

lemma distinctMembers_iff {l : List (String × Doc)} :
    DistinctMembers l ↔ ∀ e ∈ l, e.2.Distinct := by
  induction l with
  | nil => exact iff_of_true trivial (List.forall_mem_nil _)
  | cons e l ih => rw [DistinctMembers, ih, List.forall_mem_cons]

mutual

lemma written_toJson : ∀ d : Doc, d.toJson.Written
  | bool _ => trivial
  | int _ => trivial
  | str _ => trivial
  | list items => written_toJsonItems items
  | tuple items => written_toJsonItems items
  | map members => written_toJsonMembers members
  | record fields => written_toJsonMembers fields
  | name _ => trivial
  | variant _ content => ⟨written_toJson content, trivial⟩
  | variantRecord _ fields => ⟨written_toJsonMembers fields, trivial⟩

lemma written_toJsonItems : ∀ l : List Doc, Json.WrittenItems (toJsonItems l)
  | [] => trivial
  | d :: l => ⟨written_toJson d, written_toJsonItems l⟩

lemma written_toJsonMembers : ∀ l : List (String × Doc), Json.WrittenMembers (toJsonMembers l)
  | [] => trivial
  | (_, d) :: l => ⟨written_toJson d, written_toJsonMembers l⟩

end

end Doc

namespace Json

mutual

def levels : Json → Nat
  | list items => itemLevels items + 1
  | object members => memberLevels members + 1
  | _ => 0

def itemLevels : List Json → Nat
  | [] => 0
  | v :: l => max (levels v) (itemLevels l)

def memberLevels : List (String × Json) → Nat
  | [] => 0
  | (_, v) :: l => max (levels v) (memberLevels l)

end

section Fields

variable {τ : Type} {l : List (String × τ)}

lemma filter_name (hl : (l.map Prod.fst).Nodup) {e : String × τ} (he : e ∈ l) :
    (l.filter fun f => f.1 == e.1) = [e] := by
  induction l with
  | nil => cases he
  | cons d l ih =>
    obtain ⟨hd, hl⟩ := List.nodup_cons.1 hl
    rcases List.mem_cons.1 he with rfl | he
    · have hnone : (l.filter fun f => f.1 == e.1) = [] := List.filter_eq_nil_iff.2 fun f hf h =>
        hd (List.mem_map.2 ⟨f, hf, eq_of_beq h⟩)
      rw [List.filter_cons, if_pos (beq_self_eq_true e.1), hnone]
    · have hne : ¬(d.1 == e.1) = true := fun h => hd (List.mem_map.2 ⟨e, he, (eq_of_beq h).symm⟩)
      rw [List.filter_cons, if_neg hne, ih hl he]

lemma mapM_names {f : String → Option (Option τ)} (h : ∀ e ∈ l, f e.1 = some (some e.2)) :
    (l.map Prod.fst).mapM f = some (l.map fun e => some e.2) := by
  induction l with
  | nil => rfl
  | cons e l ih =>
    obtain ⟨he, hl⟩ := List.forall_mem_cons.1 h
    rw [List.map_cons, List.mapM_cons, he, ih hl]
    rfl

lemma pickFields_names (hl : (l.map Prod.fst).Nodup) :
    pickFields (l.map Prod.fst) l = some (l.map fun e => some e.2) := by
  rw [pickFields]
  refine mapM_names fun e he => ?_
  rw [filter_name hl he]

end Fields

def nestedMembers (room : Nat) (l : List (String × Json)) : List (String × Nested Json) :=
  l.map fun e => (e.1, ⟨e.2, room⟩)

lemma toJsonMembers_names (l : List (String × Doc)) :
    (Doc.toJsonMembers l).map Prod.fst = l.map Prod.fst := by
  induction l with
  | nil => rfl
  | cons e l ih => rw [Doc.toJsonMembers, List.map_cons, List.map_cons, ih]

lemma record?_toJsonMembers {l : List (String × Doc)} (hl : (l.map Prod.fst).Nodup) {room : Nat}
    (hroom : 1 ≤ room) (name : String) :
    nestedView.record? name (l.map Prod.fst) ⟨object (Doc.toJsonMembers l), room⟩ =
      some ((nestedMembers (room - 1) (Doc.toJsonMembers l)).map fun e => some e.2) := by
  rw [← toJsonMembers_names] at hl ⊢
  change (pickFields _ _).bind (Nested.optionalWithin 1 room) = _
  rw [pickFields_names hl, Option.bind_some, Nested.optionalWithin, if_pos hroom, nestedMembers,
    List.map_map, List.map_map]
  rfl

mutual

lemma shows_toJson : ∀ {d : Doc} {room : Nat}, d.Distinct → d.toJson.levels ≤ room →
    nestedView.Shows d ⟨d.toJson, room⟩
  | .bool _, _, _, _ => rfl
  | .int _, _, _, _ => fun _ => rfl
  | .str _, _, _, _ => rfl
  | .list items, room, hd, hr =>
    ⟨_, if_pos (Nat.one_le_of_lt hr), showsItems_toJson hd (Nat.le_sub_one_of_lt hr)⟩
  | .tuple items, room, hd, hr =>
    ⟨_, if_pos (Nat.one_le_of_lt hr), showsItems_toJson hd (Nat.le_sub_one_of_lt hr)⟩
  | .map members, room, hd, hr =>
    ⟨_, if_pos (Nat.one_le_of_lt hr), showsMembers_toJson hd (Nat.le_sub_one_of_lt hr)⟩
  | .record fields, room, ⟨hnames, hd⟩, hr =>
    ⟨_, record?_toJsonMembers hnames (Nat.one_le_of_lt hr),
      showsMembers_toJson hd (Nat.le_sub_one_of_lt hr)⟩
  | .name _, _, _, _ => ⟨none, rfl, rfl⟩
  | .variant _ _, room, hd, hr => by
    obtain ⟨hcontent, -⟩ := max_le_iff.1 (Nat.le_sub_one_of_lt hr)
    exact ⟨_, _, if_neg (Nat.ne_of_gt (Nat.one_le_of_lt hr)), rfl, shows_toJson hd hcontent⟩
  | .variantRecord _ _, room, ⟨hnames, hd⟩, hr => by
    obtain ⟨hfields, -⟩ := max_le_iff.1 (Nat.le_sub_one_of_lt hr)
    exact ⟨_, _, if_neg (Nat.ne_of_gt (Nat.one_le_of_lt hr)),
      record?_toJsonMembers hnames (Nat.one_le_of_lt hfields) "",
      showsMembers_toJson hd (Nat.le_sub_one_of_lt hfields)⟩

lemma showsItems_toJson : ∀ {l : List Doc} {room : Nat}, Doc.DistinctItems l →
    itemLevels (Doc.toJsonItems l) ≤ room →
      View.ShowsItems nestedView l ((Doc.toJsonItems l).map fun v => ⟨v, room⟩)
  | [], _, _, _ => rfl
  | d :: l, room, ⟨hd, hl⟩, hr => by
    obtain ⟨hrd, hrl⟩ := max_le_iff.1 hr
    exact ⟨_, _, rfl, shows_toJson hd hrd, showsItems_toJson hl hrl⟩

lemma showsMembers_toJson : ∀ {l : List (String × Doc)} {room : Nat}, Doc.DistinctMembers l →
    memberLevels (Doc.toJsonMembers l) ≤ room →
      View.ShowsMembers nestedView l (nestedMembers room (Doc.toJsonMembers l))
  | [], _, _, _ => rfl
  | (k, d) :: l, room, ⟨hd, hl⟩, hr => by
    obtain ⟨hrd, hrl⟩ := max_le_iff.1 hr
    exact ⟨_, _, rfl, shows_toJson hd hrd, showsMembers_toJson hl hrl⟩

end

end Json

section Distinct

mutual

lemma Value.distinct_doc : ∀ v : Value, v.doc.Distinct
  | .dot => trivial
  | .bool _ => trivial
  | .int _ => trivial
  | .str _ => trivial
  | .tuple items => Value.distinct_docs items
  | .bag counts => Value.distinct_countDocs counts

lemma Value.distinct_docs : ∀ l : List Value, Doc.DistinctItems (Value.docs l)
  | [] => trivial
  | v :: l => ⟨Value.distinct_doc v, Value.distinct_docs l⟩

lemma Value.distinct_countDocs : ∀ l : List (Value × Nat), Doc.DistinctItems (Value.countDocs l)
  | [] => trivial
  | (v, _) :: l => ⟨⟨Value.distinct_doc v, trivial, trivial⟩, Value.distinct_countDocs l⟩

end

mutual

lemma Arc.distinct_doc : ∀ a : Arc, a.doc.Distinct
  | .value v => v.distinct_doc
  | .var _ => trivial
  | .formula _ => trivial
  | .multi parts => Arc.distinct_docs parts
  | .tuple parts => Arc.distinct_docs parts
  | .test inner => Arc.distinct_doc inner
  | .inhibitor inner _ =>
    ⟨(by decide : ["inner", "condition"].Nodup), Arc.distinct_doc inner, trivial, trivial⟩
  | .flush inner => Arc.distinct_doc inner

lemma Arc.distinct_docs : ∀ l : List Arc, Doc.DistinctItems (Arc.docs l)
  | [] => trivial
  | a :: l => ⟨Arc.distinct_doc a, Arc.distinct_docs l⟩

end

lemma TypeSpec.distinct_doc : ∀ s : TypeSpec, s.doc.Distinct
  | any => trivial
  | kind _ => trivial
  | oneOf values => Value.distinct_docs values

lemma PlaceDescription.distinct_doc (d : PlaceDescription) : d.doc.Distinct :=
  ⟨(by decide : ["name", "tokens", "token_type"].Nodup), trivial,
    Value.distinct_countDocs d.tokens.pairs, d.type.distinct_doc, trivial⟩

lemma distinct_arcsDoc (l : List (String × Arc)) : (arcsDoc l).Distinct :=
  Doc.distinctItems_iff.2 (List.forall_mem_map.2 fun e _ => ⟨trivial, e.2.distinct_doc, trivial⟩)

lemma TransitionDescription.distinct_doc (d : TransitionDescription) : d.doc.Distinct :=
  ⟨(by decide : ["name", "guard", "inputs", "outputs"].Nodup), trivial, trivial,
    distinct_arcsDoc d.inputs, distinct_arcsDoc d.outputs, trivial⟩

lemma NetDescription.distinct_doc (d : NetDescription) : d.doc.Distinct :=
  ⟨(by decide : ["name", "globals", "places", "transitions"].Nodup), trivial,
    Doc.distinctMembers_iff.2 (List.forall_mem_map.2 fun e _ => e.2.distinct_doc),
    Doc.distinctItems_iff.2 (List.forall_mem_map.2 fun e _ => e.distinct_doc),
    Doc.distinctItems_iff.2 (List.forall_mem_map.2 fun e _ => e.distinct_doc), trivial⟩

end Distinct

lemma Format.restores_json {d : NetDescription} (h : d.doc.toJson.levels ≤ Json.maxDepth) :
    json.Restores d.doc.json d.doc :=
  ⟨d.doc.toJson, Json.ofText?_text d.doc.written_toJson, Json.shows_toJson d.distinct_doc h⟩

end ColouredPetri
