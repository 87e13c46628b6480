import ColouredPetri.Description.Storage
import ColouredPetri.Proofs.Descriptions.Decoding

namespace ColouredPetri

namespace Nested

variable {τ : Type} {room : Nat}

lemma room_of_within {parts : List τ} {xs : List (Nested τ)}
    (h : within 1 room parts = some xs) : ∀ y ∈ xs, y.room < room := by
  rw [within, Option.ite_none_right_eq_some] at h
  obtain ⟨hroom, ⟨⟩⟩ := h
  exact List.forall_mem_map.2 fun _ _ => Nat.sub_lt hroom Nat.one_pos

lemma room_of_namedWithin {parts : List (String × τ)} {xs : List (String × Nested τ)}
    (h : namedWithin 1 room parts = some xs) : ∀ y ∈ xs, y.2.room < room := by
  rw [namedWithin, Option.ite_none_right_eq_some] at h
  obtain ⟨hroom, ⟨⟩⟩ := h
  exact List.forall_mem_map.2 fun _ _ => Nat.sub_lt hroom Nat.one_pos

lemma room_of_optionalWithin {parts : List (Option τ)} {xs : List (String × Nested τ)}
    (h : optionalWithin 1 room parts = some (xs.map fun e => some e.2)) :
    ∀ y ∈ xs, y.2.room < room := by
  rw [optionalWithin, Option.ite_none_right_eq_some, Option.some.injEq] at h
  obtain ⟨hroom, h⟩ := h
  intro y hy
  have hmem : some y.2 ∈ xs.map fun e => some e.2 := List.mem_map_of_mem hy
  rw [← h, List.mem_map] at hmem
  obtain ⟨_ | p, -, hp⟩ := hmem
  · cases hp
  · rw [← Option.some.inj hp]
    exact Nat.sub_lt hroom Nat.one_pos

end Nested

namespace Format

def Restores (f : Format) (text : String) (d : Doc) : Prop :=
  match f with
  | json => ∃ j, Json.ofText? text = some j ∧ Json.nestedView.Shows d ⟨j, Json.maxDepth⟩
  | ron => ∃ x, Ron.ofText? text = some x ∧
      (Ron.view x.1.explicitNames).Shows d ⟨x.2, Ron.maxLevels⟩

end Format

namespace Json

lemma room_of_variant {x y : Nested Json} {n : String}
    (h : nestedVariant? x = some (n, some y)) : y.room < x.room := by
  rw [nestedVariant?] at h
  split at h
  · cases h
  · split at h
    · cases h
    · next hroom =>
      cases h
      exact Nat.sub_lt (Nat.pos_of_ne_zero hroom) Nat.one_pos
  · cases h

lemma room_of_record {x : Nested Json} {names : List String} {xs : List (String × Nested Json)}
    (h : nestedView.record? "" names x = some (xs.map fun e => some e.2)) :
    ∀ y ∈ xs, y.2.room < x.room := by
  obtain ⟨parts, -, hparts⟩ := Option.bind_eq_some_iff.1 h
  exact Nested.room_of_optionalWithin hparts

mutual

lemma nesting_le_room : ∀ {d : Doc} {x : Nested Json}, nestedView.Shows d x → d.nesting ≤ x.room + 1
  | .bool _, _, _ => Nat.zero_le _
  | .int _, _, _ => Nat.zero_le _
  | .str _, _, _ => Nat.zero_le _
  | .list items, x, ⟨xs, hx, hxs⟩ => by
    obtain ⟨parts, -, hparts⟩ := Option.bind_eq_some_iff.1 hx
    exact Nat.le_succ_of_le (itemsNesting_le_room hxs (Nested.room_of_within hparts))
  | .tuple items, x, ⟨xs, hx, hxs⟩ => by
    obtain ⟨parts, -, hparts⟩ := Option.bind_eq_some_iff.1 hx
    exact Nat.le_succ_of_le (itemsNesting_le_room hxs (Nested.room_of_within hparts))
  | .map members, x, ⟨xs, hx, hxs⟩ => by
    obtain ⟨parts, -, hparts⟩ := Option.bind_eq_some_iff.1 hx
    exact Nat.le_succ_of_le (membersNesting_le_room hxs (Nested.room_of_namedWithin hparts))
  | .record fields, x, ⟨xs, hx, hxs⟩ =>
    Nat.le_succ_of_le (membersNesting_le_room hxs (room_of_record (hx "")))
  | .name _, x, _ => Nat.succ_le_succ (Nat.zero_le _)
  | .variant _ content, x, ⟨y, _, hx, rfl, hz⟩ =>
    Nat.succ_le_succ ((nesting_le_room hz).trans (room_of_variant hx))
  | .variantRecord _ fields, x, ⟨y, xs, hx, hy, hxs⟩ =>
    Nat.succ_le_succ ((membersNesting_le_room hxs (room_of_record hy)).trans
      (room_of_variant hx).le)

lemma itemsNesting_le_room : ∀ {l : List Doc} {xs : List (Nested Json)} {n : Nat},
    View.ShowsItems nestedView l xs → (∀ y ∈ xs, y.room < n) → Doc.itemsNesting l ≤ n
  | [], _, _, _, _ => Nat.zero_le _
  | d :: l, _, n, ⟨y, ys, rfl, hy, hys⟩, hn => by
    obtain ⟨hd, hl⟩ := List.forall_mem_cons.1 hn
    exact max_le ((nesting_le_room hy).trans hd) (itemsNesting_le_room hys hl)

lemma membersNesting_le_room : ∀ {l : List (String × Doc)} {xs : List (String × Nested Json)}
    {n : Nat}, View.ShowsMembers nestedView l xs → (∀ y ∈ xs, y.2.room < n) →
      Doc.membersNesting l ≤ n
  | [], _, _, _, _ => Nat.zero_le _
  | (k, d) :: l, _, n, ⟨y, ys, rfl, hy, hys⟩, hn => by
    obtain ⟨hd, hl⟩ := List.forall_mem_cons.1 hn
    exact max_le ((nesting_le_room hy).trans hd) (membersNesting_le_room hys hl)

end

end Json

lemma Ron.nameless_view : (Ron.view false).Nameless where
  int {type x n} h := by
    obtain ⟨x, room⟩ := x
    cases x with
    | int m t =>
      simp only [view, Ron.int?, Bool.or_self, Option.ite_none_right_eq_some] at h ⊢
      exact ⟨Bool.or_eq_true_iff.2 (.inl h.1), h.2⟩
    | _ => cases h
  record {name names x parts} h := by
    obtain ⟨x, room⟩ := x
    cases x with
    | record given fields =>
      simp only [view, Ron.record?, Option.bind_eq_bind, Option.bind_eq_some_iff,
        Option.ite_none_right_eq_some, Bool.and_eq_true_iff] at h ⊢
      obtain ⟨found, hfound, ⟨hname, hfits⟩, hparts⟩ := h
      refine ⟨found, hfound, ⟨?_, hfits⟩, hparts⟩
      simp only [nameFits, Bool.not_false, Bool.and_true, Bool.or_self] at hname ⊢
      rw [hname, Bool.or_true]
    | _ => cases h

namespace Format

variable {d : NetDescription} {e : Doc} {text : String} {f : Format}

lemma nesting_of_restores (hw : f.write? d.doc = some text) (hr : f.Restores text d.doc) :
    d.doc.nesting ≤ Decode.maxDepth := by
  cases f with
  | json =>
    obtain ⟨j, -, hj⟩ := hr
    exact Json.nesting_le_room hj
  | ron =>
    obtain ⟨hlevels, -⟩ := Option.ite_none_right_eq_some.1 hw
    exact (Doc.membersNesting_le_levels _).trans hlevels

lemma write?_ron (h : e.levels ≤ Ron.maxLevels) : ron.write? e = some (e.ronAt 0) := if_pos h

lemma exists_write?_ron_iff : (∃ text, ron.write? e = some text) ↔ e.levels ≤ Ron.maxLevels := by
  constructor
  · rintro ⟨text, htext⟩
    exact (Option.ite_none_right_eq_some.1 htext).1
  · exact fun h => ⟨_, write?_ron h⟩

lemma read?_of_restores (hd : ∀ v ∈ d.values, v.Proper) (hw : f.write? d.doc = some text)
    (hr : f.Restores text d.doc) : f.read? text = some d := by
  have hn := nesting_of_restores hw hr
  cases f with
  | json =>
    obtain ⟨j, htext, hj⟩ := hr
    rw [read?, htext]
    exact Decode.reads_net hn hd _ hj
  | ron =>
    obtain ⟨x, htext, hx⟩ := hr
    rw [read?, htext]
    exact Decode.reads_net hn hd _ hx

end Format

end ColouredPetri
