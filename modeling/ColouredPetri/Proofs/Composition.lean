import ColouredPetri.Proofs.TableKeys
import ColouredPetri.Binding

namespace ColouredPetri

namespace Binding

variable {f g h : Binding} {n : String} {v : Value}

lemma get?_compose : (f.compose g).get? n = ((g.get? n).map f.image).or (f.get? n) := by
  have hfold : f.compose g =
      (g.entries.map fun e => (e.1, f.image e.2)).foldl (fun t e => t.insert e.1 e.2) f := by
    rw [compose, List.foldl_map]
  have hkeys : (g.entries.map fun e => (e.1, f.image e.2)).map Prod.fst = g.keys := by
    rw [List.map_map]
    rfl
  refine Option.ext fun v => ?_
  rw [hfold, Table.get?_foldl_insert (hkeys ▸ g.nodup_keys), hkeys, Table.mem_keys_iff]
  simp only [List.mem_map, Prod.mk.injEq]
  cases hg : g.get? n with
  | none =>
    have hnot : ¬ ∃ e ∈ g.entries, e.1 = n ∧ f.image e.2 = v := by
      rintro ⟨e, he, rfl, -⟩
      rw [Table.get?_eq_some_iff.2 he] at hg
      cases hg
    simp [hnot]
  | some w =>
    have hentry : (∃ e ∈ g.entries, e.1 = n ∧ f.image e.2 = v) ↔ f.image w = v := by
      constructor
      · rintro ⟨e, he, rfl, hv⟩
        rw [Table.get?_eq_some_iff.2 he] at hg
        cases hg
        exact hv
      · exact fun hv => ⟨(n, w), Table.get?_eq_some_iff.1 hg, rfl, hv⟩
    simp [hentry]

lemma apply_compose : (f.compose g).apply n = f.image (g.apply n) := by
  rw [apply, get?_compose, apply]
  cases g.get? n <;> rfl

lemma image_compose : (f.compose g).image v = f.image (g.image v) := by
  cases v with
  | str n => exact apply_compose
  | _ => rfl

lemma image_empty : image Table.empty v = v := by cases v <;> rfl

lemma compose_assoc : f.compose (g.compose h) = (f.compose g).compose h := by
  refine Table.ext_get? fun n => ?_
  simp only [get?_compose]
  cases h.get? n with
  | none => rfl
  | some v => exact congrArg some image_compose.symm

lemma empty_compose : compose Table.empty f = f := by
  refine Table.ext_get? fun n => ?_
  rw [get?_compose]
  cases f.get? n with
  | none => rfl
  | some v => exact congrArg some image_empty

lemma compose_empty : f.compose Table.empty = f := rfl

lemma mem_keys_compose : n ∈ (f.compose g).keys ↔ n ∈ f.keys ∨ n ∈ g.keys := by
  simp only [← Table.contains_iff, Table.contains, get?_compose]
  cases g.get? n <;> simp

lemma apply_of_mem (h : (n, v) ∈ f.entries) : f.apply n = v := by
  rw [apply, Table.get?_eq_some_iff.2 h]
  rfl

lemma apply_of_notMem (h : n ∉ f.keys) : f.apply n = .str n := by
  cases hn : f.get? n with
  | none =>
    rw [apply, hn]
    rfl
  | some v => exact absurd (Table.mem_keys_iff.2 ⟨v, hn⟩) h

theorem compose_as_maps (f g h : Binding) :
    (∀ n v, (n, v) ∈ f.entries → f.apply n = v) ∧ (∀ n, n ∉ f.keys → f.apply n = .str n) ∧
    (∀ n, (f.compose g).apply n = match g.apply n with
      | .str m => f.apply m
      | v => v) ∧
    f.compose (g.compose h) = (f.compose g).compose h ∧
    compose Table.empty f = f ∧ f.compose Table.empty = f ∧
    ∀ n, n ∈ (f.compose g).keys ↔ n ∈ f.keys ∨ n ∈ g.keys := by
  refine ⟨fun _ _ => apply_of_mem, fun _ => apply_of_notMem, fun n => ?_, compose_assoc,
    empty_compose, compose_empty, fun _ => mem_keys_compose⟩
  rw [apply_compose]
  cases g.apply n <;> rfl

def moved : Binding := Table.ofList [("x", .str "a"), ("y", .str "b"), ("a", .int 2)]

theorem compose_as_maps_moved :
    (single "a" (.int 1)).apply "a" = .int 1 ∧ (single "a" (.int 1)).apply "b" = .str "b" ∧
      ["x", "y", "a", "b"].map ((single "a" (.int 1)).compose moved).apply =
        [.int 1, .str "b", .int 2, .str "b"] := by
  obtain ⟨hbound, hunbound, -⟩ := compose_as_maps (single "a" (.int 1)) moved Table.empty
  exact ⟨hbound "a" (.int 1) (by decide), hunbound "b" (by decide), by decide⟩

end Binding

end ColouredPetri
