import ColouredPetri.Binding.Merge
import ColouredPetri.Proofs.Outcomes
import ColouredPetri.Proofs.TableSums

namespace ColouredPetri

namespace Binding

def Extends (b g : Binding) : Prop := ∀ name v, g.get? name = some v → b.get? name = some v

lemma extends_refl (b : Binding) : b.Extends b := fun _ _ h => h

lemma Extends.trans {b g h : Binding} (hb : b.Extends g) (hg : g.Extends h) : b.Extends h :=
  fun name v hv => hb name v (hg name v hv)

lemma get?_single (name : String) (v : Value) : (single name v).get? name = some v := by
  rw [single, Table.get?_insert, if_pos Std.ReflCmp.compare_self]

lemma agree_extends {f h : Binding} {name : String} {v : Value} (hs : f.agree name v = .ok h) :
    h.Extends f ∧ h.get? name = some v := by
  rw [agree] at hs
  split at hs
  · next hn =>
    cases hs
    refine ⟨fun other w hw => ?_, ?_⟩
    · rw [Table.get?_insert, if_neg, hw]
      intro heq
      rw [Table.compare_eq_iff.1 heq, hn] at hw
      cases hw
    · rw [Table.get?_insert, if_pos Std.ReflCmp.compare_self]
  · next known hk =>
    split at hs
    · next hv =>
      cases hs
      exact ⟨extends_refl _, hk.trans (congrArg some hv)⟩
    · cases hs

lemma foldlM_agree_extends {l : List (String × Value)} {f h : Binding}
    (hs : l.foldlM (fun acc e => acc.agree e.1 e.2) f = .ok h) :
    h.Extends f ∧ ∀ e ∈ l, h.get? e.1 = some e.2 := by
  induction l generalizing f with
  | nil =>
    cases hs
    exact ⟨extends_refl h, nofun⟩
  | cons e l ih =>
    rw [List.foldlM_cons, except_bind_eq_ok] at hs
    obtain ⟨k, hk, hs⟩ := hs
    obtain ⟨hkf, hke⟩ := agree_extends hk
    obtain ⟨hh, hl⟩ := ih hs
    exact ⟨hh.trans hkf, List.forall_mem_cons.2 ⟨hh _ _ hke, hl⟩⟩

lemma merge_extends {f g h : Binding} (hs : f.merge g = .ok h) : h.Extends f ∧ h.Extends g := by
  obtain ⟨hf, hg⟩ := foldlM_agree_extends hs
  exact ⟨hf, fun name v hv => hg (name, v) (Table.get?_eq_some_iff.1 hv)⟩

lemma combineOnto_extends {parts : List (List Binding)} {f h : Binding}
    (hs : h ∈ combineOnto f parts) :
    h.Extends f ∧ ∀ part ∈ parts, ∃ g ∈ part, h.Extends g := by
  induction parts generalizing f with
  | nil =>
    rw [List.mem_singleton.1 hs]
    exact ⟨extends_refl f, nofun⟩
  | cons part parts ih =>
    obtain ⟨g, hg, hs⟩ := List.mem_flatMap.1 hs
    split at hs
    · next k hk =>
      obtain ⟨hkf, hkg⟩ := merge_extends hk
      obtain ⟨hh, hrest⟩ := ih hs
      exact ⟨hh.trans hkf, List.forall_mem_cons.2 ⟨⟨g, hg, hh.trans hkg⟩, hrest⟩⟩
    · cases hs

lemma combine_extends {parts : List (List Binding)} {h : Binding} (hs : h ∈ combine parts) :
    ∀ part ∈ parts, ∃ g ∈ part, h.Extends g :=
  (combineOnto_extends hs).2

lemma mem_choices {α : Type} {parts : List (List α)} {l : List α} :
    l ∈ choices parts ↔ List.Forall₂ (fun a part => a ∈ part) l parts := by
  induction parts generalizing l with
  | nil => rw [List.forall₂_nil_right_iff, choices, List.mem_singleton]
  | cons part parts ih =>
    rw [choices, List.mem_flatMap, List.forall₂_cons_right_iff]
    simp only [List.mem_map, ih]
    constructor
    · rintro ⟨a, ha, m, hm, rfl⟩
      exact ⟨a, m, ha, hm, rfl⟩
    · rintro ⟨a, m, ha, hm, rfl⟩
      exact ⟨a, ha, m, hm, rfl⟩

end Binding

end ColouredPetri
