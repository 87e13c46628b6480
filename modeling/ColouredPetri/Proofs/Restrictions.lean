import ColouredPetri.Proofs.Extensions
import ColouredPetri.Proofs.TableKeys

namespace ColouredPetri

namespace KeySet

variable {κ : Type} [Ord κ] [Std.TransOrd κ] [Std.LawfulEqOrd κ] {k : κ}

lemma mem_keys_foldl_add {l : List κ} {s : KeySet κ} :
    k ∈ (l.foldl add s).keys ↔ k ∈ s.keys ∨ k ∈ l := by
  induction l generalizing s with
  | nil => simp
  | cons a l ih => rw [List.foldl_cons, ih, mem_keys_add, or_assoc, List.mem_cons]

lemma mem_keys_ofList {l : List κ} : k ∈ (ofList l).keys ↔ k ∈ l := by
  rw [ofList, mem_keys_foldl_add]
  exact or_iff_right List.not_mem_nil

lemma mem_keys_union {s t : KeySet κ} : k ∈ (s.union t).keys ↔ k ∈ s.keys ∨ k ∈ t.keys :=
  mem_keys_foldl_add

lemma ext {s t : KeySet κ} (h : ∀ k, k ∈ s.keys ↔ k ∈ t.keys) : s = t := by
  refine Table.ext_get? fun k => Option.ext fun u => ?_
  have hk := h k
  simp only [Table.mem_keys_iff] at hk
  constructor
  · exact fun hu => (hk.1 ⟨u, hu⟩).elim fun _ h => h
  · exact fun hu => (hk.2 ⟨u, hu⟩).elim fun _ h => h

lemma ofList_keys (s : KeySet κ) : ofList s.keys = s := ext fun _ => mem_keys_ofList

end KeySet

namespace Binding

variable {b f g : Binding} {S T : String → Prop} {name : String} {v : Value}

def Restricts (g b : Binding) (S : String → Prop) : Prop :=
  ∀ name v, g.get? name = some v ↔ S name ∧ b.get? name = some v

lemma Restricts.congr (h : g.Restricts b S) (hS : ∀ name, S name ↔ T name) : g.Restricts b T :=
  fun name v => (h name v).trans (and_congr_left fun _ => hS name)

lemma empty_restricts : Restricts Table.empty b fun _ => False :=
  fun _ _ => ⟨nofun, fun h => h.1.elim⟩

lemma single_restricts (h : b.get? name = some v) :
    (single name v).Restricts b fun other => other = name := by
  intro other w
  by_cases hn : other = name
  · subst hn
    rw [get?_single, h, and_iff_right rfl]
  · rw [single, Table.get?_insert_of_ne hn]
    constructor
    · intro hw
      cases hw
    · rintro ⟨h, -⟩
      exact absurd h hn

lemma Restricts.get?_eq (h : g.Restricts b S) (hn : S name) : g.get? name = b.get? name :=
  Option.ext fun v => (h name v).trans (and_iff_right hn)

lemma Restricts.eq (h : g.Restricts b S) (hb : ∀ name ∈ b.keys, S name) : g = b := by
  refine Table.ext_get? fun name => Option.ext fun v => (h name v).trans ?_
  exact and_iff_right_of_imp fun hv => hb name (Table.mem_keys_iff.2 ⟨v, hv⟩)

lemma agree_restricts (hf : f.Restricts b S) (hv : b.get? name = some v) :
    ∃ h, f.agree name v = .ok h ∧ h.Restricts b fun other => S other ∨ other = name := by
  rw [agree]
  cases hk : f.get? name with
  | none =>
    refine ⟨_, rfl, fun other w => ?_⟩
    by_cases ho : other = name
    · subst ho
      rw [Table.get?_insert_self, hv]
      exact (and_iff_right (.inr rfl)).symm
    · rw [Table.get?_insert_of_ne ho, hf]
      exact and_congr_left fun _ => (or_iff_left ho).symm
  | some known =>
    -- what is known comes from the same binding
    obtain ⟨hs, hb⟩ := (hf name known).1 hk
    obtain rfl := Option.some.inj (hb.symm.trans hv)
    refine ⟨f, if_pos rfl, hf.congr fun other => ⟨.inl, ?_⟩⟩
    rintro (h | rfl)
    · exact h
    · exact hs

lemma foldlM_agree_restricts {l : List (String × Value)} (hf : f.Restricts b S)
    (hl : ∀ e ∈ l, b.get? e.1 = some e.2) :
    ∃ h, l.foldlM (fun acc e => acc.agree e.1 e.2) f = .ok h ∧
      h.Restricts b fun name => S name ∨ name ∈ l.map Prod.fst := by
  induction l generalizing f S with
  | nil => exact ⟨f, rfl, hf.congr fun name => by simp⟩
  | cons e l ih =>
    obtain ⟨he, hl⟩ := List.forall_mem_cons.1 hl
    obtain ⟨k, hk, hrestricts⟩ := agree_restricts hf he
    obtain ⟨h, hh, hrest⟩ := ih hrestricts hl
    refine ⟨h, ?_, hrest.congr fun name => ?_⟩
    · rw [List.foldlM_cons, hk]
      exact hh
    · rw [List.map_cons, List.mem_cons, or_assoc]

lemma merge_restricts (hf : f.Restricts b S) (hg : g.Restricts b T) :
    ∃ h, f.merge g = .ok h ∧ h.Restricts b fun name => S name ∨ T name := by
  have hentries : ∀ e ∈ g.entries, b.get? e.1 = some e.2 := fun e he =>
    ((hg e.1 e.2).1 (Table.get?_eq_some_iff.2 he)).2
  obtain ⟨h, hh, hrestricts⟩ := foldlM_agree_restricts hf hentries
  refine ⟨h, hh, fun name v => (hrestricts name v).trans ?_⟩
  -- the names of the entries are the names in `T` that `b` binds
  refine and_congr_left fun hv => or_congr_right ?_
  rw [← Table.keys, Table.mem_keys_iff]
  constructor
  · rintro ⟨w, hw⟩
    exact ((hg name w).1 hw).1
  · exact fun ht => ⟨v, (hg name v).2 ⟨ht, hv⟩⟩

lemma combineOnto_restricts {parts : List (List Binding)} {names : List (String → Prop)}
    (hf : f.Restricts b S)
    (hp : List.Forall₂ (fun part T => ∃ g ∈ part, g.Restricts b T) parts names) :
    ∃ h ∈ combineOnto f parts, h.Restricts b fun name => S name ∨ ∃ T ∈ names, T name := by
  induction hp generalizing f S with
  | nil => exact ⟨f, List.mem_singleton_self f, hf.congr fun name => by simp⟩
  | @cons part T parts names hpart _ ih =>
    obtain ⟨g, hg, hrestricts⟩ := hpart
    obtain ⟨k, hk, hk'⟩ := merge_restricts hf hrestricts
    obtain ⟨h, hh, hrest⟩ := ih hk'
    refine ⟨h, List.mem_flatMap.2 ⟨g, hg, ?_⟩, hrest.congr fun name => ?_⟩
    · rw [hk]
      exact hh
    · rw [List.exists_mem_cons_iff, or_assoc]

lemma combine_restricts {parts : List (List Binding)} {names : List (String → Prop)}
    (hp : List.Forall₂ (fun part T => ∃ g ∈ part, g.Restricts b T) parts names) :
    ∃ h ∈ combine parts, h.Restricts b fun name => ∃ T ∈ names, T name := by
  obtain ⟨h, hh, hr⟩ := combineOnto_restricts empty_restricts hp
  exact ⟨h, hh, hr.congr fun name => or_iff_right id⟩

end Binding

end ColouredPetri
