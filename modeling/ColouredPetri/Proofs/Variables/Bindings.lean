import Mathlib.Data.List.Forall2
import Mathlib.Data.List.Nodup
import Mathlib.Data.Set.Function
import ColouredPetri.Proofs.Extensions
import ColouredPetri.Proofs.TableKeys

namespace ColouredPetri

namespace Binding

variable {f : String → String} {P : String → Prop} {a a' b b' c c' : Binding} {n : String} {v : Value}

def withNames (f : String → String) (b : Binding) : Binding :=
  Table.ofList (b.entries.map fun e => (f e.1, e.2))

structure Renames (f : String → String) (P : String → Prop) (b b' : Binding) : Prop where
  bound : ∀ n v, b.get? n = some v → P n
  get?_eq : ∀ n, P n → b'.get? (f n) = b.get? n
  image : ∀ n v, b'.get? n = some v → ∃ m, P m ∧ f m = n

lemma Renames.unique (h : Renames f P b b') (h' : Renames f P b c') : b' = c' := by
  have himp : ∀ {d d' : Binding}, Renames f P b d → Renames f P b d' → ∀ {n v},
      d.get? n = some v → d'.get? n = some v := by
    intro d d' hd hd' n v hv
    obtain ⟨m, hm, rfl⟩ := hd.image n v hv
    rw [hd'.get?_eq m hm, ← hd.get?_eq m hm, hv]
  exact Table.ext_get? fun n => Option.ext fun v => ⟨himp h h', himp h' h⟩

lemma get?_withNames (hf : Set.InjOn f {n | n ∈ b.keys}) :
    (b.withNames f).get? n = some v ↔ ∃ m, f m = n ∧ b.get? m = some v := by
  have hnodup : ((b.entries.map fun e => (f e.1, e.2)).map Prod.fst).Nodup := by
    rw [List.map_map, show Prod.fst ∘ (fun e : String × Value => (f e.1, e.2)) = f ∘ Prod.fst from rfl,
      ← List.map_map]
    exact b.nodup_keys.map_on fun m hm n hn => @hf m hm n hn
  simp only [withNames, Table.get?_ofList hnodup, List.mem_map, Prod.mk.injEq, Table.get?_eq_some_iff]
  constructor
  · rintro ⟨e, he, hn, rfl⟩
    exact ⟨e.1, hn, he⟩
  · rintro ⟨m, hn, hm⟩
    exact ⟨(m, v), hm, hn, rfl⟩

lemma renames_withNames (hf : Set.InjOn f {n | P n}) (hb : ∀ n v, b.get? n = some v → P n) :
    Renames f P b (b.withNames f) := by
  have hkeys : ∀ n ∈ b.keys, P n := fun n hn =>
    (Table.mem_keys_iff.1 hn).elim fun v hv => hb n v hv
  have hget : ∀ {n v}, (b.withNames f).get? n = some v ↔ ∃ m, f m = n ∧ b.get? m = some v :=
    get?_withNames (hf.mono hkeys)
  refine ⟨hb, fun n hn => Option.ext fun v => hget.trans ⟨?_, fun h => ⟨n, rfl, h⟩⟩, fun n v h => ?_⟩
  · rintro ⟨m, hm, hv⟩
    rwa [← hf (hb m v hv) hn hm]
  · obtain ⟨m, hm, hv⟩ := hget.1 h
    exact ⟨m, hb m v hv, hm⟩

lemma renames_empty : Renames f P Table.empty Table.empty := ⟨nofun, fun _ _ => rfl, nofun⟩

lemma renames_single (hf : Set.InjOn f {n | P n}) (hn : P n) :
    Renames f P (single n v) (single (f n) v) := by
  have hdom : ∀ {k m w}, (single k v).get? m = some w → m = k := by
    intro k m w h
    by_contra hm
    rw [single, Table.get?_insert_of_ne hm] at h
    cases h
  refine ⟨fun m w h => hdom h ▸ hn, fun m hm => ?_, fun m w h => ⟨n, hn, (hdom h).symm⟩⟩
  by_cases h : m = n
  · rw [h, get?_single, get?_single]
  · rw [single, single, Table.get?_insert_of_ne h,
      Table.get?_insert_of_ne fun heq => h (hf hm hn heq)]
    rfl

def Compatible (b c : Binding) : Prop :=
  ∀ n v w, b.get? n = some v → c.get? n = some w → v = w

lemma agree_of_compatible (h : ∀ w, b.get? n = some w → w = v) :
    ∃ c, b.agree n v = .ok c ∧ c.get? n = some v ∧ ∀ m, m ≠ n → c.get? m = b.get? m := by
  rw [agree]
  cases hw : b.get? n with
  | none => exact ⟨_, rfl, Table.get?_insert_self v, fun m hm => Table.get?_insert_of_ne hm v⟩
  | some w =>
    obtain rfl := h w hw
    exact ⟨b, if_pos rfl, hw, fun _ _ => rfl⟩

lemma foldlM_agree_of_compatible {l : List (String × Value)} (hl : (l.map Prod.fst).Nodup)
    (h : ∀ e ∈ l, ∀ w, b.get? e.1 = some w → w = e.2) :
    ∃ c, l.foldlM (fun acc e => acc.agree e.1 e.2) b = .ok c ∧
      ∀ n v, c.get? n = some v ↔ b.get? n = some v ∨ (n, v) ∈ l := by
  induction l generalizing b with
  | nil => exact ⟨b, rfl, fun n v => by simp⟩
  | cons e l ih =>
    obtain ⟨hnot, hl⟩ := List.nodup_cons.1 hl
    obtain ⟨he, h⟩ := List.forall_mem_cons.1 h
    obtain ⟨a, ha, hself, hother⟩ := agree_of_compatible he
    have hne : ∀ d ∈ l, d.1 ≠ e.1 := fun d hd heq => hnot (heq ▸ List.mem_map_of_mem hd)
    obtain ⟨c, hc, hget⟩ := ih hl fun d hd w hw => h d hd w (hother d.1 (hne d hd) ▸ hw)
    refine ⟨c, by rw [List.foldlM_cons, ha]; exact hc, fun n v => (hget n v).trans ?_⟩
    rw [List.mem_cons, ← or_assoc]
    refine or_congr_left ?_
    by_cases hn : n = e.1
    · subst hn
      rw [hself, Option.some.injEq, Prod.ext_iff, and_iff_right rfl, eq_comm]
      exact (or_iff_right_of_imp fun h => he v h).symm
    · rw [hother n hn, or_iff_left fun h => hn (congrArg Prod.fst h)]

lemma merge_of_compatible (h : Compatible b c) :
    ∃ a, b.merge c = .ok a ∧ ∀ n v, a.get? n = some v ↔ b.get? n = some v ∨ c.get? n = some v := by
  obtain ⟨a, ha, hget⟩ := foldlM_agree_of_compatible c.nodup_keys fun e he w hw =>
    h e.1 w e.2 hw (Table.get?_eq_some_iff.2 he)
  exact ⟨a, ha, fun n v => (hget n v).trans (or_congr_right Table.get?_eq_some_iff.symm)⟩

lemma compatible_of_merge (h : b.merge c = .ok a) : Compatible b c := by
  obtain ⟨hb, hc⟩ := merge_extends h
  exact fun n v w hv hw => Option.some.inj ((hb n v hv).symm.trans (hc n w hw))

lemma Renames.compatible_iff (hb : Renames f P b b') (hc : Renames f P c c') :
    Compatible b c ↔ Compatible b' c' := by
  constructor
  · intro h n v w hv hw
    obtain ⟨m, hm, rfl⟩ := hb.image n v hv
    exact h m v w (hb.get?_eq m hm ▸ hv) (hc.get?_eq m hm ▸ hw)
  · intro h n v w hv hw
    have hn := hb.bound n v hv
    exact h (f n) v w ((hb.get?_eq n hn).trans hv) ((hc.get?_eq n hn).trans hw)

lemma merge_renames (hb : Renames f P b b') (hc : Renames f P c c') :
    (∃ a a', b.merge c = .ok a ∧ b'.merge c' = .ok a' ∧ Renames f P a a') ∨
      ∃ e e', b.merge c = .error e ∧ b'.merge c' = .error e' := by
  by_cases h : Compatible b c
  · left
    obtain ⟨a, ha, hget⟩ := merge_of_compatible h
    obtain ⟨a', ha', hget'⟩ := merge_of_compatible ((hb.compatible_iff hc).1 h)
    refine ⟨a, a', ha, ha', fun n v hv => ?_, fun n hn => Option.ext fun v => ?_, fun n v hv => ?_⟩
    · exact ((hget n v).1 hv).elim (hb.bound n v) (hc.bound n v)
    · rw [hget', hget, hb.get?_eq n hn, hc.get?_eq n hn]
    · exact ((hget' n v).1 hv).elim (hb.image n v) (hc.image n v)
  · right
    have h' := mt (hb.compatible_iff hc).2 h
    cases hm : b.merge c with
    | ok a => exact absurd (compatible_of_merge hm) h
    | error e =>
      cases hm' : b'.merge c' with
      | ok a => exact absurd (compatible_of_merge hm') h'
      | error e' => exact ⟨e, e', rfl, rfl⟩

abbrev RenamesAll (f : String → String) (P : String → Prop) (l l' : List Binding) : Prop :=
  List.Forall₂ (Renames f P) l l'

lemma combineOnto_renames {parts parts' : List (List Binding)} (hb : Renames f P b b')
    (h : List.Forall₂ (RenamesAll f P) parts parts') :
    RenamesAll f P (combineOnto b parts) (combineOnto b' parts') := by
  induction h generalizing b b' with
  | nil => exact .cons hb .nil
  | cons hpart _ ih =>
    refine List.rel_flatMap hpart fun c c' hc => ?_
    obtain ⟨a, a', ha, ha', hr⟩ | ⟨e, e', he, he'⟩ := merge_renames hb hc
    · rw [ha, ha']
      exact ih hr
    · rw [he, he']
      exact .nil

lemma combine_renames {parts parts' : List (List Binding)}
    (h : List.Forall₂ (RenamesAll f P) parts parts') :
    RenamesAll f P (combine parts) (combine parts') :=
  combineOnto_renames renames_empty h

end Binding

end ColouredPetri
