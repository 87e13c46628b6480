import ColouredPetri.Net.Merge
import ColouredPetri.Proofs.Nets.ArcEdits
import Mathlib.Data.List.Induction

namespace ColouredPetri

namespace Arc

lemma validateAll_eq_ok_iff {l : List Arc} :
    validateAll l = .ok () ↔ ∀ a ∈ l, a.validate = .ok () := by
  induction l with
  | nil => exact iff_of_true rfl nofun
  | cons a l ih =>
    rw [validateAll, List.forall_mem_cons]
    cases ha : a.validate <;> simp [ih]

lemma validate_multi_iff {l : List Arc} :
    (multi l).validate = .ok () ↔ l ≠ [] ∧ ∀ a ∈ l, a.validate = .ok () := by
  cases l with
  | nil => simp [validate]
  | cons a l =>
    rw [validate.eq_def, ← validateAll_eq_ok_iff]
    simp

lemma allInputAllowed_iff {l : List Arc} :
    allInputAllowed l = true ↔ ∀ a ∈ l, a.inputAllowed = true := by
  induction l with
  | nil => exact iff_of_true rfl nofun
  | cons a l ih => rw [allInputAllowed, Bool.and_eq_true, List.forall_mem_cons, ih]

end Arc

section Lookup

variable {α : Type} {k : String} {a : α} {e : String × α} {l : List (String × α)}

lemma lookup_cons_eq : (e :: l).lookup k = if k = e.1 then some e.2 else l.lookup k := by
  rw [List.lookup_cons]
  by_cases h : k = e.1
  · simp [h]
  · simp [h, beq_eq_false_iff_ne.2 h]

lemma lookup_of_mem (hl : (l.map Prod.fst).Nodup) (h : e ∈ l) : l.lookup e.1 = some e.2 := by
  obtain ⟨b, hb⟩ := Option.isSome_iff_exists.1 (lookup_isSome_iff.2 (List.mem_map_of_mem h))
  obtain ⟨front, back, rfl, -⟩ := List.lookup_eq_some_iff.1 hb
  have hmem : (e.1, b) ∈ front ++ (e.1, b) :: back :=
    List.mem_append_right _ List.mem_cons_self
  rw [hb, List.inj_on_of_nodup_map hl h hmem rfl]

lemma filter_key (hl : (l.map Prod.fst).Nodup) :
    l.filter (·.1 == k) = (l.lookup k).toList.map fun a => (k, a) := by
  induction l with
  | nil => rfl
  | cons e l ih =>
    obtain ⟨hnot, hl⟩ := List.nodup_cons.1 hl
    rw [lookup_cons_eq, List.filter_cons, ih hl]
    by_cases hk : k = e.1
    · subst hk
      simp [lookup_eq_none_iff_notMem.2 hnot]
    · simp [hk, Ne.symm hk]

end Lookup

namespace Net

section Groups

variable {α : Type} {k key : String} {a : α} {l : List (String × α)} {g : List (String × List α)}

lemma keys_groupInsert : (groupInsert key a g).map Prod.fst = insertName (g.map Prod.fst) key := by
  induction g with
  | nil => rfl
  | cons e g ih =>
    rw [groupInsert]
    split
    · next hk => simp [insertName, beq_iff_eq.1 hk]
    · next hk =>
      have hne : key ≠ e.1 := fun h => hk (beq_iff_eq.2 h.symm)
      rw [List.map_cons, ih, insertName, insertName]
      by_cases hm : key ∈ g.map Prod.fst <;> simp_all

lemma lookup_groupInsert : (groupInsert key a g).lookup k =
    if k = key then some ((g.lookup key).getD [] ++ [a]) else g.lookup k := by
  induction g with
  | nil => rw [groupInsert, lookup_cons_eq]; rfl
  | cons e g ih =>
    rw [groupInsert]
    split
    · next hk =>
      obtain rfl := beq_iff_eq.1 hk
      by_cases h : k = e.1 <;> simp [lookup_cons_eq, h]
    · next hk =>
      have hne : key ≠ e.1 := fun h => hk (beq_iff_eq.2 h.symm)
      by_cases h : k = e.1
      · simp [lookup_cons_eq, h, hne.symm]
      · simp [lookup_cons_eq, h, hne, ih]

def members (key : String) (l : List (String × α)) : List α :=
  (l.filter (·.1 == key)).map Prod.snd

lemma members_append {m : List (String × α)} : members k (l ++ m) = members k l ++ members k m := by
  rw [members, List.filter_append, List.map_append]
  rfl

lemma members_singleton {e : String × α} : members k [e] = if k = e.1 then [e.2] else [] := by
  by_cases h : k = e.1
  · simp [members, h]
  · simp [members, h, Ne.symm h]

lemma groups_append : groups (l ++ [(key, a)]) = groupInsert key a (groups l) := by
  rw [groups, List.foldl_append]
  rfl

lemma groups_nodup : ((groups l).map Prod.fst).Nodup := by
  induction l using List.reverseRecOn with
  | nil => exact List.nodup_nil
  | append_singleton l e ih =>
    rw [groups_append, keys_groupInsert]
    exact insertName_nodup ih _

lemma lookup_groups : (groups l).lookup k = if members k l = [] then none else some (members k l) := by
  induction l using List.reverseRecOn with
  | nil => rfl
  | append_singleton l e ih =>
    rw [groups_append, lookup_groupInsert, members_append, members_singleton]
    by_cases hk : k = e.1
    · subst hk
      rw [if_pos rfl, ih]
      by_cases hm : members e.1 l = [] <;> simp [hm]
    · simp [hk, ih]

lemma mem_groups {e : String × List α} (h : e ∈ groups l) :
    e.2 ≠ [] ∧ e.2 = members e.1 l := by
  have hl := lookup_of_mem groups_nodup h
  rw [lookup_groups] at hl
  split at hl
  · cases hl
  · next hne =>
    have heq := Option.some.inj hl
    exact ⟨heq ▸ hne, heq.symm⟩

lemma mem_of_mem_members (h : a ∈ members k l) : (k, a) ∈ l := by
  obtain ⟨e, he, rfl⟩ := List.mem_map.1 h
  obtain ⟨he, hk⟩ := List.mem_filter.1 he
  exact beq_iff_eq.1 hk ▸ he

end Groups

section Joint

variable {arcs : List Arc}

def jointArc (arcs : List Arc) : Arc :=
  match flatten arcs with
  | [arc] => arc
  | parts => .multi parts

lemma mem_flatten {a : Arc} : a ∈ flatten arcs ↔
    ∃ b ∈ arcs, a ∈ (match b with | .multi parts => parts | _ => [b]) := by
  induction arcs with
  | nil => simp [flatten]
  | cons b arcs ih => cases b <;> simp [flatten, ih]

lemma flatten_ne_nil (hne : arcs ≠ []) (hv : ∀ a ∈ arcs, a.validate = .ok ()) :
    flatten arcs ≠ [] := by
  obtain ⟨a, arcs, rfl⟩ := List.exists_cons_of_ne_nil hne
  obtain ⟨ha, -⟩ := List.forall_mem_cons.1 hv
  cases a with
  | multi parts => simp [flatten, (Arc.validate_multi_iff.1 ha).1]
  | _ => simp [flatten]

lemma joinArcs_eq (hne : flatten arcs ≠ []) : joinArcs arcs = .ok (jointArc arcs) := by
  rw [joinArcs, jointArc]
  rcases hf : flatten arcs with _ | ⟨a, _ | ⟨b, parts⟩⟩
  · exact absurd hf hne
  · rfl
  · rfl

lemma flatten_valid (hv : ∀ a ∈ arcs, a.validate = .ok ()) :
    ∀ a ∈ flatten arcs, a.validate = .ok () := by
  intro a ha
  obtain ⟨b, hb, hab⟩ := mem_flatten.1 ha
  split at hab
  · exact (Arc.validate_multi_iff.1 (hv _ hb)).2 a hab
  · exact List.mem_singleton.1 hab ▸ hv b hb

lemma flatten_allowed (ha : ∀ a ∈ arcs, a.inputAllowed = true) :
    ∀ a ∈ flatten arcs, a.inputAllowed = true := by
  intro a h
  obtain ⟨b, hb, hab⟩ := mem_flatten.1 h
  split at hab
  · exact Arc.allInputAllowed_iff.1 (ha _ hb) a hab
  · exact List.mem_singleton.1 hab ▸ ha b hb

lemma jointArc_valid (hne : arcs ≠ []) (hv : ∀ a ∈ arcs, a.validate = .ok ()) :
    (jointArc arcs).validate = .ok () := by
  have hparts := flatten_valid hv
  rw [jointArc]
  split
  · next arc hf => exact hparts arc (hf ▸ List.mem_singleton_self arc)
  · exact Arc.validate_multi_iff.2 ⟨flatten_ne_nil hne hv, hparts⟩

lemma jointArc_allowed (ha : ∀ a ∈ arcs, a.inputAllowed = true) :
    (jointArc arcs).inputAllowed = true := by
  have hparts := flatten_allowed ha
  rw [jointArc]
  split
  · next arc hf => exact hparts arc (hf ▸ List.mem_singleton_self arc)
  · exact Arc.allInputAllowed_iff.2 hparts

end Joint

end Net

end ColouredPetri
