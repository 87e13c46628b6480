import ColouredPetri.Files.Tree
import ColouredPetri.Proofs.DescriptionRoundTrip

namespace ColouredPetri

namespace FileTree

variable {t t' : FileTree} {path other text : String} {p q : List String}

lemma directories_setFile : (t.setFile p text).directories = t.directories := by
  rw [setFile]
  split <;> rfl

lemma resolve?_setFile : (t.setFile p text).resolve? other = t.resolve? other := by
  have henter : (t.setFile p text).enter = t.enter := by
    funext directory name
    simp only [enter, isDirectory, directories_setFile]
    rfl
  rw [resolve?, resolve?, henter]

lemma lookup_replaced (files : List (List String × String)) :
    (files.map fun e => if e.1 == p then (p, text) else e).lookup q =
      if q = p then (files.lookup p).map fun _ => text else files.lookup q := by
  induction files with
  | nil => simp
  | cons e files ih =>
    obtain ⟨name, old⟩ := e
    by_cases hname : name = p
    · subst hname
      rcases eq_or_ne q name with rfl | hq
      · simp only [List.map_cons, List.lookup_cons, beq_self_eq_true, if_true, Option.map_some]
      · rw [if_neg hq] at ih ⊢
        simp only [List.map_cons, List.lookup_cons, beq_self_eq_true, if_true, beq_false_of_ne hq,
          ih]
    · have hkept : (name == p) = false := beq_false_of_ne hname
      have hback : (p == name) = false := beq_false_of_ne (Ne.symm hname)
      simp only [List.map_cons, List.lookup_cons, hkept, hback, Bool.false_eq_true, if_false]
      rcases eq_or_ne q name with rfl | hq
      · simp only [beq_self_eq_true, if_neg hname]
      · simp only [beq_false_of_ne hq, ih]

lemma lookup_setFile :
    (t.setFile p text).files.lookup q = if q = p then some text else t.files.lookup q := by
  rw [setFile]
  split
  · next h =>
    obtain ⟨old, hold⟩ := Option.isSome_iff_exists.1 h
    rw [lookup_replaced, hold, Option.map_some]
  · next h =>
    have hnone : t.files.lookup p = none := Option.not_isSome_iff_eq_none.1 h
    rw [List.lookup_append]
    split
    · next hq => rw [hq, hnone, Option.none_or, List.lookup_cons_self]
    · next hq =>
      rw [List.lookup_cons, beq_false_of_ne hq, List.lookup_nil, Option.or_none]

theorem read?_of_write (h : t.write path text = some t') : t'.read? path = some text ∧
    ∀ other, t.resolve? other ≠ t.resolve? path → t'.read? other = t.read? other := by
  rw [write] at h
  split at h
  · cases h
  · next p hp =>
    obtain ⟨hplain, ⟨⟩⟩ := Option.ite_none_left_eq_some.1 h
    have hfile : Path.isDirectoryLike path = false := by
      simp only [Bool.or_eq_true, not_or, Bool.not_eq_true] at hplain
      exact hplain.1.1
    refine ⟨?_, fun other hother => ?_⟩
    · rw [read?, resolve?_setFile, hp]
      simp only [hfile, lookup_setFile, if_true, Bool.false_eq_true, if_false]
    · rw [read?, read?, resolve?_setFile]
      split
      · rfl
      · next q hq =>
        have hne : q ≠ p := fun e => hother (by rw [hq, hp, e])
        rw [lookup_setFile, if_neg hne]

lemma run_read : (access.read? path).run t = (t.read? path, t) := rfl

lemma run_write : (access.write path text).run t =
    ((t.write path text).isSome, (t.write path text).getD t) := by
  cases h : t.write path text <;>
    simp only [access, StateT.run_bind, StateT.run_get, pure_bind, h] <;> rfl

lemma run_writeAny {written : Option String}
    (h : (access.writeAny path written).run t = (true, t')) :
    ∃ text, written = some text ∧ t.write path text = some t' := by
  rw [FileAccess.writeAny, StateT.run_bind, run_write] at h
  obtain ⟨hdone, hstate⟩ := Prod.ext_iff.1 h
  obtain ⟨hwrite, hwritten⟩ := Bool.and_eq_true_iff.1 hdone
  obtain ⟨text, rfl⟩ := Option.isSome_iff_exists.1 hwritten
  obtain ⟨t₁, ht₁⟩ := Option.isSome_iff_exists.1 hwrite
  rw [Option.getD_some] at ht₁
  have hstate : (t.write path text).getD t = t' := hstate
  rw [ht₁, Option.getD_some] at hstate
  exact ⟨text, rfl, ht₁.trans (congrArg some hstate)⟩

end FileTree

namespace Net

open NetDescription

variable {net : Net} {t t' : FileTree} {path : String}

/-- A net that was saved is loaded again as the net of its description. -/
theorem load_saved (h : net.Built) (hproper : ∀ v ∈ (ofNet net).values, v.Proper)
    (hsave : (net.save FileTree.access path).run t = (true, t'))
    (hrestores : ∀ text, (Format.ofPath path).write? (ofNet net).doc = some text →
      (Format.ofPath path).Restores text (ofNet net).doc) :
    ∃ net', (ofNet net).build = .ok net' ∧
      (Net.load FileTree.access path).run t' = (.ok net', t') := by
  obtain ⟨net', hbuild, -⟩ := build_ofNet h.wellFormed
  refine ⟨net', hbuild, ?_⟩
  obtain ⟨text, htext, hwrite⟩ := FileTree.run_writeAny hsave
  have hnet := (netOfText_of_restores hbuild hproper htext (hrestores text htext)).2
  rw [load, StateT.run_bind, FileTree.run_read, (FileTree.read?_of_write hwrite).1]
  exact congrArg (·, t') hnet

end Net

end ColouredPetri
