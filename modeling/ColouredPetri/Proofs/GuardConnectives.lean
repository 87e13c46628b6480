import ColouredPetri.Proofs.EditAtomicity
import ColouredPetri.Proofs.Expressions.Closing
import ColouredPetri.Proofs.Nets.CopySteps
import ColouredPetri.Proofs.Variables.Formulas

/-! Connectives on the texts of guards. Parentheses around a text group its expression, so that a
connective of two texts is read as the connective of their expressions, and the shortcuts for the text
that is not read have the value that the connective would have. -/

namespace ColouredPetri

open Lexer ColouredPetri.Parser

lemma Text.trim_enclosed {c d : Char} (hc : isBlank c = false) (hd : isBlank d = false)
    (l : List Char) : trim (c :: (l ++ [d])) = c :: (l ++ [d]) := by
  have hback : (c :: (l ++ [d])).reverse = d :: (l.reverse ++ [c]) := by simp
  rw [trim, List.dropWhile_cons_of_neg (by rw [hc]; nofun), hback,
    List.dropWhile_cons_of_neg (by rw [hd]; nofun)]
  simp

namespace Formula

variable {f g : Formula} {a b : Expr} {s : Scope}

def grouped (f : Formula) : List Char := '(' :: (f.source.toList ++ [')'])

lemma grouped_spelled (h : Expr.parse f.source = .ok a) {n : Nat} (hn : f.grouped.length ≤ n) :
    Spelled (nested n) f.grouped a 7 := by
  refine spelled_grouped (Expr.parse_eq_ok_iff.1 h) ?_
  simp only [grouped, List.length_cons, List.length_append] at hn
  omega

lemma parse_ofText {T l : List Char} {e : Expr} {K : Nat} {c : Char}
    (hs : Spelled (nested T.length) T e K) (hT : T = c :: (l ++ [')']))
    (hc : Text.isBlank c = false) : Expr.parse (ofText (String.ofList T)).source = .ok e := by
  -- A text that begins with a sign or a parenthesis and ends with one has no blanks around it.
  rw [ofText, Text.trimText, String.toList_ofList]
  have htrim : Text.trim T = T := by
    rw [hT]
    exact Text.trim_enclosed hc rfl l
  rw [htrim]
  exact Expr.parse_of_spelled hs

lemma parse_connective {w : List Char} {e : Expr} {K : Nat}
    (hs : Spelled (nested (Expr.spaced f.grouped w g.grouped).length)
      (Expr.spaced f.grouped w g.grouped) e K) :
    Expr.parse (ofText (String.ofList (Expr.spaced f.grouped w g.grouped))).source = .ok e := by
  refine parse_ofText (c := '(')
    (l := f.source.toList ++ ')' :: ' ' :: (w ++ ' ' :: '(' :: g.source.toList)) hs ?_ rfl
  simp [grouped, Expr.spaced]

lemma parse_and (ha : Expr.parse f.source = .ok a) (hb : Expr.parse g.source = .ok b)
    (hf : f.isTrue = false) (hg : g.isTrue = false) :
    Expr.parse (f.and g).source = .ok (.and a b) := by
  have htext : "(" ++ f.source ++ ") and (" ++ g.source ++ ")" =
      String.ofList (Expr.spaced f.grouped "and".toList g.grouped) :=
    String.toList_inj.1 (by simp [grouped, Expr.spaced])
  have hlen := length_spaced (le_refl (Expr.spaced f.grouped "and".toList g.grouped).length)
  rw [and, hf, hg, htext]
  exact parse_connective (spelled_and reads_nested (grouped_spelled ha hlen.1)
    (grouped_spelled hb hlen.2) (by decide) (by decide))

lemma parse_or (ha : Expr.parse f.source = .ok a) (hb : Expr.parse g.source = .ok b)
    (hf : f.isTrue = false) (hg : g.isTrue = false) :
    Expr.parse (f.or g).source = .ok (.or a b) := by
  have htext : "(" ++ f.source ++ ") or (" ++ g.source ++ ")" =
      String.ofList (Expr.spaced f.grouped "or".toList g.grouped) :=
    String.toList_inj.1 (by simp [grouped, Expr.spaced])
  have hlen := length_spaced (le_refl (Expr.spaced f.grouped "or".toList g.grouped).length)
  rw [or, hf, hg, htext]
  exact parse_connective (spelled_or reads_nested (grouped_spelled ha hlen.1)
    (grouped_spelled hb hlen.2) (by decide))

lemma parse_not (ha : Expr.parse f.source = .ok a) : Expr.parse f.not.source = .ok (.not a) := by
  have htext : "not (" ++ f.source ++ ")" = String.ofList ("not".toList ++ ' ' :: f.grouped) :=
    String.toList_inj.1 (by simp [grouped])
  have hspelled : Spelled (nested ("not".toList ++ ' ' :: f.grouped).length) f.grouped a 7 :=
    grouped_spelled ha (by simp only [List.length_append, List.length_cons]; omega)
  rw [not, htext]
  exact parse_ofText (c := 'n') (l := "ot (".toList ++ f.source.toList)
    (spelled_not reads_nested hspelled (by decide)) (by simp [grouped]) rfl

lemma holds_of_isTrue (h : f.isTrue = true) : f.holds s = .ok true := by
  rw [holds, eval, if_pos h]
  rfl

lemma holds_of_parse (h : Expr.parse f.source = .ok a) :
    f.holds s = (a.eval s).map Value.truthy := by
  rw [holds, eval_of_parse h]
  cases a.eval s <;> rfl

lemma holds_and (ha : Expr.parse f.source = .ok a) (hb : Expr.parse g.source = .ok b) :
    (f.and g).holds s = do if ← f.holds s then g.holds s else return false := by
  cases hf : f.isTrue with
  | true =>
    rw [holds_of_isTrue hf, and, if_pos hf]
    rfl
  | false =>
    cases hg : g.isTrue with
    | true =>
      rw [holds_of_isTrue hg, and, if_neg (Bool.eq_false_iff.1 hf), if_pos hg]
      rcases f.holds s with e | _ | _ <;> rfl
    | false =>
      rw [holds_of_parse (parse_and ha hb hf hg), holds_of_parse ha, holds_of_parse hb, Expr.eval]
      cases a.eval s with
      | error e => rfl
      | ok x => cases hx : x.truthy <;> simp [Except.map, hx, bind, Except.bind, pure, Except.pure]

lemma holds_or (ha : Expr.parse f.source = .ok a) (hb : Expr.parse g.source = .ok b) {x y : Bool}
    (hx : f.holds s = .ok x) (hy : g.holds s = .ok y) : (f.or g).holds s = .ok (x || y) := by
  cases hf : f.isTrue with
  | true =>
    cases (holds_of_isTrue hf).symm.trans hx
    rw [or, hf]
    exact holds_of_isTrue (f := truth) rfl
  | false =>
    cases hg : g.isTrue with
    | true =>
      cases (holds_of_isTrue hg).symm.trans hy
      rw [or, hf, hg, Bool.or_true, Bool.or_true]
      exact holds_of_isTrue (f := truth) rfl
    | false =>
      rw [holds_of_parse ha] at hx
      rw [holds_of_parse hb] at hy
      rw [holds_of_parse (parse_or ha hb hf hg), Expr.eval]
      cases hv : a.eval s with
      | error e =>
        rw [hv] at hx
        cases hx
      | ok v =>
        rw [hv] at hx
        cases hx
        cases ht : v.truthy with
        | true => simp [Except.map, ht]
        | false => simpa [ht] using hy

lemma holds_not (ha : Expr.parse f.source = .ok a) :
    f.not.holds s = (f.holds s).map (!·) := by
  rw [holds_of_parse (parse_not ha), holds_of_parse ha, Expr.eval]
  cases a.eval s <;> rfl

def Parses (f : Formula) : Prop := ∃ e, Expr.parse f.source = .ok e

lemma Parses.and (hf : f.Parses) (hg : g.Parses) : (f.and g).Parses := by
  obtain ⟨a, ha⟩ := hf
  obtain ⟨b, hb⟩ := hg
  cases htf : f.isTrue with
  | true => exact ⟨b, by rw [Formula.and, if_pos htf, hb]⟩
  | false =>
    cases htg : g.isTrue with
    | true => exact ⟨a, by rw [Formula.and, if_neg (Bool.eq_false_iff.1 htf), if_pos htg, ha]⟩
    | false => exact ⟨_, parse_and ha hb htf htg⟩

lemma Parses.or (hf : f.Parses) (hg : g.Parses) : (f.or g).Parses := by
  obtain ⟨a, ha⟩ := hf
  obtain ⟨b, hb⟩ := hg
  cases ht : f.isTrue || g.isTrue with
  | true => exact ⟨.lit (.bool true), by rw [Formula.or, if_pos ht]; rfl⟩
  | false =>
    obtain ⟨htf, htg⟩ := Bool.or_eq_false_iff.1 ht
    exact ⟨_, parse_or ha hb htf htg⟩

lemma holds_and_iff (hf : f.Parses) (hg : g.Parses) :
    (f.and g).holds s = .ok true ↔ f.holds s = .ok true ∧ g.holds s = .ok true := by
  obtain ⟨a, ha⟩ := hf
  obtain ⟨b, hb⟩ := hg
  rw [holds_and ha hb]
  rcases f.holds s with e | _ | _
  · exact ⟨nofun, nofun⟩
  · exact ⟨nofun, nofun⟩
  · exact ⟨fun h => ⟨rfl, h⟩, And.right⟩

/-- The connectives of two formulas are read as the connectives of their expressions, up to the
shortcuts for the text `True`, and hold like these. -/
structure Connects (f g : Formula) (a b : Expr) : Prop where
  parse_and : f.isTrue = false → g.isTrue = false → Expr.parse (f.and g).source = .ok (.and a b)
  parse_or : f.isTrue = false → g.isTrue = false → Expr.parse (f.or g).source = .ok (.or a b)
  parse_not : Expr.parse f.not.source = .ok (.not a)
  and_parses : (f.and g).Parses
  or_parses : (f.or g).Parses
  holds_and : ∀ s, (f.and g).holds s = do if ← f.holds s then g.holds s else return false
  holds_or : ∀ s x y, f.holds s = .ok x → g.holds s = .ok y → (f.or g).holds s = .ok (x || y)
  holds_not : ∀ s, f.not.holds s = (f.holds s).map (!·)

lemma connects_of_parse (ha : Expr.parse f.source = .ok a) (hb : Expr.parse g.source = .ok b) :
    f.Connects g a b where
  parse_and := parse_and ha hb
  parse_or := parse_or ha hb
  parse_not := parse_not ha
  and_parses := Parses.and ⟨a, ha⟩ ⟨b, hb⟩
  or_parses := Parses.or ⟨a, ha⟩ ⟨b, hb⟩
  holds_and := fun _ => holds_and ha hb
  holds_or := fun _ _ _ => holds_or ha hb
  holds_not := fun _ => holds_not ha

end Formula

namespace Net

variable {net : Net} {target : String} {sources : List String} {ts : List Transition}

def Conjoins (guard : Formula) (guards : List Formula) : Prop :=
  (∀ g ∈ guards, g.Parses) →
    guard.Parses ∧ ∀ s, guard.holds s = .ok true ↔ ∀ g ∈ guards, g.holds s = .ok true

lemma jointGuard_conjoins : Conjoins (jointGuard ts) (ts.map Transition.guard) := by
  -- induction on the guards, from the first one on: what is joined so far is one of them
  intro hts
  have hjoin : ∀ acc : Formula, acc.Parses →
      (ts.foldl (fun acc t => acc.and t.guard) acc).Parses ∧
        ∀ s, (ts.foldl (fun acc t => acc.and t.guard) acc).holds s = .ok true ↔
          acc.holds s = .ok true ∧ ∀ g ∈ ts.map Transition.guard, g.holds s = .ok true := by
    induction ts with
    | nil => exact fun acc hacc => ⟨hacc, fun s => (and_iff_left nofun).symm⟩
    | cons t ts ih =>
      intro acc hacc
      obtain ⟨ht, hts⟩ := List.forall_mem_cons.1 hts
      obtain ⟨hparses, hholds⟩ := ih hts (acc.and t.guard) (hacc.and ht)
      refine ⟨hparses, fun s => ?_⟩
      rw [List.foldl_cons, hholds, Formula.holds_and_iff hacc ht, and_assoc, List.map_cons,
        List.forall_mem_cons]
  obtain ⟨hparses, hholds⟩ := hjoin .truth ⟨_, rfl⟩
  exact ⟨hparses, fun s => (hholds s).trans (and_iff_right (Formula.holds_of_isTrue rfl))⟩

lemma transition_mergeTransitions (h : net.WellFormed) (hfind : sources.mapM net.transition = .ok ts)
    (hne : ts ≠ []) (hn : target ∉ net.names) : ∃ net' t,
      mergeTransitions target sources net = .ok () net' ∧ net'.transition target = .ok t ∧
        t.guard = jointGuard ts := by
  have hw := (keeps_addBare target (jointGuard ts)).of_ok h (addBare_eq h.keyed (jointGuard ts) hn)
  have hbare : (net.withTransition (.bare target (jointGuard ts))).transition? target =
      some (.bare target (jointGuard ts)) :=
    hw.transition?_of_mem (mem_withTransition.2 (.inr rfl))
  have hmerge := mergeTransitions_eq h hfind hne hn
  -- no arc that is added changes the guard
  generalize (fun side => (groups (ts.flatMap (·.arcs side))).map
    (jointConnection id fun _ => target)) = conns at hmerge
  have hfound : ((net.withTransition (.bare target (jointGuard ts))).connected conns).transition?
      target = some (((Transition.bare target (jointGuard ts)).withArcs .input
        (newArcs (conns .input) target)).withArcs .output (newArcs (conns .output) target)) := by
    have hk : ((net.withTransition (.bare target (jointGuard ts))).connectAll .input
        (conns .input)).Keyed := keyed_withNodes
    rw [connected, transition?_connectAll hk, transition?_connectAll hw.keyed, hbare]
    rfl
  exact ⟨_, _, hmerge, transition_eq_ok_iff.2 hfound, rfl⟩

theorem guards_connected :
    (∀ (f g : Formula) (a b : Expr), Expr.parse f.source = .ok a → Expr.parse g.source = .ok b →
      f.Connects g a b) ∧
    ∀ (net : Net) (target : String) (sources : List String), net.Built →
      net.Mergeable net.hasTransition target sources →
        ∃ ts net' t, sources.mapM net.transition = .ok ts ∧
          mergeTransitions target sources net = .ok () net' ∧ net'.transition target = .ok t ∧
            Conjoins t.guard (ts.map Transition.guard) := by
  refine ⟨fun f g a b => Formula.connects_of_parse, fun net target sources h hm => ?_⟩
  obtain ⟨hne, hknown, hfresh⟩ := hm
  obtain ⟨ts, hfind⟩ := mapM_transition_eq_ok hknown
  obtain ⟨net', t, hmerge, ht, hguard⟩ := transition_mergeTransitions h.wellFormed hfind
    (ne_nil_of_mapM_ok hfind hne) (h.wellFormed.keyed.hasNode_eq_false_iff.1 hfresh)
  exact ⟨ts, net', t, hfind, hmerge, ht, hguard ▸ jointGuard_conjoins⟩

def confluence : Net :=
  .ofNodes "confluence"
    [⟨"p", .ofList [.int 1], .any, [], ["t", "u", "v"]⟩]
    [⟨"t", ⟨"x > 0"⟩, [("p", .var "x")], []⟩, ⟨"u", .truth, [("p", .var "x")], []⟩,
      ⟨"v", ⟨"x == 1 or x / 0 == 2"⟩, [("p", .var "x")], []⟩] Table.empty

theorem guards_connected_confluence : confluence.Built ∧
    confluence.Mergeable confluence.hasTransition "w" ["t", "u", "v"] ∧
    (∃ a b, Expr.parse "x > 0" = .ok a ∧ Expr.parse "x == 1 or x / 0 == 2" = .ok b ∧
      Formula.Connects ⟨"x > 0"⟩ ⟨"x == 1 or x / 0 == 2"⟩ a b) ∧
    ∃ net' t, mergeTransitions "w" ["t", "u", "v"] confluence = .ok () net' ∧
      net'.transition "w" = .ok t ∧ t.guard.Parses ∧
        t.guard.holds (net'.scope (Binding.single "x" (.int 1))) = .ok true := by
  have hbuilt : confluence.Built := .described (d := .ofNet confluence) rfl
  have hmergeable : confluence.Mergeable confluence.hasTransition "w" ["t", "u", "v"] := by
    refine ⟨List.cons_ne_nil _ _, ?_, rfl⟩
    decide
  obtain ⟨ts, net', t, hfind, hmerge, ht, hguard⟩ := guards_connected.2 _ _ _ hbuilt hmergeable
  have hts : ["t", "u", "v"].mapM confluence.transition = .ok confluence.transitions := rfl
  cases hts.symm.trans hfind
  have hparses : ∀ g ∈ confluence.transitions.map Transition.guard, g.Parses :=
    List.forall_mem_cons.2 ⟨⟨_, rfl⟩, List.forall_mem_cons.2 ⟨⟨_, rfl⟩,
      List.forall_mem_singleton.2 ⟨_, rfl⟩⟩⟩
  obtain ⟨hread, hholds⟩ := hguard hparses
  have hpositive : Expr.parse "x > 0" = .ok (.compare .gt (.name "x") (.lit (.int 0))) := by rfl
  have heither : Expr.parse "x == 1 or x / 0 == 2" =
      .ok (.or (.compare .eq (.name "x") (.lit (.int 1)))
        (.compare .eq (.arith .div (.name "x") (.lit (.int 0))) (.lit (.int 2)))) := by rfl
  have hconnects := guards_connected.1 ⟨"x > 0"⟩ ⟨"x == 1 or x / 0 == 2"⟩ _ _ hpositive heither
  refine ⟨hbuilt, hmergeable, ⟨_, _, hpositive, heither, hconnects⟩, net', t, hmerge, ht, hread,
    (hholds _).2 ?_⟩
  have hx : (net'.scope (Binding.single "x" (.int 1))).lookup? "x" = some (.int 1) := by rfl
  refine List.forall_mem_cons.2 ⟨?_, List.forall_mem_cons.2
    ⟨Formula.holds_of_isTrue rfl, List.forall_mem_singleton.2 ?_⟩⟩
  · rw [Formula.holds_of_parse hpositive]
    simp only [Expr.eval, hx]
    rfl
  · rw [Formula.holds_of_parse heither]
    simp only [Expr.eval, hx]
    rfl

end Net

end ColouredPetri
