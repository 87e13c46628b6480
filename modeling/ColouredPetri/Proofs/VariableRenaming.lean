import ColouredPetri.Proofs.Nets.Built
import ColouredPetri.Proofs.Variables.Transitions

/-! Other names for the variables of a transition. If the names stay apart and keep away from the
globals, the renamed transition has the old modes with the new names, and under renamed bindings it is
enabled and moves tokens as before. -/

namespace ColouredPetri

def isPlainName (name : String) : Bool :=
  match name.toList with
  | [] => false
  | c :: r => c.isAlpha && r.all Lexer.isNameChar && !keywords.contains name

lemma isPlainName_iff {n : String} : isPlainName n = true ↔ ∃ c r, n.toList = c :: r ∧
    c.isAlpha = true ∧ r.all Lexer.isNameChar = true ∧ keywords.contains n = false := by
  rw [isPlainName]
  cases n.toList with
  | nil => simp
  | cons c r => simp [and_assoc]

lemma isIdentifier_of_isPlainName {n : String} (h : isPlainName n = true) :
    Lexer.isIdentifier n.toList = true ∧ keywords.contains n = false := by
  obtain ⟨c, r, hn, hc, hr, hk⟩ := isPlainName_iff.1 h
  refine ⟨?_, hk⟩
  rw [hn, Lexer.isIdentifier, Lexer.isNameStart, hc, hr]
  rfl

lemma isWordChar_of_isNameChar {c : Char} (h : Lexer.isNameChar c = true) :
    Text.isWordChar c = true :=
  Text.Reader.forall_ascii (P := fun c => Lexer.isNameChar c = true → Text.isWordChar c = true)
    (by decide +kernel) (Lexer.toNat_lt_of_isNameChar h) h

lemma isVariableName_of_isPlainName {n : String} (h : isPlainName n = true) :
    isVariableName n = true := by
  obtain ⟨c, r, hn, hc, hr, hk⟩ := isPlainName_iff.1 h
  have hword : r.all Text.isWordChar = true :=
    List.all_eq_true.2 fun d hd => isWordChar_of_isNameChar (List.all_eq_true.1 hr d hd)
  rw [isVariableName, hn]
  simp only [hc, hword, hk]
  rfl

/-- A renaming that keeps the variables of a transition apart, gives those that it changes plain
names, and neither changes nor gives the name of a global. -/
structure Transition.Renamable (t : Transition) (globals r : Binding) : Prop where
  injective : Set.InjOn r.rename {n | n ∈ t.vars.keys}
  plain : ∀ n ∈ t.vars.keys, r.rename n ≠ n → isPlainName (r.rename n) = true
  globals : ∀ n ∈ t.vars.keys, r.rename n ≠ n →
    globals.contains n = false ∧ globals.contains (r.rename n) = false

namespace Transition.Renamable

variable {t : Transition} {globals r : Binding}

lemma keepsNames (h : t.Renamable globals r) : KeepsNames r.rename (· ∈ t.vars.keys) := by
  rintro n ⟨hn, hi, hk⟩
  by_cases heq : r.rename n = n
  · rw [heq]
    exact ⟨hi, hk⟩
  · exact isIdentifier_of_isPlainName (h.plain n hn heq)

lemma keepsVariables (h : t.Renamable globals r) : KeepsVariables r.rename (· ∈ t.vars.keys) := by
  intro n hn hv
  by_cases heq : r.rename n = n
  · rw [heq, hv]
  · exact isVariableName_of_isPlainName (h.plain n hn heq)

lemma keepsGlobals (h : t.Renamable globals r) :
    KeepsGlobals r.rename (· ∈ t.vars.keys) globals := by
  intro n hn
  by_cases heq : r.rename n = n
  · rw [heq]
  · obtain ⟨hold, hnew⟩ := h.globals n hn heq
    rw [Option.not_isSome_iff_eq_none.1 (Bool.eq_false_iff.1 hold),
      Option.not_isSome_iff_eq_none.1 (Bool.eq_false_iff.1 hnew)]

end Transition.Renamable

lemma Binding.RenamesAll.eq_map {f : String → String} {P : String → Prop} {l l' : List Binding}
    (hf : Set.InjOn f {n | P n}) (h : RenamesAll f P l l') : l' = l.map (withNames f) := by
  induction h with
  | nil => rfl
  | cons hb _ ih => rw [List.map_cons, ← ih, hb.unique (renames_withNames hf hb.bound)]

namespace Net

variable {net : Net} {t : Transition} {r : Binding}

theorem variables_renamed (h : net.Built) (ht : t ∈ net.transitions)
    (hp : ∀ φ ∈ t.formulas, ∃ e, Expr.parse φ.source = .ok e) (hr : t.Renamable net.globals r) :
    ∃ t', t.rename r = .ok t' ∧ t'.vars = KeySet.ofList (t.vars.keys.map r.rename) ∧
      ∀ m : Marking,
        ((net.restore m).modesOf t').toOption =
          ((net.restore m).modesOf t).toOption.map (List.map (Binding.withNames r.rename)) ∧
        ∀ b : Binding, (∀ n ∈ b.keys, n ∈ t.vars.keys) →
          ((net.restore m).enabledBy t' (b.withNames r.rename)).toOption =
            ((net.restore m).enabledBy t b).toOption ∧
          ((net.restore m).flowOf t' (b.withNames r.rename)).toOption =
            ((net.restore m).flowOf t b).toOption := by
  have hw := h.wellFormed
  have hvalid : ∀ e ∈ t.inputs ++ t.outputs, e.2.validate = .ok () :=
    List.forall_mem_append.2 ⟨hw.valid t ht .input, hw.valid t ht .output⟩
  obtain ⟨t', hrename, hrenames, hvars⟩ :=
    Transition.exists_rename hr.keepsNames hr.keepsVariables hvalid hp fun _ hn => hn
  refine ⟨t', hrename, hvars.eq_ofList, fun m => ?_⟩
  have hg : KeepsGlobals r.rename (· ∈ t.vars.keys) (net.restore m).globals := hr.keepsGlobals
  constructor
  · exact (modesOf_renames hr.injective hg hrenames).toOption_eq fun _ _ hl => hl.eq_map hr.injective
  · intro b hb
    have hbound : ∀ n v, b.get? n = some v → n ∈ t.vars.keys := fun n v hv =>
      hb n (Table.mem_keys_iff.2 ⟨v, hv⟩)
    have hbb := Binding.renames_withNames hr.injective hbound
    exact ⟨(check_renames hg hbb hrenames true true).toOption_eq_self,
      (flowOf_renames hg hbb hrenames).toOption_eq_self⟩

def rise : Transition := ⟨"t", ⟨"x > low"⟩, [("p", .var "x")], [("q", .formula ⟨"x + low"⟩)]⟩

def rising : Net :=
  .ofNodes "rising"
    [⟨"p", Bag.ofList [.int 1, .int 2], .any, [], ["t"]⟩, ⟨"q", Bag.empty, .any, ["t"], []⟩]
    [rise] (Table.empty.insert "low" (.int 1))

lemma vars_rise : rise.vars.keys = ["low", "x"] := by decide +kernel

lemma rise_renamable : rise.Renamable rising.globals (Binding.single "x" (.str "count")) := by
  have hinj : ∀ m ∈ rise.vars.keys, ∀ n ∈ rise.vars.keys,
      (Binding.single "x" (.str "count")).rename m =
        (Binding.single "x" (.str "count")).rename n → m = n := by
    rw [vars_rise]
    decide
  refine ⟨fun m hm n hn => hinj m hm n hn, ?_, ?_⟩ <;> rw [vars_rise] <;> decide

theorem variables_renamed_rising : rising.Built ∧ ∃ t',
    rise.rename (Binding.single "x" (.str "count")) = .ok t' ∧
      t'.vars = KeySet.ofList ["low", "count"] ∧
      (rising.modesOf t').toOption = some [Binding.single "count" (.int 2)] ∧
      (rising.enabledBy t' (Binding.single "count" (.int 2))).toOption = some true := by
  have hbuilt : rising.Built := .described (d := .ofNet rising) rfl
  have hparse : ∀ φ ∈ rise.formulas, ∃ e, Expr.parse φ.source = .ok e :=
    List.forall_mem_cons.2 ⟨⟨_, rfl⟩, List.forall_mem_singleton.2 ⟨_, rfl⟩⟩
  obtain ⟨t', hrename, hvars, h⟩ :=
    variables_renamed hbuilt (List.mem_singleton_self rise) hparse rise_renamable
  obtain ⟨hmodes, hcalls⟩ := h rising.marking
  obtain ⟨henabled, -⟩ := hcalls (Binding.single "x" (.int 2)) (by decide +kernel)
  rw [restore_marking hbuilt.wellFormed] at hmodes henabled
  rw [vars_rise] at hvars
  exact ⟨hbuilt, t', hrename, hvars, hmodes, henabled⟩

end Net

end ColouredPetri
