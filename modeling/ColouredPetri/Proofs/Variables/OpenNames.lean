import ColouredPetri.Proofs.Arcs.Failures
import ColouredPetri.Proofs.ModeSoundness
import ColouredPetri.Proofs.Variables.Formulas

/-! Names without a value. What fails for want of a name has that name and does not see it, and
what a search has found binds all names of the arc but those of its inhibitors. -/

namespace ColouredPetri

def EvalError.isOpen : EvalError → Bool
  | unboundName _ => true
  | _ => false

section Values

lemma Word.avoids_arith (op : ArithOp) (a b : Int64) :
    Avoids EvalError.isOpen (Word.arith op a b) := fun e he => by
  obtain rfl | rfl := error_of_arith he <;> rfl

lemma Word.avoids_neg (a : Int64) : Avoids EvalError.isOpen (Word.neg a) := fun e he => by
  rw [error_of_neg he]
  rfl

lemma Value.avoids_arith (op : ArithOp) (a b : Value) :
    Avoids EvalError.isOpen (Value.arith op a b) := by
  unfold Value.arith
  split
  · next n m =>
    split
    · exact avoids_ok _
    · next e he => exact avoids_error (Word.avoids_arith _ n m e he)
  · exact avoids_ok _
  · exact avoids_ok _
  · exact avoids_ok _
  · exact avoids_error rfl

lemma Value.avoids_compareBy (op : CompareOp) (a b : Value) :
    Avoids EvalError.isOpen (compareBy op a b) := by
  have hordered : ∀ holds, Avoids EvalError.isOpen (ordered a b holds) := fun holds => by
    rw [ordered]
    split
    · exact avoids_ok _
    · exact avoids_error rfl
  cases op with
  | eq => exact avoids_ok _
  | ne => exact avoids_ok _
  | _ => exact hordered _

lemma Value.avoids_negate (a : Value) : Avoids EvalError.isOpen a.negate := by
  cases a with
  | int n =>
    rw [negate]
    split
    · exact avoids_ok _
    · next e he => exact avoids_error (Word.avoids_neg n e he)
  | _ => exact avoids_error rfl

end Values

variable {s : Scope} {P Q : String → Prop}

lemma Scope.lookup_eq_none {n : String} (h : s.lookup? n = none) :
    s.binding.get? n = none ∧ s.globals.get? n = none := by
  rw [lookup?] at h
  split at h
  · cases h
  · next hb => exact ⟨hb, h⟩

def EvalError.Wants (s : Scope) (P : String → Prop) : EvalError → Prop
  | unboundName n => P n ∧ s.lookup? n = none
  | _ => True

lemma EvalError.Wants.mono {cause : EvalError} (h : cause.Wants s P) (hPQ : ∀ n, P n → Q n) :
    cause.Wants s Q := by
  cases cause with
  | unboundName n => exact ⟨hPQ n h.1, h.2⟩
  | _ => trivial

lemma EvalError.wants_of_closed {cause : EvalError} (h : cause.isOpen = false) :
    cause.Wants s P := by
  cases cause with
  | unboundName n => cases h
  | _ => trivial

namespace Expr

variable {f : String → String}

abbrev WantsOnly {α : Type} (s : Scope) (P : String → Prop) (x : Except EvalError α) : Prop :=
  FailsWith (EvalError.Wants s P) x

lemma wantsOnly_of_avoids {α : Type} {x : Except EvalError α} (h : Avoids EvalError.isOpen x) :
    WantsOnly s P x := fun cause hc => EvalError.wants_of_closed (h cause hc)

mutual

lemma wantsOnly_eval : ∀ {e e' : Expr}, Renames f P e e' → WantsOnly s P (eval s e)
  | _, _, .lit v => by
    rw [eval]
    exact failsWith_ok v
  | .name n, _, .name h => by
    rw [eval]
    split
    · exact failsWith_ok _
    · next hn => exact failsWith_error ⟨h, hn⟩
  | _, _, .tuple h => by
    rw [eval_tuple]
    exact (wantsOnly_evalItems h).bind_pure
  | _, _, .neg h => by
    rw [eval_neg]
    exact (wantsOnly_eval h).bind fun a _ => wantsOnly_of_avoids (Value.avoids_negate a)
  | _, _, .arith ha hb => by
    rw [eval_arith]
    exact (wantsOnly_eval ha).bind fun a _ => (wantsOnly_eval hb).bind fun b _ =>
      wantsOnly_of_avoids (Value.avoids_arith _ a b)
  | _, _, .compare ha hb => by
    rw [eval_compare]
    exact (wantsOnly_eval ha).bind fun a _ => (wantsOnly_eval hb).bind fun b _ =>
      wantsOnly_of_avoids (Value.avoids_compareBy _ a b)
  | _, _, .and ha hb => by
    rw [eval_and]
    refine (wantsOnly_eval ha).bind fun a _ => ?_
    split
    · exact wantsOnly_eval hb
    · exact failsWith_ok a
  | _, _, .or ha hb => by
    rw [eval_or]
    refine (wantsOnly_eval ha).bind fun a _ => ?_
    split
    · exact failsWith_ok a
    · exact wantsOnly_eval hb
  | _, _, .not h => by
    rw [eval_not]
    exact (wantsOnly_eval h).bind_pure

lemma wantsOnly_evalItems : ∀ {l l' : List Expr}, RenamesAll f P l l' →
    WantsOnly s P (evalItems s l)
  | _, _, .nil => by
    rw [evalItems]
    exact failsWith_ok []
  | _, _, .cons h hl => by
    rw [evalItems_cons]
    exact (wantsOnly_eval h).bind fun _ _ => (wantsOnly_evalItems hl).bind_pure

end

end Expr

namespace Formula

variable {φ : Formula}

lemma wantsOnly_eval : Expr.WantsOnly s (· ∈ φ.knownVars.keys) (φ.eval s) := by
  rw [eval]
  split
  · exact failsWith_ok _
  · split
    · next e he =>
      have hsound : Parser.Sound id fun n => n ∈ φ.knownVars.keys ∧
          Lexer.isIdentifier n.toList = true ∧ keywords.contains n = false := fun n hn => hn.2
      obtain ⟨_, _, -, -, hnames, -⟩ := renameNames_of_parse hsound he fun names hnames n hn =>
        ⟨knownVars_of_freeNames hnames ▸ hn, Lexer.name_of_mem_freeNames he hnames hn⟩
      exact (Expr.wantsOnly_eval hnames).mono fun cause hc => hc.mono fun n hn => hn.1
    · next e he =>
      rw [Expr.parse] at he
      split at he
      · cases he
      · cases he
        exact failsWith_error trivial

lemma wantsOnly_holds : Expr.WantsOnly s (· ∈ φ.knownVars.keys) (φ.holds s) := by
  rw [holds_eq]
  exact wantsOnly_eval.bind_pure

end Formula

namespace Arc

abbrev Names (a : Arc) (n : String) : Prop := n ∈ (vars a).keys

abbrev NamesAll (l : List Arc) (n : String) : Prop := n ∈ (varsAll l).keys

section Leaves

variable {leaf : Arc} {n : String}

mutual

lemma names_of_leaf : ∀ {a : Arc}, leaf ∈ leaves a → Names leaf n → Names a n
  | value _, h, hn => List.mem_singleton.1 h ▸ hn
  | var _, h, hn => List.mem_singleton.1 h ▸ hn
  | formula _, h, hn => List.mem_singleton.1 h ▸ hn
  | multi _, h, hn => names_of_leafAll h hn
  | tuple _, h, hn => names_of_leafAll h hn
  | test inner, h, hn => names_of_leaf (a := inner) h hn
  | inhibitor _ _, h, hn => List.mem_singleton.1 h ▸ hn
  | flush inner, h, hn => names_of_leaf (a := inner) h hn

lemma names_of_leafAll : ∀ {l : List Arc}, leaf ∈ leavesAll l → Names leaf n → NamesAll l n
  | [], h, _ => by cases h
  | _ :: _, h, hn => KeySet.mem_keys_union.2 ((List.mem_append.1 h).imp
      (names_of_leaf · hn) (names_of_leafAll · hn))

end

lemma LeafError.wants {cause : EvalError} (h : LeafError s leaf (.eval cause)) :
    cause.Wants s (Names leaf) := by
  cases h with
  | unvalued hf => exact Formula.wantsOnly_eval cause hf
  | undecided hf =>
    exact (Formula.wantsOnly_holds cause hf).mono fun n hn => KeySet.mem_keys_union.2 (.inr hn)

lemma LeafError.var_of_unbound (h : LeafError s leaf (.domain (.unbound n))) :
    leaf = var n ∧ s.binding.get? n = none := by
  cases h with
  | unbound hn => exact ⟨rfl, hn⟩

end Leaves

def isInhibitor : Arc → Bool
  | inhibitor _ _ => true
  | _ => false

variable {globals : Binding}

mutual

lemma bound_of_modes : ∀ {a : Arc} {available : Bag} {found : List Binding},
    modes globals a available = .ok found → ∀ g ∈ found, ∀ leaf ∈ leaves a,
      leaf.isInhibitor = false → ∀ n, Names leaf n → n ∈ g.keys
  | value v, _, _, _, _, _, _, hl, _, _, hn => by
    cases List.mem_singleton.1 hl
    cases hn
  | var name, _, _, h, g, hg, _, hl, _, n, hn => by
    cases List.mem_singleton.1 hl
    obtain ⟨v, -, rfl⟩ := mem_modes_var h hg
    rw [Names, vars, KeySet.mem_keys_ofList, List.mem_singleton] at hn
    exact (Table.mem_keys_insert v).2 (.inr hn)
  | formula _, _, _, h, _, _, _, _, _, _, _ => by cases h
  | multi parts, _, _, h, g, hg, leaf, hl, hno, n, hn => by
    obtain ⟨each, -, heach, hext, -, -⟩ := mem_modes_multi h hg
    exact bound_of_modesEach heach hext leaf hl hno n hn
  | tuple parts, _, _, h, g, hg, leaf, hl, hno, n, hn => by
    obtain ⟨items, each, -, hlen, heach, hext⟩ := mem_modes_tuple h hg
    exact bound_of_matchItems hlen heach hext leaf hl hno n hn
  | test inner, _, _, h, g, hg, leaf, hl, hno, n, hn => by
    rw [modes] at h
    exact bound_of_modes (a := inner) h g hg leaf hl hno n hn
  | inhibitor _ _, _, _, _, _, _, _, hl, hno, _, _ => by
    cases List.mem_singleton.1 hl
    cases hno
  | flush _, _, _, h, g, hg, _, hl, _, n, hn => by
    obtain ⟨name, rfl, rfl⟩ := mem_modes_flush h hg
    cases List.mem_singleton.1 hl
    rw [Names, vars, KeySet.mem_keys_ofList, List.mem_singleton] at hn
    exact (Table.mem_keys_insert _).2 (.inr hn)

lemma bound_of_modesEach : ∀ {l : List Arc} {available : Bag} {all : List (List Binding)}
    {g : Binding}, modesEach globals l available = .ok all →
      (∀ part ∈ all, ∃ h ∈ part, g.Extends h) → ∀ leaf ∈ leavesAll l,
        leaf.isInhibitor = false → ∀ n, Names leaf n → n ∈ g.keys
  | [], _, _, _, _, _, _, hl, _, _, _ => by cases hl
  | a :: l, _, _, g, h, hg, leaf, hl, hno, n, hn => by
    obtain ⟨part, rest, hpart, hrest, rfl⟩ := modesEach_cons h
    obtain ⟨⟨g₁, hg₁, hext⟩, hg⟩ := List.forall_mem_cons.1 hg
    rcases List.mem_append.1 hl with hl | hl
    · exact hext.mem_keys (bound_of_modes hpart g₁ hg₁ leaf hl hno n hn)
    · exact bound_of_modesEach hrest hg leaf hl hno n hn

lemma bound_of_matchItems : ∀ {l : List Arc} {items : List Value} {all : List (List Binding)}
    {g : Binding}, l.length = items.length → matchItems globals l items = .ok (some all) →
      (∀ part ∈ all, ∃ h ∈ part, g.Extends h) → ∀ leaf ∈ leavesAll l,
        leaf.isInhibitor = false → ∀ n, Names leaf n → n ∈ g.keys
  | [], _, _, _, _, _, _, _, hl, _, _, _ => by cases hl
  | _ :: _, [], _, _, hlen, _, _, _, _, _, _, _ => by cases hlen
  | a :: l, item :: items, _, g, hlen, h, hg, leaf, hl, hno, n, hn => by
    obtain ⟨part, rest, hpart, hrest, rfl⟩ := matchItems_cons h
    obtain ⟨⟨g₁, hg₁, hext⟩, hg⟩ := List.forall_mem_cons.1 hg
    rcases List.mem_append.1 hl with hl | hl
    · exact hext.mem_keys (bound_of_modes hpart g₁ hg₁ leaf hl hno n hn)
    · exact bound_of_matchItems (Nat.succ.inj hlen) hrest hg leaf hl hno n hn

end

end Arc

end ColouredPetri
