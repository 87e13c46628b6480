import ColouredPetri.Arc.Modes
import ColouredPetri.Proofs.Arcs.Tokens

/-! What the search for modes finds. Under each binding that it gives, and under all extensions of
it, the arc takes its flow out of the tokens that were searched. -/

namespace ColouredPetri

lemma mem_keepModes {check : Binding → Except Error Bool} {l found : List Binding}
    (h : keepModes check l = .ok found) : ∀ b ∈ found, b ∈ l ∧ check b = .ok true := by
  induction l generalizing found with
  | nil =>
    cases h
    exact nofun
  | cons c l ih =>
    have hrest : ∀ found, keepModes check l = .ok found →
        ∀ b ∈ found, b ∈ c :: l ∧ check b = .ok true :=
      fun found hl b hb => (ih hl b hb).imp_left (List.mem_cons_of_mem c)
    rw [keepModes] at h
    split at h
    · next hc =>
      obtain ⟨rest, hl, h⟩ := except_bind_eq_ok.1 h
      cases h
      exact List.forall_mem_cons.2 ⟨⟨List.mem_cons_self, hc⟩, hrest rest hl⟩
    · exact hrest found h
    · split at h
      · exact hrest found h
      · cases h

lemma Bag.eq_of_isSubset_singleton {f : Bag} {v : Value} (h : f.isSubset (ofList [v]) = true) :
    f = empty ∨ f = ofList [v] := by
  have hcount := fun w => Bag.isSubset_iff.1 h w
  simp only [count_ofList] at hcount
  have hother : ∀ w, w ≠ v → f.count w = 0 := fun w hw => by
    have := hcount w
    rw [List.count_singleton, if_neg (by simpa using Ne.symm hw)] at this
    omega
  by_cases hv : f.count v = 0
  · refine .inl (ext_count fun w => ?_)
    by_cases hw : w = v
    · rw [hw, hv, count_empty]
    · rw [hother w hw, count_empty]
  · refine .inr (ext_count fun w => ?_)
    rw [count_ofList, List.count_singleton]
    by_cases hw : w = v
    · have := hcount v
      rw [List.count_singleton, if_pos (beq_self_eq_true v)] at this
      rw [hw, if_pos (beq_self_eq_true v)]
      omega
    · rw [hother w hw, if_neg (by simpa using Ne.symm hw)]

namespace Arc

lemma mem_tuplesOfLength {n : Nat} {l : List Value} {items : List Value} :
    items ∈ tuplesOfLength n l ↔ .tuple items ∈ l ∧ items.length = n := by
  induction l with
  | nil => simp [tuplesOfLength]
  | cons v l ih =>
    cases v with
    | tuple others =>
      rw [tuplesOfLength]
      split
      · next hn =>
        rw [List.mem_cons, ih, List.mem_cons, Value.tuple.injEq]
        constructor
        · rintro (rfl | ⟨h, hl⟩)
          · exact ⟨.inl rfl, hn⟩
          · exact ⟨.inr h, hl⟩
        · rintro ⟨h | h, hl⟩
          · exact .inl h
          · exact .inr ⟨h, hl⟩
      · next hn =>
        rw [ih, List.mem_cons, Value.tuple.injEq]
        constructor
        · exact fun ⟨h, hl⟩ => ⟨.inr h, hl⟩
        · rintro ⟨rfl | h, hl⟩
          · exact absurd hl hn
          · exact ⟨h, hl⟩
    | _ => simp [tuplesOfLength, ih]

lemma mem_matchTokens {matchParts : List Value → Except Error (Option (List (List Binding)))}
    {l : List (List Value)} {found : List Binding} (h : matchTokens matchParts l = .ok found) :
    ∀ g ∈ found, ∃ items ∈ l, ∃ parts, matchParts items = .ok (some parts) ∧
      g ∈ Binding.combine parts := by
  induction l generalizing found with
  | nil =>
    cases h
    exact nofun
  | cons items l ih =>
    intro g hg
    obtain ⟨result, hm, h⟩ := except_bind_eq_ok.1 h
    have hrest : ∀ found, matchTokens matchParts l = .ok found → g ∈ found →
        ∃ items' ∈ items :: l, ∃ parts, matchParts items' = .ok (some parts) ∧
          g ∈ Binding.combine parts := by
      intro found hl hg
      obtain ⟨items', hi, h⟩ := ih hl g hg
      exact ⟨items', List.mem_cons_of_mem _ hi, h⟩
    cases result with
    | none => exact hrest found h hg
    | some parts =>
      obtain ⟨rest, hl, h⟩ := except_bind_eq_ok.1 h
      cases h
      rcases List.mem_append.1 hg with hg | hg
      · exact ⟨items, List.mem_cons_self, parts, hm, hg⟩
      · exact hrest rest hl hg

lemma isSubset_tuples {fs : List Bag} {items : List Value} {available : Bag}
    (hf : List.Forall₂ (fun f v => f.isSubset (Bag.ofList [v]) = true) fs items)
    (hi : .tuple items ∈ available.toList) : (tuples fs).isSubset available = true := by
  have hchoices : (Binding.choices (fs.map Bag.toList)).Sublist [items] := by
    clear hi
    induction hf with
    | nil => exact List.Sublist.refl _
    | @cons f v fs items hv _ ih =>
      rw [List.map_cons, Binding.choices]
      rcases Bag.eq_of_isSubset_singleton hv with rfl | rfl
      · exact List.nil_sublist _
      · rw [Bag.toList_ofList_singleton, List.flatMap_singleton]
        exact ih.map (v :: ·)
  refine Bag.isSubset_iff.2 fun w => ?_
  rw [tuples, Bag.count_ofList]
  have hle := (hchoices.map Value.tuple).count_le w
  by_cases hw : w = .tuple items
  · have := Bag.mem_toList.1 hi
    rw [hw] at hle ⊢
    simp at hle
    omega
  · rw [List.map_singleton, List.count_singleton, if_neg (by simpa using Ne.symm hw)] at hle
    omega

mutual

/-- Whether one token stands for one value on the arc, so that matching it gives the value back. -/
def pattern : Arc → Bool
  | value _ => true
  | var _ => true
  | formula _ => false
  | multi _ => false
  | tuple parts => allPattern parts
  | test inner => pattern inner
  | inhibitor _ _ => false
  | flush _ => false

def allPattern : List Arc → Bool
  | [] => true
  | a :: l => pattern a && allPattern l

end

mutual

def patternTuples : Arc → Bool
  | multi parts => allPatternTuples parts
  | tuple parts => allPattern parts
  | test inner => patternTuples inner
  | _ => true

def allPatternTuples : List Arc → Bool
  | [] => true
  | a :: l => patternTuples a && allPatternTuples l

end

variable {globals : Binding}

section Inversion

variable {available : Bag} {found : List Binding} {g : Binding}

lemma contains_of_modes_value {v : Value} (h : modes globals (value v) available = .ok found) :
    v ∈ available.toList := by
  rw [modes] at h
  split at h
  · next hc => exact Bag.contains_iff.1 hc
  · cases h

lemma mem_modes_var {name : String} (h : modes globals (var name) available = .ok found)
    (hg : g ∈ found) : ∃ v ∈ available.toList, g = Binding.single name v := by
  rw [modes] at h
  split at h
  · cases h
  · cases h
    obtain ⟨v, hv, rfl⟩ := List.mem_map.1 hg
    exact ⟨v, hv, rfl⟩

lemma mem_modes_multi {parts : List Arc} (h : modes globals (multi parts) available = .ok found)
    (hg : g ∈ found) : ∃ each f, modesEach globals parts available = .ok each ∧
      (∀ part ∈ each, ∃ g' ∈ part, g.Extends g') ∧
      flow ⟨g, globals⟩ (multi parts) = .ok f ∧ f.isSubset available = true := by
  rw [modes, except_bind_eq_ok] at h
  obtain ⟨each, heach, h⟩ := h
  obtain ⟨hmem, hcheck⟩ := mem_keepModes h g hg
  obtain ⟨f, hf, hsub⟩ := except_bind_eq_ok.1 hcheck
  exact ⟨each, f, heach, Binding.combine_extends hmem, hf, Except.ok.inj hsub⟩

lemma mem_modes_tuple {parts : List Arc} (h : modes globals (tuple parts) available = .ok found)
    (hg : g ∈ found) : ∃ items each, .tuple items ∈ available.toList ∧
      parts.length = items.length ∧ matchItems globals parts items = .ok (some each) ∧
      ∀ part ∈ each, ∃ g' ∈ part, g.Extends g' := by
  rw [modes, except_bind_eq_ok] at h
  obtain ⟨all, hall, h⟩ := h
  split at h
  · cases h
  · cases h
    obtain ⟨items, hi, each, heach, hcomb⟩ := mem_matchTokens hall g hg
    obtain ⟨hi, hlen⟩ := mem_tuplesOfLength.1 hi
    exact ⟨items, each, hi, hlen.symm, heach, Binding.combine_extends hcomb⟩

lemma mem_modes_flush {inner : Arc} (h : modes globals (flush inner) available = .ok found)
    (hg : g ∈ found) : ∃ name, inner = var name ∧ g = Binding.single name available.toValue := by
  cases inner with
  | var name =>
    cases h
    exact ⟨name, rfl, List.mem_singleton.1 hg⟩
  | _ => cases h

lemma modesEach_cons {a : Arc} {l : List Arc} {all : List (List Binding)}
    (h : modesEach globals (a :: l) available = .ok all) : ∃ part rest,
      modes globals a available = .ok part ∧ modesEach globals l available = .ok rest ∧
      all = part :: rest := by
  rw [modesEach, except_bind_eq_ok] at h
  obtain ⟨part, hpart, h⟩ := h
  obtain ⟨rest, hrest, h⟩ := except_bind_eq_ok.1 h
  cases h
  exact ⟨part, rest, hpart, hrest, rfl⟩

lemma matchItems_cons {a : Arc} {l : List Arc} {item : Value} {items : List Value}
    {all : List (List Binding)}
    (h : matchItems globals (a :: l) (item :: items) = .ok (some all)) : ∃ part rest,
      modes globals a (Bag.ofList [item]) = .ok part ∧
      matchItems globals l items = .ok (some rest) ∧ all = part :: rest := by
  rw [matchItems] at h
  split at h
  · split at h <;> cases h
  · next part hpart =>
    obtain ⟨rest, hrest, h⟩ := except_bind_eq_ok.1 h
    cases rest with
    | none => cases h
    | some rest =>
      cases h
      exact ⟨part, rest, hpart, hrest, rfl⟩

end Inversion

section Evaluation

variable {b g : Binding} {name : String} {v : Value}

lemma bind_var (hb : b.Extends (Binding.single name v)) :
    bind ⟨b, globals⟩ (var name) = .ok v := by
  rw [bind, Binding.lookup, hb name v (Binding.get?_single name v)]
  rfl

lemma isSubset_singleton {available : Bag} (hv : v ∈ available.toList) :
    (Bag.ofList [v]).isSubset available = true := by
  refine Bag.isSubset_iff.2 fun w => ?_
  have := Bag.mem_toList.1 hv
  rw [Bag.count_ofList, List.count_singleton]
  split
  · next hw =>
    rw [← eq_of_beq hw]
    omega
  · exact Nat.zero_le _

end Evaluation

mutual

lemma flow_of_modes : ∀ {a : Arc} {available : Bag} {found : List Binding},
    modes globals a available = .ok found → ∀ g ∈ found, ∃ f, f.isSubset available = true ∧
      ∀ b : Binding, b.Extends g → flow ⟨b, globals⟩ a = .ok f
  | value v, _, _, h, _, _ =>
    ⟨Bag.ofList [v], isSubset_singleton (contains_of_modes_value h), fun _ _ => rfl⟩
  | var name, _, _, h, _, hg => by
    obtain ⟨v, hv, rfl⟩ := mem_modes_var h hg
    refine ⟨Bag.ofList [v], isSubset_singleton hv, fun b hb => ?_⟩
    rw [flow, bind_var hb]
    rfl
  | formula _, _, _, h, _, _ => by cases h
  | multi parts, available, _, h, g, hg => by
    obtain ⟨each, f, heach, hext, hf, hsub⟩ := mem_modes_multi h hg
    obtain ⟨fs, hfs⟩ := flows_of_modesEach heach hext
    have hall : ∀ b : Binding, b.Extends g →
        flow ⟨b, globals⟩ (multi parts) = .ok (fs.foldl (· + ·) Bag.empty) := fun b hb => by
      rw [flow, hfs b hb]
      rfl
    -- the search has checked the sum for the binding itself, and extensions have the same sum
    rw [hall g (Binding.extends_refl g)] at hf
    cases hf
    exact ⟨_, hsub, hall⟩
  | tuple parts, _, _, h, g, hg => by
    obtain ⟨items, each, hi, hlen, heach, hext⟩ := mem_modes_tuple h hg
    obtain ⟨fs, hsub, hfs⟩ := flows_of_matchItems hlen heach hext
    refine ⟨tuples fs, isSubset_tuples hsub hi, fun b hb => ?_⟩
    rw [flow, hfs b hb]
    rfl
  | test _, _, _, _, _, _ => ⟨Bag.empty, rfl, fun _ _ => rfl⟩
  | inhibitor _ _, _, _, _, _, _ => ⟨Bag.empty, rfl, fun _ _ => rfl⟩
  | flush _, available, _, h, _, hg => by
    obtain ⟨name, rfl, rfl⟩ := mem_modes_flush h hg
    refine ⟨available, Bag.isSubset_iff.2 fun _ => Nat.le_refl _, fun b hb => ?_⟩
    rw [flow, bind_var hb]
    exact congrArg Except.ok (Bag.ofList_toList available)

lemma flows_of_modesEach : ∀ {l : List Arc} {available : Bag} {found : List (List Binding)}
    {g : Binding}, modesEach globals l available = .ok found →
      (∀ part ∈ found, ∃ h ∈ part, g.Extends h) →
      ∃ fs, ∀ b : Binding, b.Extends g → flowAll ⟨b, globals⟩ l = .ok fs
  | [], _, _, _, _, _ => ⟨[], fun _ _ => rfl⟩
  | a :: l, _, _, g, h, hg => by
    obtain ⟨part, rest, hpart, hrest, rfl⟩ := modesEach_cons h
    obtain ⟨⟨g₁, hg₁, hext⟩, hg⟩ := List.forall_mem_cons.1 hg
    obtain ⟨f, -, hf⟩ := flow_of_modes hpart g₁ hg₁
    obtain ⟨fs, hfs⟩ := flows_of_modesEach hrest hg
    refine ⟨f :: fs, fun b hb => ?_⟩
    rw [flowAll, hf b (hb.trans hext), hfs b hb]
    rfl

lemma flows_of_matchItems : ∀ {l : List Arc} {items : List Value}
    {found : List (List Binding)} {g : Binding}, l.length = items.length →
      matchItems globals l items = .ok (some found) →
      (∀ part ∈ found, ∃ h ∈ part, g.Extends h) →
      ∃ fs, List.Forall₂ (fun f v => Bag.isSubset f (Bag.ofList [v]) = true) fs items ∧
        ∀ b : Binding, b.Extends g → flowAll ⟨b, globals⟩ l = .ok fs
  | [], [], _, _, _, _, _ => ⟨[], .nil, fun _ _ => rfl⟩
  | [], _ :: _, _, _, hl, _, _ => by cases hl
  | _ :: _, [], _, _, hl, _, _ => by cases hl
  | a :: l, item :: items, _, g, hl, h, hg => by
    obtain ⟨part, rest, hpart, hrest, rfl⟩ := matchItems_cons h
    obtain ⟨⟨g₁, hg₁, hext⟩, hg⟩ := List.forall_mem_cons.1 hg
    obtain ⟨f, hsub, hf⟩ := flow_of_modes hpart g₁ hg₁
    obtain ⟨fs, hsubs, hfs⟩ := flows_of_matchItems (Nat.succ.inj hl) hrest hg
    refine ⟨f :: fs, .cons hsub hsubs, fun b hb => ?_⟩
    rw [flowAll, hf b (hb.trans hext), hfs b hb]
    rfl

end

mutual

lemma bind_of_modes : ∀ {a : Arc} {item : Value} {found : List Binding}, a.pattern = true →
    modes globals a (Bag.ofList [item]) = .ok found → ∀ g ∈ found, ∀ b : Binding, b.Extends g →
      bind ⟨b, globals⟩ a = .ok item
  | value v, item, _, _, h, _, _, _, _ => by
    have hv := contains_of_modes_value h
    rw [Bag.toList_ofList_singleton, List.mem_singleton] at hv
    rw [bind, hv]
    rfl
  | var name, item, _, _, h, _, hg, b, hb => by
    obtain ⟨v, hv, rfl⟩ := mem_modes_var h hg
    rw [Bag.toList_ofList_singleton, List.mem_singleton] at hv
    rw [bind_var hb, hv]
  | formula _, _, _, hp, _, _, _, _, _ => by cases hp
  | multi _, _, _, hp, _, _, _, _, _ => by cases hp
  | tuple parts, item, _, hp, h, g, hg, b, hb => by
    obtain ⟨items, each, hi, hlen, heach, hext⟩ := mem_modes_tuple h hg
    rw [Bag.toList_ofList_singleton, List.mem_singleton] at hi
    rw [bind, bindAll_of_matchItems hp hlen heach hext hb, ← hi]
    rfl
  | test inner, _, _, hp, h, g, hg, b, hb => by
    rw [modes] at h
    rw [bind]
    exact bind_of_modes (a := inner) hp h g hg b hb
  | inhibitor _ _, _, _, hp, _, _, _, _, _ => by cases hp
  | flush _, _, _, hp, _, _, _, _, _ => by cases hp

lemma bindAll_of_matchItems : ∀ {l : List Arc} {items : List Value}
    {found : List (List Binding)} {g b : Binding}, allPattern l = true →
      l.length = items.length → matchItems globals l items = .ok (some found) →
      (∀ part ∈ found, ∃ h ∈ part, g.Extends h) → b.Extends g →
      bindAll ⟨b, globals⟩ l = .ok items
  | [], [], _, _, _, _, _, _, _, _ => rfl
  | [], _ :: _, _, _, _, _, hl, _, _, _ => by cases hl
  | _ :: _, [], _, _, _, _, hl, _, _, _ => by cases hl
  | a :: l, item :: items, _, g, b, hp, hl, h, hg, hb => by
    obtain ⟨hpa, hpl⟩ := Bool.and_eq_true_iff.1 hp
    obtain ⟨part, rest, hpart, hrest, rfl⟩ := matchItems_cons h
    obtain ⟨⟨g₁, hg₁, hext⟩, hg⟩ := List.forall_mem_cons.1 hg
    rw [bindAll, bind_of_modes hpa hpart g₁ hg₁ b (hb.trans hext),
      bindAll_of_matchItems hpl (Nat.succ.inj hl) hrest hg hb]
    rfl

end

mutual

lemma tokens_of_modes : ∀ {a : Arc} {available : Bag} {found : List Binding},
    a.patternTuples = true → modes globals a available = .ok found → ∀ g ∈ found,
      ∀ b : Binding, b.Extends g →
        ∃ vs, tokens ⟨b, globals⟩ a = .ok vs ∧ ∀ v ∈ vs, v ∈ available.toList
  | value v, _, _, _, h, _, _, _, _ =>
    ⟨[v], rfl, List.forall_mem_singleton.2 (contains_of_modes_value h)⟩
  | var name, _, _, _, h, _, hg, b, hb => by
    obtain ⟨v, hv, rfl⟩ := mem_modes_var h hg
    refine ⟨[v], ?_, List.forall_mem_singleton.2 hv⟩
    rw [tokens, bind_var hb]
    rfl
  | formula _, _, _, _, h, _, _, _, _ => by cases h
  | multi parts, _, _, hp, h, g, hg, b, hb => by
    obtain ⟨each, -, heach, hext, -, -⟩ := mem_modes_multi h hg
    exact tokensAll_of_modesEach hp heach hext hb
  | tuple parts, _, _, hp, h, g, hg, b, hb => by
    obtain ⟨items, each, hi, hlen, heach, hext⟩ := mem_modes_tuple h hg
    refine ⟨[.tuple items], ?_, List.forall_mem_singleton.2 hi⟩
    rw [tokens, bind, bindAll_of_matchItems hp hlen heach hext hb]
    rfl
  | test inner, _, _, hp, h, g, hg, b, hb => by
    rw [modes] at h
    rw [tokens]
    exact tokens_of_modes (a := inner) hp h g hg b hb
  | inhibitor _ _, _, _, _, _, _, _, _, _ => ⟨[], rfl, nofun⟩
  | flush _, available, _, _, h, _, hg, b, hb => by
    obtain ⟨name, rfl, rfl⟩ := mem_modes_flush h hg
    refine ⟨available.toList, ?_, fun v hv => hv⟩
    rw [tokens, bind_var hb]
    rfl

lemma tokensAll_of_modesEach : ∀ {l : List Arc} {available : Bag} {found : List (List Binding)}
    {g b : Binding}, allPatternTuples l = true → modesEach globals l available = .ok found →
      (∀ part ∈ found, ∃ h ∈ part, g.Extends h) → b.Extends g →
      ∃ vs, tokensAll ⟨b, globals⟩ l = .ok vs ∧ ∀ v ∈ vs, v ∈ available.toList
  | [], _, _, _, _, _, _, _, _ => ⟨[], rfl, nofun⟩
  | a :: l, _, _, g, b, hp, h, hg, hb => by
    obtain ⟨hpa, hpl⟩ := Bool.and_eq_true_iff.1 hp
    obtain ⟨part, rest, hpart, hrest, rfl⟩ := modesEach_cons h
    obtain ⟨⟨g₁, hg₁, hext⟩, hg⟩ := List.forall_mem_cons.1 hg
    obtain ⟨vs, hvs, hv⟩ := tokens_of_modes hpa hpart g₁ hg₁ b (hb.trans hext)
    obtain ⟨ws, hws, hw⟩ := tokensAll_of_modesEach hpl hrest hg hb
    refine ⟨vs ++ ws, ?_, fun v h => (List.mem_append.1 h).elim (hv v) (hw v)⟩
    rw [tokensAll, hvs, hws]
    rfl

end

end Arc

end ColouredPetri
