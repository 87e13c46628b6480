import ColouredPetri.Proofs.Arcs.Search
import ColouredPetri.Proofs.Restrictions

/-! Completeness of the search on one arc. If an arc of values, variables, tuples and several of
these takes its flow out of some tokens under a binding, the search on these tokens finds the
restriction of the binding to the variables of the arc. -/

namespace ColouredPetri

lemma keepModes_ok {check : Binding → Except Error Bool} {l : List Binding}
    (h : ∀ c ∈ l, (∃ r, check c = .ok r) ∨ ∃ e, check c = .error e ∧ e.isDomain = true) :
    ∃ found, keepModes check l = .ok found := by
  induction l with
  | nil => exact ⟨[], rfl⟩
  | cons c l ih =>
    obtain ⟨hc, hl⟩ := List.forall_mem_cons.1 h
    obtain ⟨found, hfound⟩ := ih hl
    rcases hc with ⟨r, hr⟩ | ⟨e, he, hd⟩
    · cases r with
      | true => exact ⟨c :: found, by simp [keepModes, hr, hfound]⟩
      | false => exact ⟨found, by simp [keepModes, hr, hfound]⟩
    · exact ⟨found, by simp [keepModes, he, hd, hfound]⟩

lemma mem_keepModes_of_check {check : Binding → Except Error Bool} {l found : List Binding}
    {b : Binding} (h : keepModes check l = .ok found) (hb : b ∈ l) (hc : check b = .ok true) :
    b ∈ found := by
  induction l generalizing found with
  | nil => cases hb
  | cons c l ih =>
    have hrest : ∀ {found}, keepModes check l = .ok found → b ∈ l → b ∈ found := fun h hb => ih h hb
    rw [keepModes] at h
    rcases List.mem_cons.1 hb with rfl | hb
    · rw [hc] at h
      obtain ⟨rest, -, h⟩ := except_bind_eq_ok.1 h
      cases h
      exact List.mem_cons_self
    · split at h
      · obtain ⟨rest, hl, h⟩ := except_bind_eq_ok.1 h
        cases h
        exact List.mem_cons_of_mem _ (hrest hl hb)
      · exact hrest h hb
      · split at h
        · exact hrest h hb
        · cases h

namespace Arc

mutual

def simple : Arc → Bool
  | value _ => true
  | var _ => true
  | tuple parts => allSimple parts
  | _ => false

def allSimple : List Arc → Bool
  | [] => true
  | a :: l => simple a && allSimple l

end

mutual

def solvable : Arc → Bool
  | value _ => true
  | var _ => true
  | tuple parts => allSimple parts
  | multi parts => allSolvable parts
  | _ => false

def allSolvable : List Arc → Bool
  | [] => true
  | a :: l => solvable a && allSolvable l

end

lemma solvable_of_simple {a : Arc} (h : a.simple = true) : a.solvable = true := by
  cases a with
  | multi _ => cases h
  | _ => exact h

lemma mem_varsAll {l : List Arc} {name : String} :
    name ∈ (varsAll l).keys ↔ ∃ a ∈ l, name ∈ (vars a).keys := by
  induction l with
  | nil => exact ⟨nofun, fun ⟨_, ha, _⟩ => by cases ha⟩
  | cons a l ih => rw [varsAll, KeySet.mem_keys_union, ih, List.exists_mem_cons_iff]

variable {globals b g : Binding} {s : Scope}

section Evaluation

lemma choices_singletons (vs : List Value) :
    Binding.choices ((vs.map fun v => Bag.ofList [v]).map Bag.toList) = [vs] := by
  induction vs with
  | nil => rfl
  | cons v vs ih =>
    rw [List.map_cons, List.map_cons, Binding.choices, Bag.toList_ofList_singleton, ih]
    rfl

lemma tuples_singletons (vs : List Value) :
    tuples (vs.map fun v => Bag.ofList [v]) = Bag.ofList [.tuple vs] := by
  rw [tuples, choices_singletons]
  rfl

mutual

lemma flow_simple : ∀ {a : Arc}, a.simple = true →
    flow s a = (bind s a).map fun v => Bag.ofList [v]
  | value _, _ => rfl
  | var name, _ => by
    rw [flow]
    cases bind s (var name) <;> rfl
  | formula _, h => by cases h
  | multi _, h => by cases h
  | tuple parts, h => by
    rw [flow, bind, flowAll_simple (l := parts) h]
    cases bindAll s parts with
    | error e => rfl
    | ok vs => exact congrArg Except.ok (tuples_singletons vs)
  | test _, h => by cases h
  | inhibitor _ _, h => by cases h
  | flush _, h => by cases h

lemma flowAll_simple : ∀ {l : List Arc}, allSimple l = true →
    flowAll s l = (bindAll s l).map fun vs => vs.map fun v => Bag.ofList [v]
  | [], _ => rfl
  | a :: l, h => by
    obtain ⟨ha, hl⟩ := Bool.and_eq_true_iff.1 h
    rw [flowAll, bindAll, flow_simple ha, flowAll_simple hl]
    cases bind s a with
    | error e => rfl
    | ok v => cases bindAll s l <;> rfl

end

def Settled {α : Type} (x : Except Error α) (fails : Error → Bool) : Prop :=
  (∃ a, x = .ok a) ∨ ∃ e, x = .error e ∧ fails e = true

lemma Settled.bind {α β : Type} {x : Except Error α} {f : α → Except Error β}
    {fails : Error → Bool} (hx : Settled x fails) (hf : ∀ a, Settled (f a) fails) :
    Settled (x >>= f) fails := by
  rcases hx with ⟨a, rfl⟩ | ⟨e, rfl, he⟩
  · exact hf a
  · exact .inr ⟨e, rfl, he⟩

lemma Settled.ok {α : Type} {fails : Error → Bool} (a : α) : Settled (.ok a) fails := .inl ⟨a, rfl⟩

lemma bind_var_settled (name : String) : Settled (bind s (var name)) Error.isDomain := by
  rw [bind, Binding.lookup]
  cases s.binding.get? name with
  | none => exact .inr ⟨_, rfl, rfl⟩
  | some v => exact .ok v

mutual

lemma bind_simple_settled : ∀ {a : Arc}, a.simple = true → Settled (bind s a) Error.isDomain
  | value v, _ => .ok v
  | var name, _ => bind_var_settled name
  | formula _, h => by cases h
  | multi _, h => by cases h
  | tuple parts, h => by
    rw [bind]
    exact (bindAll_simple_settled (l := parts) h).bind fun vs => .ok _
  | test _, h => by cases h
  | inhibitor _ _, h => by cases h
  | flush _, h => by cases h

lemma bindAll_simple_settled : ∀ {l : List Arc}, allSimple l = true →
    Settled (bindAll s l) Error.isDomain
  | [], _ => .ok []
  | a :: l, h => by
    obtain ⟨ha, hl⟩ := Bool.and_eq_true_iff.1 h
    rw [bindAll]
    exact (bind_simple_settled ha).bind fun v => (bindAll_simple_settled hl).bind fun vs => .ok _

end

mutual

lemma flow_settled : ∀ {a : Arc}, a.solvable = true → Settled (flow s a) Error.isDomain
  | value v, _ => .ok _
  | var name, _ => by
    rw [flow]
    exact (bind_var_settled name).bind fun v => .ok _
  | formula _, h => by cases h
  | multi parts, h => by
    rw [flow]
    exact (flowAll_settled (l := parts) h).bind fun fs => .ok _
  | tuple parts, h => by
    rw [flow_simple (a := tuple parts) h]
    exact (bind_simple_settled (a := tuple parts) h).bind fun v => .ok (Bag.ofList [v])
  | test _, h => by cases h
  | inhibitor _ _, h => by cases h
  | flush _, h => by cases h

lemma flowAll_settled : ∀ {l : List Arc}, allSolvable l = true →
    Settled (flowAll s l) Error.isDomain
  | [], _ => .ok []
  | a :: l, h => by
    obtain ⟨ha, hl⟩ := Bool.and_eq_true_iff.1 h
    rw [flowAll]
    exact (flow_settled ha).bind fun f => (flowAll_settled hl).bind fun fs => .ok _

end

lemma length_of_bindAll {l : List Arc} {items : List Value} (h : bindAll s l = .ok items) :
    items.length = l.length := by
  induction l generalizing items with
  | nil =>
    cases h
    rfl
  | cons a l ih =>
    rw [bindAll, except_bind_eq_ok] at h
    obtain ⟨v, -, h⟩ := h
    obtain ⟨vs, hvs, h⟩ := except_bind_eq_ok.1 h
    cases h
    rw [List.length_cons, ih hvs, List.length_cons]

mutual

lemma bind_simple_congr : ∀ {a : Arc}, a.simple = true →
    (∀ name ∈ (vars a).keys, g.get? name = b.get? name) →
    bind ⟨g, globals⟩ a = bind ⟨b, globals⟩ a
  | value _, _, _ => rfl
  | var name, _, h => by
    have hn := h name (KeySet.mem_keys_ofList.2 (List.mem_singleton_self name))
    simp only [bind, Binding.lookup, hn]
  | formula _, hs, _ => by cases hs
  | multi _, hs, _ => by cases hs
  | tuple parts, hs, h => by rw [bind, bind, bindAll_simple_congr (l := parts) hs h]
  | test _, hs, _ => by cases hs
  | inhibitor _ _, hs, _ => by cases hs
  | flush _, hs, _ => by cases hs

lemma bindAll_simple_congr : ∀ {l : List Arc}, allSimple l = true →
    (∀ name ∈ (varsAll l).keys, g.get? name = b.get? name) →
    bindAll ⟨g, globals⟩ l = bindAll ⟨b, globals⟩ l
  | [], _, _ => rfl
  | a :: l, hs, h => by
    obtain ⟨ha, hl⟩ := Bool.and_eq_true_iff.1 hs
    rw [bindAll, bindAll,
      bind_simple_congr ha fun name hn => h name (KeySet.mem_keys_union.2 (.inl hn)),
      bindAll_simple_congr hl fun name hn => h name (KeySet.mem_keys_union.2 (.inr hn))]

end

mutual

lemma flow_congr : ∀ {a : Arc}, a.solvable = true →
    (∀ name ∈ (vars a).keys, g.get? name = b.get? name) →
    flow ⟨g, globals⟩ a = flow ⟨b, globals⟩ a
  | value _, _, _ => rfl
  | var name, _, h => by
    rw [flow_simple (a := var name) rfl, flow_simple (a := var name) rfl,
      bind_simple_congr (a := var name) rfl h]
  | formula _, hs, _ => by cases hs
  | multi parts, hs, h => by rw [flow, flow, flowAll_congr (l := parts) hs h]
  | tuple parts, hs, h => by
    rw [flow_simple (a := tuple parts) hs, flow_simple (a := tuple parts) hs,
      bind_simple_congr (a := tuple parts) hs h]
  | test _, hs, _ => by cases hs
  | inhibitor _ _, hs, _ => by cases hs
  | flush _, hs, _ => by cases hs

lemma flowAll_congr : ∀ {l : List Arc}, allSolvable l = true →
    (∀ name ∈ (varsAll l).keys, g.get? name = b.get? name) →
    flowAll ⟨g, globals⟩ l = flowAll ⟨b, globals⟩ l
  | [], _, _ => rfl
  | a :: l, hs, h => by
    obtain ⟨ha, hl⟩ := Bool.and_eq_true_iff.1 hs
    rw [flowAll, flowAll, flow_congr ha fun name hn => h name (KeySet.mem_keys_union.2 (.inl hn)),
      flowAll_congr hl fun name hn => h name (KeySet.mem_keys_union.2 (.inr hn))]

end

end Evaluation

section Search

variable {available : Bag}

lemma matchTokens_ok {matchParts : List Value → Except Error (Option (List (List Binding)))}
    {l : List (List Value)} (h : ∀ items, ∃ r, matchParts items = .ok r) :
    ∃ found, matchTokens matchParts l = .ok found ∧ ∀ items ∈ l, ∀ parts,
      matchParts items = .ok (some parts) → ∀ g ∈ Binding.combine parts, g ∈ found := by
  induction l with
  | nil => exact ⟨[], rfl, nofun⟩
  | cons items l ih =>
    obtain ⟨rest, hrest, hmem⟩ := ih
    obtain ⟨r, hr⟩ := h items
    cases r with
    | none =>
      refine ⟨rest, by rw [matchTokens, hr]; exact hrest, List.forall_mem_cons.2 ⟨?_, hmem⟩⟩
      intro parts hp
      cases hr.symm.trans hp
    | some parts =>
      refine ⟨Binding.combine parts ++ rest, by rw [matchTokens, hr]; simp [hrest],
        List.forall_mem_cons.2 ⟨?_, ?_⟩⟩
      · intro parts' hp g hg
        cases hr.symm.trans hp
        exact List.mem_append_left _ hg
      · exact fun items' hi parts' hp g hg =>
          List.mem_append_right _ (hmem items' hi parts' hp g hg)

mutual

lemma modes_simple_settled : ∀ {a : Arc} {available : Bag}, a.simple = true →
    Settled (modes globals a available) Error.isMode
  | value v, available, _ => by
    rw [modes]
    split
    · exact .ok _
    · exact .inr ⟨_, rfl, rfl⟩
  | var name, available, _ => by
    rw [modes]
    split
    · exact .inr ⟨_, rfl, rfl⟩
    · exact .ok _
  | formula _, _, h => by cases h
  | multi _, _, h => by cases h
  | tuple parts, available, h => by
    have hitems : ∀ items, ∃ r, matchItems globals parts items = .ok r := fun _ => matchItems_ok h
    obtain ⟨found, hfound, -⟩ :=
      matchTokens_ok (l := tuplesOfLength parts.length available.toList) hitems
    rw [modes, hfound, except_ok_bind]
    split
    · exact .inr ⟨_, rfl, rfl⟩
    · exact .ok _
  | test _, _, h => by cases h
  | inhibitor _ _, _, h => by cases h
  | flush _, _, h => by cases h

lemma matchItems_ok : ∀ {l : List Arc} {items : List Value}, allSimple l = true →
    ∃ r, matchItems globals l items = .ok r
  | [], _, _ => ⟨_, rfl⟩
  | _ :: _, [], _ => ⟨_, rfl⟩
  | a :: l, item :: items, h => by
    obtain ⟨ha, hl⟩ := Bool.and_eq_true_iff.1 h
    obtain ⟨r, hr⟩ : ∃ r, matchItems globals l items = .ok r := matchItems_ok hl
    have hmodes : Settled (modes globals a (Bag.ofList [item])) Error.isMode :=
      modes_simple_settled ha
    rcases hmodes with ⟨found, hf⟩ | ⟨e, he, hm⟩
    · exact ⟨r.map (found :: ·), by simp [matchItems, hf, hr]⟩
    · exact ⟨none, by simp [matchItems, he, hm]⟩

end

def Hits (b : Binding) (found : List Binding) (a : Arc) : Prop :=
  ∃ g ∈ found, g.Restricts b (· ∈ (vars a).keys)

lemma hits_combine {found : List (List Binding)} {l : List Arc}
    (h : List.Forall₂ (Hits b) found l) :
    ∃ g ∈ Binding.combine found, g.Restricts b (· ∈ (varsAll l).keys) := by
  have hnames : List.Forall₂ (fun part T => ∃ g ∈ part, g.Restricts b T) found
      (l.map fun a name => name ∈ (vars a).keys) := List.forall₂_map_right_iff.2 h
  obtain ⟨g, hg, hr⟩ := Binding.combine_restricts hnames
  refine ⟨g, hg, hr.congr fun name => ?_⟩
  rw [mem_varsAll]
  simp only [List.mem_map]
  constructor
  · rintro ⟨_, ⟨a, ha, rfl⟩, hn⟩
    exact ⟨a, ha, hn⟩
  · rintro ⟨a, ha, hn⟩
    exact ⟨_, ⟨a, ha, rfl⟩, hn⟩

lemma isSubset_of_mem_sum {fs : List Bag} {f : Bag}
    (h : (fs.foldl (· + ·) Bag.empty).isSubset available = true) (hf : f ∈ fs) :
    f.isSubset available = true := by
  have hle : ∀ {acc : Bag} {v : Value}, acc.count v ≤ (fs.foldl (· + ·) acc).count v ∧
      ∀ f ∈ fs, f.count v ≤ (fs.foldl (· + ·) acc).count v := by
    clear h hf
    intro acc v
    induction fs generalizing acc with
    | nil => exact ⟨Nat.le_refl _, nofun⟩
    | cons f fs ih =>
      obtain ⟨hacc, hfs⟩ := @ih (acc + f)
      rw [Bag.count_sum] at hacc
      rw [List.foldl_cons]
      exact ⟨by omega, List.forall_mem_cons.2 ⟨by omega, hfs⟩⟩
  exact Bag.isSubset_iff.2 fun v => Nat.le_trans (hle.2 f hf) (Bag.isSubset_iff.1 h v)

lemma mem_of_isSubset_singleton {v : Value} (h : (Bag.ofList [v]).isSubset available = true) :
    v ∈ available.toList := by
  have hcount := Bag.isSubset_iff.1 h v
  rw [Bag.count_ofList, List.count_singleton_self] at hcount
  exact Bag.mem_toList.2 hcount

lemma found_value {v : Value} (hsub : (Bag.ofList [v]).isSubset available = true) :
    ∃ found, modes globals (value v) available = .ok found ∧ Hits b found (value v) := by
  refine ⟨[Table.empty], ?_, Table.empty, List.mem_singleton_self _, ?_⟩
  · rw [modes, if_pos (Bag.contains_iff.2 (mem_of_isSubset_singleton hsub))]
    rfl
  · exact Binding.empty_restricts.congr fun _ => ⟨False.elim, nofun⟩

lemma found_var {name : String} {v : Value} (hv : b.get? name = some v)
    (hsub : (Bag.ofList [v]).isSubset available = true) :
    ∃ found, modes globals (var name) available = .ok found ∧ Hits b found (var name) := by
  have hmem := mem_of_isSubset_singleton hsub
  have hempty : ¬ available.isEmpty = true := by
    rw [Bag.isEmpty_iff]
    rintro rfl
    cases hmem
  refine ⟨available.toList.map fun v => Binding.single name v, ?_, Binding.single name v,
    List.mem_map_of_mem hmem, (Binding.single_restricts hv).congr fun other => ?_⟩
  · rw [modes, if_neg hempty]
    rfl
  · exact (KeySet.mem_keys_ofList.trans List.mem_singleton).symm

lemma found_multi {parts : List Arc} {f : Bag} {each : List (List Binding)}
    (h : (multi parts).solvable = true) (hf : flow ⟨b, globals⟩ (multi parts) = .ok f)
    (hsub : f.isSubset available = true) (heach : modesEach globals parts available = .ok each)
    (hhits : List.Forall₂ (Hits b) each parts) :
    ∃ found, modes globals (multi parts) available = .ok found ∧ Hits b found (multi parts) := by
  obtain ⟨g, hg, hr⟩ := hits_combine hhits
  -- the combinations are filtered by the flow, which the restriction shares with the binding
  have hcheck : flow ⟨g, globals⟩ (multi parts) = .ok f :=
    (flow_congr (a := multi parts) h fun name hn => hr.get?_eq hn).trans hf
  obtain ⟨found, hfound⟩ : ∃ found, keepModes
      (fun c => return (← flow ⟨c, globals⟩ (multi parts)).isSubset available)
      (Binding.combine each) = .ok found :=
    keepModes_ok fun c _ => (flow_settled (a := multi parts) h).bind fun f => .ok _
  refine ⟨found, by rw [modes, heach]; exact hfound, g, ?_, hr⟩
  refine mem_keepModes_of_check hfound hg ?_
  rw [hcheck]
  exact congrArg Except.ok hsub

lemma found_tuple {parts : List Arc} {items : List Value} {each : List (List Binding)}
    (h : allSimple parts = true) (hi : bindAll ⟨b, globals⟩ parts = .ok items)
    (hsub : (Bag.ofList [.tuple items]).isSubset available = true)
    (heach : matchItems globals parts items = .ok (some each))
    (hhits : List.Forall₂ (Hits b) each parts) :
    ∃ found, modes globals (tuple parts) available = .ok found ∧ Hits b found (tuple parts) := by
  obtain ⟨g, hg, hr⟩ := hits_combine hhits
  have hitems : ∀ items, ∃ r, matchItems globals parts items = .ok r := fun _ => matchItems_ok h
  obtain ⟨found, hfound, hmem⟩ :=
    matchTokens_ok (l := tuplesOfLength parts.length available.toList) hitems
  have hlength : items ∈ tuplesOfLength parts.length available.toList :=
    mem_tuplesOfLength.2 ⟨mem_of_isSubset_singleton hsub, length_of_bindAll hi⟩
  have hg := hmem items hlength each heach g hg
  refine ⟨found, ?_, g, hg, hr⟩
  rw [modes, hfound, except_ok_bind, if_neg]
  · rfl
  · rw [List.isEmpty_iff]
    rintro rfl
    cases hg

mutual

lemma found_of_flow : ∀ {a : Arc} {available f : Bag}, a.solvable = true →
    flow ⟨b, globals⟩ a = .ok f → f.isSubset available = true →
    ∃ found, modes globals a available = .ok found ∧ Hits b found a
  | value v, available, _, _, hf, hsub => by
    cases hf
    exact found_value hsub
  | var name, available, _, _, hf, hsub => by
    rw [flow_simple (a := var name) rfl, bind, Binding.lookup] at hf
    cases hv : b.get? name with
    | none =>
      rw [hv] at hf
      cases hf
    | some v =>
      rw [hv] at hf
      cases hf
      exact found_var hv hsub
  | formula _, _, _, h, _, _ => by cases h
  | multi parts, available, _, h, hf, hsub => by
    have hflow := hf
    rw [flow, except_bind_eq_ok] at hf
    obtain ⟨fs, hfs, hf⟩ := hf
    cases hf
    obtain ⟨each, heach, hhits⟩ := foundEach_of_flowAll (l := parts) h hfs
      fun f hf => isSubset_of_mem_sum hsub hf
    exact found_multi h hflow hsub heach hhits
  | tuple parts, available, _, h, hf, hsub => by
    rw [flow_simple (a := tuple parts) h, bind] at hf
    cases hi : bindAll ⟨b, globals⟩ parts with
    | error e =>
      rw [hi] at hf
      cases hf
    | ok items =>
      rw [hi] at hf
      cases hf
      obtain ⟨each, heach, hhits⟩ := foundItems_of_bindAll (l := parts) h hi
      exact found_tuple h hi hsub heach hhits
  | test _, _, _, h, _, _ => by cases h
  | inhibitor _ _, _, _, h, _, _ => by cases h
  | flush _, _, _, h, _, _ => by cases h

lemma foundEach_of_flowAll : ∀ {l : List Arc} {available : Bag} {fs : List Bag},
    allSolvable l = true → flowAll ⟨b, globals⟩ l = .ok fs →
    (∀ f ∈ fs, f.isSubset available = true) →
    ∃ found, modesEach globals l available = .ok found ∧ List.Forall₂ (Hits b) found l
  | [], _, _, _, _, _ => ⟨[], rfl, .nil⟩
  | a :: l, _, _, h, hf, hsub => by
    obtain ⟨ha, hl⟩ := Bool.and_eq_true_iff.1 h
    rw [flowAll, except_bind_eq_ok] at hf
    obtain ⟨f, hf₁, hf⟩ := hf
    obtain ⟨fs, hfs, hf⟩ := except_bind_eq_ok.1 hf
    cases hf
    obtain ⟨hsub₁, hsub⟩ := List.forall_mem_cons.1 hsub
    obtain ⟨found, hfound, hhits⟩ := found_of_flow ha hf₁ hsub₁
    obtain ⟨rest, hrest, hall⟩ := foundEach_of_flowAll hl hfs hsub
    exact ⟨found :: rest, by simp [modesEach, hfound, hrest], .cons hhits hall⟩

lemma foundItems_of_bindAll : ∀ {l : List Arc} {items : List Value}, allSimple l = true →
    bindAll ⟨b, globals⟩ l = .ok items →
    ∃ found, matchItems globals l items = .ok (some found) ∧ List.Forall₂ (Hits b) found l
  | [], _, _, hi => by
    cases hi
    exact ⟨[], rfl, .nil⟩
  | a :: l, _, h, hi => by
    obtain ⟨ha, hl⟩ := Bool.and_eq_true_iff.1 h
    rw [bindAll, except_bind_eq_ok] at hi
    obtain ⟨item, hitem, hi⟩ := hi
    obtain ⟨items, hitems, hi⟩ := except_bind_eq_ok.1 hi
    cases hi
    have hflow : flow ⟨b, globals⟩ a = .ok (Bag.ofList [item]) := by rw [flow_simple ha, hitem]; rfl
    have hself : (Bag.ofList [item]).isSubset (Bag.ofList [item]) = true :=
      Bag.isSubset_iff.2 fun _ => Nat.le_refl _
    obtain ⟨found, hfound, hhits⟩ := found_of_flow (solvable_of_simple ha) hflow hself
    obtain ⟨rest, hrest, hall⟩ := foundItems_of_bindAll hl hitems
    exact ⟨found :: rest, by simp [matchItems, hfound, hrest], .cons hhits hall⟩

end

end Search

end Arc

end ColouredPetri
