import ColouredPetri.Proofs.Arcs.Completeness
import ColouredPetri.Proofs.EnabledModes

namespace ColouredPetri

namespace Binding

variable {b f g h : Binding} {name : String}

lemma Extends.restricts (hb : b.Extends g) : g.Restricts b (· ∈ g.keys) := by
  intro name v
  constructor
  · exact fun hv => ⟨Table.mem_keys_iff.2 ⟨v, hv⟩, hb name v hv⟩
  · rintro ⟨hname, hv⟩
    obtain ⟨w, hw⟩ := Table.mem_keys_iff.1 hname
    obtain rfl := Option.some.inj ((hb name w hw).symm.trans hv)
    exact hw

lemma Extends.mem_keys (hb : b.Extends g) (hn : name ∈ g.keys) : name ∈ b.keys := by
  obtain ⟨v, hv⟩ := Table.mem_keys_iff.1 hn
  exact Table.mem_keys_iff.2 ⟨v, hb name v hv⟩

lemma mem_keys_merge (hm : f.merge g = .ok h) (hn : name ∈ h.keys) :
    name ∈ f.keys ∨ name ∈ g.keys := by
  obtain ⟨hf, hg⟩ := merge_extends hm
  obtain ⟨h', hm', hrestricts⟩ := merge_restricts hf.restricts hg.restricts
  cases hm.symm.trans hm'
  obtain ⟨v, hv⟩ := Table.mem_keys_iff.1 hn
  exact ((hrestricts name v).1 hv).1

lemma mem_keys_combineOnto {parts : List (List Binding)} (hh : h ∈ combineOnto f parts)
    (hn : name ∈ h.keys) : name ∈ f.keys ∨ ∃ part ∈ parts, ∃ g ∈ part, name ∈ g.keys := by
  induction parts generalizing f with
  | nil =>
    rw [List.mem_singleton.1 hh] at hn
    exact .inl hn
  | cons part parts ih =>
    obtain ⟨g, hg, hh⟩ := List.mem_flatMap.1 hh
    split at hh
    · next k hk =>
      rcases ih hh with hk' | ⟨part', hp, hrest⟩
      · refine (mem_keys_merge hk hk').imp_right fun hng => ?_
        exact ⟨part, List.mem_cons_self, g, hg, hng⟩
      · exact .inr ⟨part', List.mem_cons_of_mem _ hp, hrest⟩
    · cases hh

lemma mem_keys_combine {parts : List (List Binding)} (hh : h ∈ combine parts)
    (hn : name ∈ h.keys) : ∃ part ∈ parts, ∃ g ∈ part, name ∈ g.keys :=
  (mem_keys_combineOnto hh hn).resolve_left List.not_mem_nil

lemma eq_of_mem_keys_single {other : String} {v : Value} (hn : name ∈ (single other v).keys) :
    name = other := by
  rw [single, Table.mem_keys_insert] at hn
  exact hn.resolve_left List.not_mem_nil

end Binding

namespace Arc

variable {globals g : Binding} {available : Bag} {found : List Binding} {name : String}

lemma combine_of_modes_multi {parts : List Arc}
    (h : modes globals (multi parts) available = .ok found) (hg : g ∈ found) :
    ∃ each, modesEach globals parts available = .ok each ∧ g ∈ Binding.combine each := by
  rw [modes, except_bind_eq_ok] at h
  obtain ⟨each, heach, h⟩ := h
  exact ⟨each, heach, (mem_keepModes h g hg).1⟩

lemma combine_of_modes_tuple {parts : List Arc}
    (h : modes globals (tuple parts) available = .ok found) (hg : g ∈ found) :
    ∃ items each, matchItems globals parts items = .ok (some each) ∧ g ∈ Binding.combine each := by
  rw [modes, except_bind_eq_ok] at h
  obtain ⟨all, hall, h⟩ := h
  split at h
  · cases h
  · cases h
    obtain ⟨items, -, each, heach, hcomb⟩ := mem_matchTokens hall g hg
    exact ⟨items, each, heach, hcomb⟩

lemma eq_empty_of_modes_inhibitor {inner : Arc} {condition : Formula}
    (h : modes globals (inhibitor inner condition) available = .ok found) (hg : g ∈ found) :
    g = Table.empty := by
  rw [modes] at h
  split at h
  · split at h
    · cases h
      exact List.mem_singleton.1 hg
    · cases h
  · obtain ⟨witness, -, h⟩ := except_bind_eq_ok.1 h
    cases witness with
    | some b => cases h
    | none =>
      cases h
      exact List.mem_singleton.1 hg

mutual

lemma keys_of_modes : ∀ {a : Arc} {available : Bag} {found : List Binding},
    modes globals a available = .ok found → ∀ g ∈ found, ∀ name ∈ g.keys, name ∈ (vars a).keys
  | value v, _, _, h, g, hg, name, hn => by
    rw [modes] at h
    split at h
    · cases h
      rw [List.mem_singleton.1 hg] at hn
      cases hn
    · cases h
  | var other, _, _, h, g, hg, name, hn => by
    obtain ⟨v, -, rfl⟩ := mem_modes_var h hg
    rw [vars, KeySet.mem_keys_ofList, List.mem_singleton]
    exact Binding.eq_of_mem_keys_single hn
  | formula _, _, _, h, _, _, _, _ => by cases h
  | multi parts, _, _, h, g, hg, name, hn => by
    obtain ⟨each, heach, hcomb⟩ := combine_of_modes_multi h hg
    obtain ⟨part, hp, g', hg', hn'⟩ := Binding.mem_keys_combine hcomb hn
    exact keys_of_modesEach heach part hp g' hg' name hn'
  | tuple parts, _, _, h, g, hg, name, hn => by
    obtain ⟨items, each, heach, hcomb⟩ := combine_of_modes_tuple h hg
    obtain ⟨part, hp, g', hg', hn'⟩ := Binding.mem_keys_combine hcomb hn
    exact keys_of_matchItems heach part hp g' hg' name hn'
  | test inner, _, _, h, g, hg, name, hn => by
    rw [modes] at h
    exact keys_of_modes (a := inner) h g hg name hn
  | inhibitor _ _, _, _, h, g, hg, name, hn => by
    rw [eq_empty_of_modes_inhibitor h hg] at hn
    cases hn
  | flush _, _, _, h, g, hg, name, hn => by
    obtain ⟨other, rfl, rfl⟩ := mem_modes_flush h hg
    rw [vars, vars, KeySet.mem_keys_ofList, List.mem_singleton]
    exact Binding.eq_of_mem_keys_single hn

lemma keys_of_modesEach : ∀ {l : List Arc} {available : Bag} {all : List (List Binding)},
    modesEach globals l available = .ok all →
      ∀ part ∈ all, ∀ g ∈ part, ∀ name ∈ g.keys, name ∈ (varsAll l).keys
  | [], _, _, h, _, hp, _, _, _, _ => by
    cases h
    cases hp
  | a :: l, _, _, h, part, hp, g, hg, name, hn => by
    obtain ⟨first, rest, hfirst, hrest, rfl⟩ := modesEach_cons h
    rw [varsAll, KeySet.mem_keys_union]
    rcases List.mem_cons.1 hp with rfl | hp
    · exact .inl (keys_of_modes hfirst g hg name hn)
    · exact .inr (keys_of_modesEach hrest part hp g hg name hn)

lemma keys_of_matchItems : ∀ {l : List Arc} {items : List Value} {all : List (List Binding)},
    matchItems globals l items = .ok (some all) →
      ∀ part ∈ all, ∀ g ∈ part, ∀ name ∈ g.keys, name ∈ (varsAll l).keys
  | [], _, _, h, _, hp, _, _, _, _ => by
    rw [matchItems] at h
    cases h
    cases hp
  | _ :: _, [], _, h, _, hp, _, _, _, _ => by
    rw [matchItems] at h
    cases h
    cases hp
  | a :: l, item :: items, _, h, part, hp, g, hg, name, hn => by
    obtain ⟨first, rest, hfirst, hrest, rfl⟩ := matchItems_cons h
    rw [varsAll, KeySet.mem_keys_union]
    rcases List.mem_cons.1 hp with rfl | hp
    · exact .inl (keys_of_modes hfirst g hg name hn)
    · exact .inr (keys_of_matchItems hrest part hp g hg name hn)

end

end Arc

namespace Net

variable {net : Net} {b : Binding} {trans : String}

lemma found_of_modes {modes : List Binding} (hm : net.modes trans = .ok modes) (hb : b ∈ modes) :
    ∃ t, net.transition? trans = some t ∧ ∀ e ∈ t.inputs, net.Found b e := by
  rw [Net.modes, except_bind_eq_ok] at hm
  obtain ⟨t, ht, hm⟩ := hm
  exact ⟨t, transition_eq_ok_iff.1 ht, (mem_modesOf hm hb).2⟩

lemma Found.flow {e : String × Arc} (h : net.Found b e) : ∃ p f, net.place? e.1 = some p ∧
    e.2.flow (net.scope b) = .ok f ∧ ∀ v, f.count v ≤ p.tokens.count v := by
  obtain ⟨p, found, hp, hfound, g, hg, hext⟩ := h
  obtain ⟨f, hsub, hf⟩ := Arc.flow_of_modes hfound g hg
  exact ⟨p, f, hp, hf b hext, Bag.isSubset_iff.1 hsub⟩

theorem modes_sound :
    (∀ (globals : Binding) (a : Arc) (available : Bag) (found : List Binding),
      a.modes globals available = .ok found → ∀ b ∈ found,
        (∀ name ∈ b.keys, name ∈ a.vars.keys) ∧
        ∃ f, a.flow ⟨b, globals⟩ = .ok f ∧ (∀ v, f.count v ≤ available.count v) ∧
          ∀ b' : Binding, b'.Extends b → a.flow ⟨b', globals⟩ = .ok f) ∧
    ∀ (net : Net) (trans : String) (modes : List Binding), net.modes trans = .ok modes →
      ∀ b ∈ modes, ∃ t, net.transition? trans = some t ∧ ∀ e ∈ t.inputs, ∃ p f,
        net.place? e.1 = some p ∧ e.2.flow (net.scope b) = .ok f ∧
        ∀ v, f.count v ≤ p.tokens.count v := by
  constructor
  · intro globals a available found hfound b hb
    obtain ⟨f, hsub, hf⟩ := Arc.flow_of_modes hfound b hb
    exact ⟨Arc.keys_of_modes hfound b hb, f, hf b (Binding.extends_refl b),
      Bag.isSubset_iff.1 hsub, hf⟩
  · intro net trans modes hm b hb
    obtain ⟨t, ht, hfound⟩ := found_of_modes hm hb
    exact ⟨t, ht, fun e he => (hfound e he).flow⟩

def doubled : Arc := .multi [.var "x", .var "x", .test (.tuple [.var "x", .var "y"])]

def doubling : Net :=
  .ofNodes "doubling"
    [⟨"p", Bag.ofList [.int 1, .int 1, .tuple [.int 1, .int 2]], .any, [], ["t"]⟩,
      ⟨"q", Bag.ofList [.int 3], .any, [], ["t"]⟩]
    [⟨"t", .truth, [("p", doubled), ("q", .flush (.var "z"))], []⟩] Table.empty

theorem modes_sound_doubling : ∃ found b f modes,
    doubled.modes Table.empty (Bag.ofList [.int 1, .int 1, .tuple [.int 1, .int 2]]) = .ok found ∧
    b ∈ found ∧ b.keys = ["x", "y"] ∧ (∀ name ∈ b.keys, name ∈ doubled.vars.keys) ∧
    doubled.flow ⟨b, Table.empty⟩ = .ok f ∧ f.count (.int 1) ≤ 2 ∧
    doubling.modes "t" = .ok modes ∧ modes ≠ [] ∧
    ∀ b ∈ modes, ∃ f, Arc.flow (doubling.scope b) (.flush (.var "z")) = .ok f ∧
      f.count (.int 3) ≤ 1 := by
  have hfound : doubled.modes Table.empty
      (Bag.ofList [.int 1, .int 1, .tuple [.int 1, .int 2]]) = .ok (_ :: _) := rfl
  obtain ⟨hkeys, f, hf, hle, -⟩ := modes_sound.1 _ _ _ _ hfound _ List.mem_cons_self
  refine ⟨_, _, f, _, hfound, List.mem_cons_self, rfl, hkeys, hf, hle (.int 1), rfl,
    List.cons_ne_nil _ _, fun b hb => ?_⟩
  obtain ⟨t, ht, hflow⟩ := modes_sound.2 doubling "t" _ rfl b hb
  cases ht
  obtain ⟨p, f, hp, hf, hle⟩ :=
    hflow ("q", .flush (.var "z")) (List.mem_cons_of_mem _ List.mem_cons_self)
  cases hp
  exact ⟨f, hf, hle (.int 3)⟩

end Net

end ColouredPetri
