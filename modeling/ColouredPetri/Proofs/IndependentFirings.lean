import ColouredPetri.Proofs.BulkUpdates

/-! Firings that do not compete for tokens. What a binding asks for at a marking is the tokens that
it consumes and nothing else, so that two firings which the marking can pay together can be done in
either order, with one result. -/

namespace ColouredPetri

namespace Net

variable {net net₁ net₂ : Net} {m : Marking} {b b₁ b₂ : Binding} {t : Transition}
  {trans trans₁ trans₂ : String}

lemma arcFlows_restore (l : List (String × Arc)) :
    (net.restore m).arcFlows b l = net.arcFlows b l := by
  induction l with
  | nil => rfl
  | cons e l ih =>
    rw [arcFlows, arcFlows, ih]
    rfl

lemma typesRespected_restore {place : String} {arc : Arc} :
    (net.restore m).typesRespected b place arc = .ok true ↔
      net.typesRespected b place arc = .ok true := by
  rw [typesRespected_eq_true_iff, typesRespected_eq_true_iff, place?_restore]
  simp only [Option.map_eq_some_iff]
  constructor
  · rintro ⟨-, vs, ⟨p, hp, rfl⟩, h⟩
    exact ⟨p, vs, hp, h⟩
  · rintro ⟨p, vs, hp, h⟩
    exact ⟨_, vs, ⟨p, hp, rfl⟩, h⟩

lemma available_restore {place : String} {arc : Arc} {p : Place} {f : Bag}
    (hp : net.place? place = some p) (hf : arc.flow (net.scope b) = .ok f)
    (hsub : f.isSubset (m.tokens p.name) = true) :
    (net.restore m).available b place arc = .ok true :=
  available_eq_true_iff.2 ⟨_, f, by rw [place?_restore, hp]; rfl, hf, hsub⟩

lemma flow_restore (h : net.WellFormed) {consumed produced left : Marking}
    (hf : net.flow trans b = .ok (consumed, produced)) (hm : left + consumed = m) :
    (net.restore m).flow trans b = .ok (consumed, produced) := by
  obtain ⟨t, ht, hf⟩ := flow_eq_ok_iff.1 hf
  obtain ⟨he, cs, ps, hc, hp, hpair⟩ := flowOf_eq_ok_iff.1 hf
  obtain ⟨hguard, hin, htypes, hout⟩ := check_eq_true_iff.1 he
  cases hpair
  have htm := (h.keyed.mem_of_transition? ht).1
  have hpays := Marking.exists_add_iff.1 ⟨left, hm⟩
  have henabled : (net.restore m).enabledBy t b = .ok true := by
    refine check_eq_true_iff.2 ⟨hguard, fun _ e hem => ?_, fun _ e hem => ?_, fun e hem => ?_⟩
    · obtain ⟨p, f, hpl, hff, -⟩ := available_eq_true_iff.1 (hin rfl e hem)
      obtain ⟨f', hf', htok⟩ := tokens_arcFlows (h.keys_nodup t htm .input) hc hem
      cases hff.symm.trans hf'
      refine available_restore hpl hff ?_
      rw [(h.keyed.mem_of_place? hpl).2, ← htok]
      exact hpays e.1
    · exact typesRespected_restore.2 (htypes rfl e hem)
    · exact typesRespected_restore.2 (hout e hem)
  exact flow_eq_ok_iff.2 ⟨t, ht, flowOf_eq_ok_iff.2
    ⟨henabled, cs, ps, (arcFlows_restore _).trans hc, (arcFlows_restore _).trans hp, rfl⟩⟩

lemma fire_after (h : net.WellFormed) {consumed₁ produced₁ consumed₂ produced₂ left : Marking}
    (hf₁ : net.flow trans₁ b₁ = .ok (consumed₁, produced₁)) (ha₁ : net.Accepts produced₁)
    (hf₂ : net.flow trans₂ b₂ = .ok (consumed₂, produced₂)) (ha₂ : net.Accepts produced₂)
    (hl : left + (consumed₁ + consumed₂) = net.marking)
    (h₁ : fire trans₁ b₁ net = .ok () net₁) :
    fire trans₂ b₂ net₁ = .ok () (net.restore (left + (produced₁ + produced₂))) := by
  obtain ⟨c, p, rest, hf, hrest, -, rfl⟩ := (fire_eq_ok_iff h).1 h₁
  cases hf₁.symm.trans hf
  obtain rfl : rest = left + consumed₂ := by
    refine add_right_cancel (b := consumed₁) (hrest.trans ?_)
    rw [← hl, add_assoc, add_comm consumed₂]
  have hleft : left + produced₁ + consumed₂ = left + consumed₂ + produced₁ :=
    add_right_comm left produced₁ consumed₂
  have hcovers : net.Covers (left + consumed₂ + produced₁) :=
    (Covers.of_add (n := consumed₁) (hrest ▸ covers_marking)).add (covers_flow h hf₁).2
  have haccepts : net.Accepts (left + consumed₂ + produced₁) :=
    (Accepts.of_add (n := consumed₁) (hrest ▸ accepts_marking h)).add ha₁
  refine (fire_eq_ok_iff (h.restore haccepts)).2
    ⟨consumed₂, produced₂, left + produced₁, flow_restore h hf₂ hleft, ?_, ?_, ?_⟩
  · rw [marking_restore h hcovers, hleft]
  · exact accepts_restore.2 ha₂
  · rw [restore_restore, add_assoc]

theorem firings_commute (h : net.Built) (h₁ : fire trans₁ b₁ net = .ok () net₁)
    (h₂ : fire trans₂ b₂ net = .ok () net₂) :
    ∃ consumed₁ produced₁ consumed₂ produced₂,
      net.flow trans₁ b₁ = .ok (consumed₁, produced₁) ∧
      net.flow trans₂ b₂ = .ok (consumed₂, produced₂) ∧
      ((consumed₁ + consumed₂).isSubset net.marking = true → ∃ left net',
        net.marking.sub (consumed₁ + consumed₂) = .ok left ∧
        fire trans₂ b₂ net₁ = .ok () net' ∧ fire trans₁ b₁ net₂ = .ok () net' ∧
        net'.marking = left + (produced₁ + produced₂)) := by
  have hw := h.wellFormed
  obtain ⟨c₁, p₁, left₁, hf₁, hl₁, ha₁, -⟩ := (fire_eq_ok_iff hw).1 h₁
  obtain ⟨c₂, p₂, -, hf₂, -, ha₂, -⟩ := (fire_eq_ok_iff hw).1 h₂
  refine ⟨c₁, p₁, c₂, p₂, hf₁, hf₂, fun hle => ?_⟩
  obtain ⟨left, hl⟩ := Marking.exists_add_iff.2 (Marking.isSubset_iff.1 hle)
  have hcovers : net.Covers left := Covers.of_add (n := c₁ + c₂) (hl ▸ covers_marking)
  refine ⟨left, _, Marking.sub_eq_ok_iff.2 hl, fire_after hw hf₁ ha₁ hf₂ ha₂ hl h₁, ?_, ?_⟩
  · rw [add_comm p₁]
    exact fire_after hw hf₂ ha₂ hf₁ ha₁ (add_comm c₁ c₂ ▸ hl) h₂
  · exact marking_restore hw (hcovers.add ((covers_flow hw hf₁).2.add (covers_flow hw hf₂).2))

theorem firings_commute_refill : refill.Built ∧ ∃ net₁ net₂ net',
    fire "t" (Binding.single "x" (.int 1)) refill = .ok () net₁ ∧
    fire "t" (Binding.single "x" (.int 2)) refill = .ok () net₂ ∧
    fire "t" (Binding.single "x" (.int 2)) net₁ = .ok () net' ∧
    fire "t" (Binding.single "x" (.int 1)) net₂ = .ok () net' ∧
    net'.marking =
      Marking.ofList [("p", Bag.ofList [.int 2, .int 2]), ("q", Bag.ofList [.int 1, .int 2])] := by
  obtain ⟨c₁, p₁, c₂, p₂, hf₁, hf₂, hcommute⟩ := firings_commute refill_built
    (show fire "t" (Binding.single "x" (.int 1)) refill = .ok () _ from rfl)
    (show fire "t" (Binding.single "x" (.int 2)) refill = .ok () _ from rfl)
  cases hf₁
  cases hf₂
  obtain ⟨left, net', hl, h₁, h₂, hm⟩ := hcommute (by decide)
  cases hl
  exact ⟨refill_built, _, _, net', rfl, rfl, h₁, h₂, hm⟩

end Net

end ColouredPetri
