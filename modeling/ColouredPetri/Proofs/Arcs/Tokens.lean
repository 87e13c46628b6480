import ColouredPetri.Arc.Flow
import ColouredPetri.Proofs.BagArithmetic
import ColouredPetri.Proofs.Extensions

/-! The tokens that are checked on an arc against the bag that it moves. The two readings differ
in tuples: their check looks at one value, while the flow has a tuple for each choice of tokens. -/

namespace ColouredPetri

namespace Arc

mutual

/-- Whether the arc moves nothing but the one token that stands for it. -/
def scalar : Arc → Bool
  | value _ => true
  | var _ => true
  | formula _ => true
  | multi _ => false
  | tuple parts => allScalar parts
  | test _ => true
  | inhibitor _ _ => true
  | flush _ => false

def allScalar : List Arc → Bool
  | [] => true
  | a :: l => scalar a && allScalar l

end

mutual

def scalarTuples : Arc → Bool
  | multi parts => allScalarTuples parts
  | tuple parts => allScalar parts
  | _ => true

def allScalarTuples : List Arc → Bool
  | [] => true
  | a :: l => scalarTuples a && allScalarTuples l

end

variable {s : Scope}

mutual

lemma flow_of_bind : ∀ {a : Arc} {v : Value}, bind s a = .ok v → ∃ f, flow s a = .ok f
  | value v, _, _ => ⟨_, rfl⟩
  | var name, w, h => ⟨Bag.ofList [w], by rw [flow, h]; rfl⟩
  | formula g, w, h => ⟨Bag.ofList [w], by rw [flow, h]; rfl⟩
  | multi parts, _, h => by
    rw [bind, except_bind_eq_ok] at h
    obtain ⟨vs, hvs, -⟩ := h
    obtain ⟨fs, hfs⟩ := flowAll_of_bindAll hvs
    exact ⟨fs.foldl (· + ·) Bag.empty, by rw [flow, hfs]; rfl⟩
  | tuple parts, _, h => by
    rw [bind, except_bind_eq_ok] at h
    obtain ⟨vs, hvs, -⟩ := h
    obtain ⟨fs, hfs⟩ := flowAll_of_bindAll hvs
    exact ⟨tuples fs, by rw [flow, hfs]; rfl⟩
  | test _, _, _ => ⟨_, rfl⟩
  | inhibitor _ _, _, _ => ⟨_, rfl⟩
  | flush inner, _, h => by
    rw [bind, except_bind_eq_ok] at h
    obtain ⟨v, hv, -⟩ := h
    exact ⟨Bag.ofList v.spread, by rw [flow, hv]; rfl⟩

lemma flowAll_of_bindAll : ∀ {l : List Arc} {vs : List Value}, bindAll s l = .ok vs →
    ∃ fs, flowAll s l = .ok fs
  | [], _, _ => ⟨[], rfl⟩
  | a :: l, _, h => by
    rw [bindAll, except_bind_eq_ok] at h
    obtain ⟨v, hv, h⟩ := h
    obtain ⟨vs, hvs, -⟩ := except_bind_eq_ok.1 h
    obtain ⟨f, hf⟩ := flow_of_bind hv
    obtain ⟨fs, hfs⟩ := flowAll_of_bindAll hvs
    exact ⟨f :: fs, by rw [flowAll, hf, hfs]; rfl⟩

end

mutual

lemma flow_of_tokens : ∀ {a : Arc} {vs : List Value}, tokens s a = .ok vs → ∃ f, flow s a = .ok f
  | value v, _, _ => ⟨_, rfl⟩
  | var name, _, h => by
    rw [tokens, except_bind_eq_ok] at h
    obtain ⟨v, hv, -⟩ := h
    exact flow_of_bind hv
  | formula g, _, h => by
    rw [tokens, except_bind_eq_ok] at h
    obtain ⟨v, hv, -⟩ := h
    exact flow_of_bind hv
  | multi parts, _, h => by
    rw [tokens] at h
    obtain ⟨fs, hfs⟩ := flowAll_of_tokensAll h
    exact ⟨fs.foldl (· + ·) Bag.empty, by rw [flow, hfs]; rfl⟩
  | tuple parts, _, h => by
    rw [tokens, except_bind_eq_ok] at h
    obtain ⟨v, hv, -⟩ := h
    exact flow_of_bind hv
  | test _, _, _ => ⟨_, rfl⟩
  | inhibitor _ _, _, _ => ⟨_, rfl⟩
  | flush inner, _, h => by
    rw [tokens, except_bind_eq_ok] at h
    obtain ⟨v, hv, -⟩ := h
    exact ⟨Bag.ofList v.spread, by rw [flow, hv]; rfl⟩

lemma flowAll_of_tokensAll : ∀ {l : List Arc} {vs : List Value}, tokensAll s l = .ok vs →
    ∃ fs, flowAll s l = .ok fs
  | [], _, _ => ⟨[], rfl⟩
  | a :: l, _, h => by
    rw [tokensAll, except_bind_eq_ok] at h
    obtain ⟨vs, hvs, h⟩ := h
    obtain ⟨ws, hws, -⟩ := except_bind_eq_ok.1 h
    obtain ⟨f, hf⟩ := flow_of_tokens hvs
    obtain ⟨fs, hfs⟩ := flowAll_of_tokensAll hws
    exact ⟨f :: fs, by rw [flowAll, hf, hfs]; rfl⟩

end

lemma mem_tuples {fs : List Bag} {v : Value} : v ∈ (tuples fs).toList ↔
    ∃ l, List.Forall₂ (fun w f => w ∈ Bag.toList f) l fs ∧ v = .tuple l := by
  rw [tuples, Bag.mem_toList_ofList, List.mem_map]
  simp only [Binding.mem_choices, List.forall₂_map_right_iff, eq_comm]

lemma mem_foldl_sum {fs : List Bag} {a : Bag} {v : Value} :
    v ∈ (fs.foldl (· + ·) a).toList ↔ v ∈ a.toList ∨ ∃ f ∈ fs, v ∈ f.toList := by
  induction fs generalizing a with
  | nil => simp
  | cons f fs ih =>
    rw [List.foldl_cons, ih, Bag.mem_toList_sum]
    simp [or_assoc]

mutual

lemma eq_bind_of_flow : ∀ {a : Arc} {v : Value} {f : Bag}, a.scalar = true → bind s a = .ok v →
    flow s a = .ok f → ∀ w ∈ f.toList, w = v
  | value u, _, _, _, hb, hf => by
    cases hb
    cases hf
    simp [Bag.toList_ofList_singleton]
  | var name, v, _, _, hb, hf => by
    rw [flow, hb] at hf
    cases hf
    simp [Bag.toList_ofList_singleton]
  | formula g, v, _, _, hb, hf => by
    rw [flow, hb] at hf
    cases hf
    simp [Bag.toList_ofList_singleton]
  | multi _, _, _, h, _, _ => by cases h
  | tuple parts, _, _, h, hb, hf => by
    rw [bind, except_bind_eq_ok] at hb
    obtain ⟨vs, hvs, hb⟩ := hb
    rw [flow, except_bind_eq_ok] at hf
    obtain ⟨fs, hfs, hf⟩ := hf
    cases hb
    cases hf
    intro w hw
    obtain ⟨l, hl, rfl⟩ := mem_tuples.1 hw
    rw [eq_bindAll_of_flowAll h hvs hfs l hl]
  | test _, _, _, _, _, hf => by
    cases hf
    exact nofun
  | inhibitor _ _, _, _, _, _, hf => by
    cases hf
    exact nofun
  | flush _, _, _, h, _, _ => by cases h

lemma eq_bindAll_of_flowAll : ∀ {l : List Arc} {vs : List Value} {fs : List Bag},
    allScalar l = true → bindAll s l = .ok vs → flowAll s l = .ok fs →
    ∀ ws, List.Forall₂ (fun w f => w ∈ Bag.toList f) ws fs → ws = vs
  | [], _, _, _, hb, hf, ws, hw => by
    cases hb
    cases hf
    exact List.forall₂_nil_right_iff.1 hw
  | a :: l, _, _, h, hb, hf, ws, hw => by
    obtain ⟨ha, hl⟩ := Bool.and_eq_true_iff.1 h
    rw [bindAll, except_bind_eq_ok] at hb
    obtain ⟨v, hv, hb⟩ := hb
    obtain ⟨vs, hvs, hb⟩ := except_bind_eq_ok.1 hb
    rw [flowAll, except_bind_eq_ok] at hf
    obtain ⟨f, hf₁, hf⟩ := hf
    obtain ⟨fs, hfs, hf⟩ := except_bind_eq_ok.1 hf
    cases hb
    cases hf
    obtain ⟨w, ws', hw₁, hws, rfl⟩ := List.forall₂_cons_right_iff.1 hw
    rw [eq_bind_of_flow ha hv hf₁ w hw₁, eq_bindAll_of_flowAll hl hvs hfs ws' hws]

end

mutual

lemma mem_tokens_of_flow : ∀ {a : Arc} {vs : List Value} {f : Bag}, a.scalarTuples = true →
    tokens s a = .ok vs → flow s a = .ok f → ∀ w ∈ f.toList, w ∈ vs
  | value u, _, _, _, ht, hf => by
    cases ht
    cases hf
    simp [Bag.toList_ofList_singleton]
  | var name, _, _, _, ht, hf => by
    rw [tokens, except_bind_eq_ok] at ht
    obtain ⟨v, hv, ht⟩ := ht
    cases ht
    exact fun w hw => List.mem_singleton.2 (eq_bind_of_flow rfl hv hf w hw)
  | formula g, _, _, _, ht, hf => by
    rw [tokens, except_bind_eq_ok] at ht
    obtain ⟨v, hv, ht⟩ := ht
    cases ht
    exact fun w hw => List.mem_singleton.2 (eq_bind_of_flow rfl hv hf w hw)
  | multi parts, vs, _, h, ht, hf => by
    rw [tokens] at ht
    rw [flow, except_bind_eq_ok] at hf
    obtain ⟨fs, hfs, hf⟩ := hf
    cases hf
    intro w hw
    rcases mem_foldl_sum.1 hw with hw | ⟨f, hf, hw⟩
    · cases hw
    · exact mem_tokensAll_of_flowAll h ht hfs f hf w hw
  | tuple parts, _, _, h, ht, hf => by
    rw [tokens, except_bind_eq_ok] at ht
    obtain ⟨v, hv, ht⟩ := ht
    cases ht
    exact fun w hw => List.mem_singleton.2 (eq_bind_of_flow (a := tuple parts) h hv hf w hw)
  | test _, _, _, _, _, hf => by
    cases hf
    exact nofun
  | inhibitor _ _, _, _, _, _, hf => by
    cases hf
    exact nofun
  | flush inner, _, _, _, ht, hf => by
    rw [tokens, except_bind_eq_ok] at ht
    obtain ⟨v, hv, ht⟩ := ht
    rw [flow, hv] at hf
    cases ht
    cases hf
    exact fun w hw => Bag.mem_toList_ofList.1 hw

lemma mem_tokensAll_of_flowAll : ∀ {l : List Arc} {vs : List Value} {fs : List Bag},
    allScalarTuples l = true → tokensAll s l = .ok vs → flowAll s l = .ok fs →
    ∀ f ∈ fs, ∀ w ∈ f.toList, w ∈ vs
  | [], _, _, _, _, hf => by
    cases hf
    exact nofun
  | a :: l, _, _, h, ht, hf => by
    obtain ⟨ha, hl⟩ := Bool.and_eq_true_iff.1 h
    rw [tokensAll, except_bind_eq_ok] at ht
    obtain ⟨vs, hvs, ht⟩ := ht
    obtain ⟨ws, hws, ht⟩ := except_bind_eq_ok.1 ht
    rw [flowAll, except_bind_eq_ok] at hf
    obtain ⟨f, hf₁, hf⟩ := hf
    obtain ⟨fs, hfs, hf⟩ := except_bind_eq_ok.1 hf
    cases ht
    cases hf
    refine List.forall_mem_cons.2 ⟨fun w hw => ?_, fun g hg w hw => ?_⟩
    · exact List.mem_append_left _ (mem_tokens_of_flow ha hvs hf₁ w hw)
    · exact List.mem_append_right _ (mem_tokensAll_of_flowAll hl hws hfs g hg w hw)

end

end Arc

end ColouredPetri
