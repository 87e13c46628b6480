import ColouredPetri.Proofs.Nets.Enabling
import ColouredPetri.Proofs.StateGraph.Removal

/-! Where the net of a state graph stands. It always has tokens that its places accept. They are
those of the current state, unless the places refuse these: then the position has changed but the
net has not. -/

namespace ColouredPetri

namespace Net

variable {net : Net} {m n : Marking} {trans : String} {b : Binding} {f : Firing}

def ScalarOutputs (net : Net) : Prop :=
  ∀ t ∈ net.transitions, ∀ e ∈ t.outputs, e.2.scalarTuples = true

def Admits (net : Net) (m : Marking) : Prop := net.Covers m ∧ (net.ScalarOutputs → net.Accepts m)

lemma admits_restore : (net.restore n).Admits m ↔ net.Admits m :=
  and_congr covers_restore (imp_congr_right fun _ => accepts_restore)

lemma accepts_produced (h : net.WellFormed) (hs : net.ScalarOutputs) {consumed produced : Marking}
    (hf : net.flow trans b = .ok (consumed, produced)) : net.Accepts produced := by
  obtain ⟨t, ht, hf⟩ := flow_eq_ok_iff.1 hf
  obtain ⟨he, cs, ps, -, hp, hpair⟩ := flowOf_eq_ok_iff.1 hf
  cases hpair
  have htm := (h.keyed.mem_of_transition? ht).1
  intro p hpm v hv
  by_cases hk : p.name ∈ t.keys .output
  · obtain ⟨e, hem, hpe⟩ := List.mem_map.1 hk
    obtain ⟨g, hg, htok⟩ := tokens_arcFlows (h.keys_nodup t htm .output) hp hem
    obtain ⟨q, vs, hq, hvs, haccept⟩ :=
      typesRespected_eq_true_iff.1 ((check_eq_true_iff.1 he).2.2.2 e hem)
    obtain ⟨hqm, hqe⟩ := h.keyed.mem_of_place? hq
    obtain rfl := h.place_eq hqm hpm (hqe.trans hpe)
    rw [← hpe, htok] at hv
    exact haccept v (Arc.mem_tokens_of_flow (hs t htm e hem) hvs hg v hv)
  · rw [tokens_arcFlows_of_notMem hp hk] at hv
    cases hv

lemma Pays.admits (h : net.WellFormed) (hm : net.Admits m) {m' : Marking}
    (hp : net.Pays m f m') : net.Admits m' := by
  obtain ⟨consumed, produced, left, hf, rfl, rfl⟩ := hp
  constructor
  · exact (Covers.of_add hm.1).add (covers_flow h hf).2
  · exact fun hs => (Accepts.of_add (hm.2 hs)).add (accepts_produced h hs hf)

end Net

namespace StateGraph

variable {net : Net} {config : ExploreConfig} {g g' : StateGraph} {m : Marking} {s t : Nat}

structure Standing (net : Net) (g : StateGraph) : Prop where
  placed : net.Remarked g.net
  admits : ∀ s m, g.marking? s = some m → net.Admits m
  current : ∀ m, g.marking? g.current = some m → net.Accepts m → g.net = net.restore m
  live : (∃ s, g.Live s) → g.Live g.current

lemma standing_moved (h : net.WellFormed) (hp : net.Remarked g.net)
    (ha : ∀ s m, g.marking? s = some m → net.Admits m) (hm : g.marking? t = some m) :
    Standing net (after (editNet (Net.setMarking m)) { g with current := t }) := by
  -- the position is taken before the net is asked, and stays taken if a place refuses
  cases hs : editNet (Net.setMarking m) { g with current := t } with
  | ok u g' =>
    rw [after_of_ok hs]
    obtain ⟨hacc, rfl⟩ := (editNet_ok_iff (g := { g with current := t }) h hp).1 hs
    refine ⟨⟨m, hacc, rfl⟩, ha, fun n hn _ => ?_, fun _ => ⟨m, hm⟩⟩
    cases hm.symm.trans hn
    rfl
  | error e g' =>
    rw [after_of_error hs]
    obtain ⟨hrefused, rfl⟩ := editNet_error (g := { g with current := t }) h hp hs
    refine ⟨hp, ha, fun n hn hn' => ?_, fun _ => ⟨m, hm⟩⟩
    cases hm.symm.trans hn
    exact absurd hn' hrefused.not_accepts

lemma standing_goto (h : net.WellFormed) (s : Nat) : Keeps (Standing net) (goto s) := by
  intro g hg
  rcases goto_cases s g with ⟨e, he⟩ | ⟨t, m, ht, hm⟩
  · rwa [after_of_error he]
  · have hrun := goto_eq ht hm
    by_cases hne : g.current ≠ t
    · rw [if_pos hne] at hrun
      rw [after, hrun]
      exact standing_moved h hg.placed hg.admits (known_eq_ok_iff.1 hm)
    · rw [if_neg hne] at hrun
      rwa [after_of_ok hrun]

lemma standing_leave (h : net.WellFormed) (hc : g.Consistent config []) (hp : net.Remarked g.net)
    (ha : ∀ s m, g.marking? s = some m → net.Admits m) (hs : g.isRemoved g.current = true) :
    Standing net (after (goto g.current) g) := by
  rcases leave_cases hc hs with ⟨hnone, hrun⟩ | ⟨t, n, -, hn, hrun⟩
  · have hdead := hc.scheduled.substitute_eq_none_iff.1 hnone
    rw [after_of_error hrun]
    exact ⟨hp, ha, fun m hm => absurd ⟨m, hm⟩ (hdead g.current),
      fun ⟨t, ht⟩ => absurd ht (hdead t)⟩
  · rw [after, hrun]
    exact standing_moved h hp ha hn

lemma after_firings (s : Nat) (g : StateGraph) : after (firings s) g = after (goto s) g := by
  rw [after, after]
  cases hg : goto s g with
  | error e g' => rw [show firings s g = .error e g' from bind_of_error _ hg]
  | ok u g' =>
    have hrun : firings s g = look _ g' := bind_of_ok _ hg
    rw [hrun, look]
    split <;> rename_i heq <;> split at heq <;> cases heq <;> rfl

lemma firings_admits (h : net.WellFormed) (hg : Standing net g)
    {found : List (Firing × Marking)} (hs : firings s g = .ok found g') :
    ∀ r ∈ found, net.Admits r.2 := by
  obtain ⟨u, g₁, hgoto, hlook⟩ := bind_eq_ok.1 hs
  have hg₁ := (standing_goto h s).of_ok hg hgoto
  obtain ⟨n, hn, hplaced⟩ := hg₁.placed
  obtain ⟨hfound, -⟩ := look_eq_ok_iff.1 hlook
  obtain ⟨m, hm, hfound⟩ := except_bind_eq_ok.1 hfound
  obtain ⟨all, -, hfound⟩ := except_bind_eq_ok.1 hfound
  have hm := hg₁.admits s m (known_eq_ok_iff.1 hm)
  rintro ⟨f, m'⟩ hr
  obtain ⟨-, -, -, hpays⟩ := ((firingsOf_ok hfound).1 f m').1 hr
  rw [hplaced] at hpays
  exact Net.admits_restore.1 (hpays.admits (h.restore hn) (Net.admits_restore.2 hm))

namespace Standing

lemma of_eq (h : Standing net g) (hm : g'.markings = g.markings) (hn : g'.net = g.net)
    (hc : g'.current = g.current) : Standing net g' := by
  have hmarking : ∀ s, g'.marking? s = g.marking? s := fun s => by rw [marking?, hm, marking?]
  constructor
  · exact hn ▸ h.placed
  · exact fun s m hs => h.admits s m ((hmarking s).symm.trans hs)
  · intro m hs ha
    rw [hn]
    exact h.current m (by rwa [← hmarking, ← hc]) ha
  · simp only [Live, hmarking, hc]
    exact h.live

lemma record (h : Standing net g) (hl : g.Live g.current) {r : Firing × Marking}
    (hr : net.Admits r.2) : Standing net (record s g r) ∧
      (record s g r).Live (record s g r).current := by
  obtain ⟨f, m⟩ := r
  rw [StateGraph.record]
  split
  · exact ⟨h.of_eq rfl rfl rfl, hl⟩
  · split
    · exact ⟨h.of_eq rfl rfl rfl, hl⟩
    · have hlive : (g.addState m).Live g.current := live_addState.2 (.inl hl)
      have hold : (g.addState m).marking? g.current = g.marking? g.current := by
        rw [marking?_addState, if_neg (Nat.ne_of_lt (lt_of_live hl))]
      have hnew : Standing net (g.addState m) := by
        refine ⟨h.placed, fun t n hn => ?_, fun n hn => h.current n (hold.symm.trans hn),
          fun _ => hlive⟩
        rw [marking?_addState] at hn
        split at hn
        · cases hn
          exact hr
        · exact h.admits t n hn
      exact ⟨hnew.of_eq rfl rfl rfl, hlive⟩

lemma recordAll (h : Standing net g) (hl : g.Live g.current) {found : List (Firing × Marking)}
    (hf : ∀ r ∈ found, net.Admits r.2) : Standing net (recordAll s found g) := by
  have hfold : ∀ g : StateGraph, Standing net g → g.Live g.current →
      Standing net (found.foldl (StateGraph.record s) g) := by
    induction found with
    | nil => exact fun g h _ => h
    | cons r found ih =>
      obtain ⟨hr, hf⟩ := List.forall_mem_cons.1 hf
      intro g h hl
      obtain ⟨h₁, hl₁⟩ := h.record (s := s) hl hr
      exact ih hf _ h₁ hl₁
  have hnoted : Standing net
      (found.foldl (StateGraph.record s) (if found.isEmpty then
        { g with deadlocks := KeySet.add g.deadlocks s } else g)) := by
    split
    · exact hfold _ (h.of_eq rfl rfl rfl) hl
    · exact hfold _ h hl
  exact hnoted.of_eq rfl rfl rfl

lemma ofNet (h : net.WellFormed) : Standing net (ofNet net config) := by
  have hfirst : ∀ s m, (StateGraph.ofNet net config).marking? s = some m → m = net.marking := by
    intro s m hm
    rw [StateGraph.ofNet, marking?_addState] at hm
    split at hm
    · cases hm
      rfl
    · simp [blank, marking?, Numbered.get?, Numbered.empty] at hm
  refine ⟨Net.remarked_self h, fun s m hm => ?_, fun m hm _ => ?_, fun _ => ⟨net.marking, rfl⟩⟩
  · rw [hfirst s m hm]
    exact ⟨Net.covers_marking, fun _ => Net.accepts_marking h⟩
  · rw [hfirst _ m hm, Net.restore_marking h]
    rfl

lemma compute (h : net.WellFormed) (hc : g.Consistent config [s]) (hg : Standing net g) :
    Standing net (after (compute s) g) := by
  have hmove : Standing net (after (firings s) g) :=
    after_firings s g ▸ standing_goto h s g hg
  have hmoved := moved_firings s g (.refl g)
  rw [after, StateGraph.compute]
  cases hf : firings s g with
  | error e g' =>
    rw [after_of_error hf] at hmove
    exact hmove.of_eq rfl rfl rfl
  | ok found g' =>
    rw [after_of_ok hf] at hmove hmoved
    refine hmove.recordAll (hmove.live ⟨s, ?_⟩) (firings_admits h hg hf)
    obtain ⟨_, _, rfl⟩ := hmoved
    exact hc.busy_live

lemma kept (h : net.WellFormed) (config : ExploreConfig) :
    Kept fun g => g.Consistent config [] ∧ Standing net g where
  goto s g hg := ⟨(Consistent.kept config).goto s g hg.1, standing_goto h s g hg.2⟩
  compute {g s rest} hq hg := by
    exact ⟨(Consistent.kept config).compute hq hg.1,
      compute h (hg.1.start hq) (hg.2.of_eq rfl rfl rfl)⟩
  remove s g hg := by
    refine ⟨(Consistent.kept config).remove s g hg.1, ?_⟩
    obtain ⟨hc, hg⟩ := hg
    rcases after_remove s g with hs | ⟨m, hm, hs⟩ <;> rw [hs]
    · exact hg
    · have hforget := hc.forget (known_eq_ok_iff.1 hm)
      have hadmits : ∀ t n, (g.forget s m).marking? t = some n → net.Admits n := by
        intro t n hn
        rw [marking?_forget] at hn
        split at hn
        · cases hn
        · exact hg.admits t n hn
      by_cases hcur : g.current = s
      · rw [if_pos hcur]
        subst hcur
        refine standing_leave (g := g.forget g.current m) h hforget hg.placed hadmits ?_
        exact Table.contains_iff.2 (KeySet.mem_keys_add.2 (.inr rfl))
      · rw [if_neg hcur]
        refine ⟨hg.placed, hadmits, fun n hn => hg.current n ?_, fun ⟨t, ht⟩ => ?_⟩
        · rw [marking?_forget] at hn
          split at hn
          · cases hn
          · exact hn
        · exact live_forget.2 ⟨hg.live ⟨t, (live_forget.1 ht).1⟩, hcur⟩

end Standing

end StateGraph

end ColouredPetri
