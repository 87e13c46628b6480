import ColouredPetri.Proofs.Nets.CopySteps

/-! Copies under several names. Each copy is complete, but a name that is taken stops the loop and
leaves the copies that were made before, with all their arcs. -/

namespace ColouredPetri

namespace Net

variable {net : Net} {p : Place} {t : Transition}

lemma withPlaceCopies_nil (h : net.Keyed) : withPlaceCopies p net [] = net := by
  have harcs : ∀ arcs, copiedArcs p.name [] arcs = [] := fun arcs => by
    rw [copiedArcs]
    cases arcs.lookup p.name <;> rfl
  simp [withPlaceCopies, harcs, Transition.moreArcs_nil, h.withNodes_self]

lemma withTransitionCopies_nil (h : net.Keyed) : withTransitionCopies t net [] = net := by
  simp [withTransitionCopies, Place.moreLinks_nil, h.withNodes_self]

lemma copyPlace_copiesTo (h : net.WellFormed) (hp : p ∈ net.places) (targets : List String) :
    net.CopiesTo (copyPlace p.name targets) (withPlaceCopies p net) targets := by
  have hfind : look (fun net => net.place p.name) net = .ok p net :=
    look_eq_ok_iff.2 ⟨place_eq_ok_iff.2 (h.place?_of_mem hp), rfl⟩
  have hrun : copyPlace p.name targets net = (targets.forM fun n => do
      addPlace (p.copyAs n)
      p.post.forM (copyInput p.name n)
      p.pre.forM (copyOutput p.name n) : Edit Unit) net := bind_of_ok _ hfind
  rw [CopiesTo, hrun]
  refine forM_copiesTo (I := fun s => s.WellFormed ∧ p ∈ s.places) ⟨h, hp⟩
    (fun _ hs => hs.1.keyed) ?_ ?_ (fun _ hs => withPlaceCopies_nil hs.1.keyed)
    (fun _ _ _ _ _ => withPlaceCopies_append)
    (fun _ _ _ => withPlaceCopies_names) targets
  · rintro s n ⟨hs, hps⟩ hn
    have hstep := copyPlace_step hs hps hn
    have hkeeps := keeps_bind (keeps_addPlace (p := p.copyAs n) (hs.typed p hps)) fun _ =>
      keeps_bind (keeps_forM (l := p.post) fun a _ => keeps_copyInput p.name n a) fun _ =>
        keeps_forM (l := p.pre) fun a _ => keeps_copyOutput p.name n a
    have hkept : p ∈ (withPlaceCopies p s [n]).places := by
      rw [withPlaceCopies, places_withNodes]
      exact List.mem_append_left _ hps
    exact ⟨hstep, hkeeps.of_ok hs hstep, hkept⟩
  · intro s n e _ hfresh
    exact bind_of_error _ (bind_of_error _ (look_eq_error_iff.2 ⟨hfresh, rfl⟩))

lemma copyTransition_copiesTo (h : net.WellFormed) (ht : t ∈ net.transitions)
    (targets : List String) :
    net.CopiesTo (copyTransition t.name targets) (withTransitionCopies t net) targets := by
  have hfind : look (fun net => net.transition t.name) net = .ok t net :=
    look_eq_ok_iff.2 ⟨transition_eq_ok_iff.2 (h.transition?_of_mem ht), rfl⟩
  have hrun : copyTransition t.name targets net =
      (targets.forM fun n => addTransition { t with name := n }) net := bind_of_ok _ hfind
  rw [CopiesTo, hrun]
  refine forM_copiesTo (I := fun s => s.WellFormed ∧ t ∈ s.transitions) ⟨h, ht⟩
    (fun _ hs => hs.1.keyed) ?_ ?_ (fun _ hs => withTransitionCopies_nil hs.1.keyed) ?_
    (fun _ _ _ => withTransitionCopies_names) targets
  · rintro s n ⟨hs, hts⟩ hn
    have hstep := copyTransition_step hs hts hn
    have hkept : t ∈ (withTransitionCopies t s [n]).transitions := by
      rw [withTransitionCopies, transitions_withNodes]
      exact List.mem_append_left _ hts
    exact ⟨hstep, (keeps_addTransition _).of_ok hs hstep, hkept⟩
  · intro s n e _ hfresh
    exact bind_of_error _ (bind_of_error _ (look_eq_error_iff.2 ⟨hfresh, rfl⟩))
  · rintro s n l ⟨-, hts⟩ hn
    refine withTransitionCopies_append fun hmem => hn ?_
    exact List.mem_singleton.1 hmem ▸ transition_name_mem hts

theorem copies_kept (h : net.Built) :
    (∀ p ∈ net.places, ∀ targets,
      net.CopiesTo (copyPlace p.name targets) (withPlaceCopies p net) targets) ∧
    (∀ t ∈ net.transitions, ∀ targets,
      net.CopiesTo (copyTransition t.name targets) (withTransitionCopies t net) targets) ∧
    ∀ source targets e,
      (net.place source = .error e → copyPlace source targets net = .error e net) ∧
      (net.transition source = .error e → copyTransition source targets net = .error e net) :=
  ⟨fun _ hp => copyPlace_copiesTo h.wellFormed hp,
    fun _ ht => copyTransition_copiesTo h.wellFormed ht,
    fun _ _ _ => ⟨fun hfind => bind_of_error _ (look_eq_error_iff.2 ⟨hfind, rfl⟩),
      fun hfind => bind_of_error _ (look_eq_error_iff.2 ⟨hfind, rfl⟩)⟩⟩

def crossing : Net :=
  .ofNodes "crossing"
    [⟨"p", .ofList [.int 1], .any, [], ["t"]⟩, ⟨"q", Bag.empty, .any, [], []⟩]
    [⟨"t", .truth, [("p", .var "x")], []⟩] Table.empty

theorem copies_kept_crossing : crossing.Built ∧ crossing.CopiesTo
    (copyPlace "p" ["a", "b"]) (withPlaceCopies crossing.places.head! crossing) ["a", "b"] := by
  have hbuilt : crossing.Built := .described (d := .ofNet crossing) rfl
  exact ⟨hbuilt, (copies_kept hbuilt).1 _ List.mem_cons_self ["a", "b"]⟩

/-- The copy that was made before the name of the other place stays, and feeds the transition. -/
theorem copy_left_behind : crossing.Built ∧
    failure (copyPlace "p" ["a", "q"]) crossing = some (.structural (.nodeExists .place "q")) ∧
    after (copyPlace "p" ["a", "q"]) crossing ≠ crossing ∧
    ((after (copyPlace "p" ["a", "q"]) crossing).transition? "t").map (·.keys .input) =
      some ["p", "a"] := by
  have hbuilt : crossing.Built := .described (d := .ofNet crossing) rfl
  have hnames : (after (copyPlace "p" ["a", "q"]) crossing).names = ["p", "q", "a", "t"] := rfl
  exact ⟨hbuilt, rfl, fun heq => absurd (heq ▸ hnames) (by decide), rfl⟩

end Net

end ColouredPetri
