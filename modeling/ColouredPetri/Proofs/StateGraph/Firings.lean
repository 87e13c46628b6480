import ColouredPetri.Proofs.Nets.Firing
import ColouredPetri.Proofs.StateGraph.Collections

/-! The firings of a state. The graph computes with markings what firing does to the net, so that
both lead to the same marking whenever the places accept it. -/

namespace ColouredPetri

namespace Net

variable {net net' : Net} {m : Marking} {f : Firing}

def Pays (net : Net) (m : Marking) (f : Firing) (m' : Marking) : Prop :=
  ∃ consumed produced left, net.flow f.transition f.mode = .ok (consumed, produced) ∧
    left + consumed = m ∧ m' = left + produced

/-- A mode of the net leads from its marking to another one, as far as tokens are counted. -/
def Leads (net : Net) (f : Firing) (m' : Marking) : Prop :=
  (∃ modes, net.modes f.transition = .ok modes ∧ f.mode ∈ modes) ∧ net.Pays net.marking f m'

def Fires (net : Net) (f : Firing) (net' : Net) : Prop :=
  (∃ modes, net.modes f.transition = .ok modes ∧ f.mode ∈ modes) ∧
    fire f.transition f.mode net = .ok () net'

lemma Pays.unique {m₁ m₂ : Marking} (h₁ : net.Pays m f m₁) (h₂ : net.Pays m f m₂) : m₁ = m₂ := by
  obtain ⟨c₁, p₁, l₁, hf₁, hl₁, rfl⟩ := h₁
  obtain ⟨c₂, p₂, l₂, hf₂, hl₂, rfl⟩ := h₂
  cases hf₁.symm.trans hf₂
  rw [add_right_cancel (hl₁.trans hl₂.symm)]

lemma Leads.covers (h : net.WellFormed) {m' : Marking} (hl : net.Leads f m') : net.Covers m' := by
  obtain ⟨-, consumed, produced, left, hf, hm, rfl⟩ := hl
  exact (Covers.of_add (n := consumed) (hm ▸ covers_marking)).add (covers_flow h hf).2

lemma fires_iff (h : net.WellFormed) :
    net.Fires f net' ↔ ∃ m', net.Leads f m' ∧ net.Accepts m' ∧ net' = net.restore m' := by
  rw [Fires, fire_eq_ok_iff h]
  constructor
  · rintro ⟨hmode, consumed, produced, left, hf, hl, ha, rfl⟩
    refine ⟨_, ⟨hmode, consumed, produced, left, hf, hl, rfl⟩, Accepts.add ?_ ha, rfl⟩
    exact Accepts.of_add (n := consumed) (hl ▸ accepts_marking h)
  · rintro ⟨_, ⟨hmode, consumed, produced, left, hf, hl, rfl⟩, ha, rfl⟩
    exact ⟨hmode, consumed, produced, left, hf, hl, Accepts.of_add (add_comm left produced ▸ ha),
      rfl⟩

lemma modes_eq_ok_iff (h : net.WellFormed) {trans : String} {modes : List Binding} :
    net.modes trans = .ok modes ↔
      ∃ t ∈ net.transitions, t.name = trans ∧ net.modesOf t = .ok modes := by
  rw [Net.modes, except_bind_eq_ok]
  constructor
  · rintro ⟨t, ht, hm⟩
    obtain ⟨ht, hn⟩ := h.keyed.mem_of_transition? (transition_eq_ok_iff.1 ht)
    exact ⟨t, ht, hn, hm⟩
  · rintro ⟨t, ht, rfl, hm⟩
    exact ⟨t, transition_eq_ok_iff.2 (h.transition?_of_mem ht), hm⟩

lemma mem_allModes (h : net.WellFormed) {all : List (String × List Binding)}
    (ha : net.allModes = .ok all) :
    (∀ trans modes, (trans, modes) ∈ all → net.modes trans = .ok modes) ∧
      ∀ t ∈ net.transitions, ∃ modes, (t.name, modes) ∈ all := by
  obtain ⟨hfrom, hto⟩ := mem_of_mapM_ok ha
  constructor
  · intro trans modes hm
    obtain ⟨t, ht, hrow⟩ := hfrom _ hm
    obtain ⟨found, hfound, hrow⟩ := except_bind_eq_ok.1 hrow
    cases hrow
    exact (modes_eq_ok_iff h).2 ⟨t, ht, rfl, hfound⟩
  · intro t ht
    obtain ⟨row, hm, hrow⟩ := hto t ht
    obtain ⟨found, -, hrow⟩ := except_bind_eq_ok.1 hrow
    cases hrow
    exact ⟨found, hm⟩

end Net

namespace StateGraph

variable {net : Net} {m : Marking} {trans : String}

lemma firingsBy_ok {l : List Binding} {found : List (Firing × Marking)}
    (h : firingsBy net m trans l = .ok found) :
    (∀ f m', (f, m') ∈ found ↔ f.transition = trans ∧ f.mode ∈ l ∧ net.Pays m f m') ∧
      (found = [] ↔ l = []) := by
  induction l generalizing found with
  | nil =>
    cases h
    simp
  | cons b l ih =>
    rw [firingsBy, except_bind_eq_ok] at h
    obtain ⟨⟨consumed, produced⟩, hf, h⟩ := h
    obtain ⟨left, hl, h⟩ := except_bind_eq_ok.1 h
    obtain ⟨rest, hrest, h⟩ := except_bind_eq_ok.1 h
    cases h
    rw [Marking.sub_eq_ok_iff] at hl
    have hpays : net.Pays m ⟨trans, b⟩ (left + produced) := ⟨consumed, produced, left, hf, hl, rfl⟩
    refine ⟨fun f m' => ?_, by simp⟩
    rw [List.mem_cons, (ih hrest).1, List.mem_cons, Prod.mk.injEq]
    constructor
    · rintro (⟨rfl, rfl⟩ | ⟨ht, hb, hp⟩)
      · exact ⟨rfl, .inl rfl, hpays⟩
      · exact ⟨ht, .inr hb, hp⟩
    · obtain ⟨trans', mode⟩ := f
      rintro ⟨rfl, rfl | hb, hp⟩
      · exact .inl ⟨rfl, hp.unique hpays⟩
      · exact .inr ⟨rfl, hb, hp⟩

lemma firingsOf_ok {l : List (String × List Binding)} {found : List (Firing × Marking)}
    (h : firingsOf net m l = .ok found) :
    (∀ f m', (f, m') ∈ found ↔ ∃ modes, (f.transition, modes) ∈ l ∧ f.mode ∈ modes ∧
      net.Pays m f m') ∧ (found = [] ↔ ∀ e ∈ l, e.2 = []) := by
  induction l generalizing found with
  | nil =>
    cases h
    simp
  | cons e l ih =>
    obtain ⟨name, modes⟩ := e
    rw [firingsOf, except_bind_eq_ok] at h
    obtain ⟨first, hfirst, h⟩ := h
    obtain ⟨rest, hrest, h⟩ := except_bind_eq_ok.1 h
    cases h
    obtain ⟨hmem, hnil⟩ := firingsBy_ok hfirst
    obtain ⟨hmem', hnil'⟩ := ih hrest
    refine ⟨fun f m' => ?_, ?_⟩
    · rw [List.mem_append, hmem, hmem']
      constructor
      · rintro (⟨rfl, hb, hp⟩ | ⟨modes', hm, hb, hp⟩)
        · exact ⟨modes, List.mem_cons_self, hb, hp⟩
        · exact ⟨modes', List.mem_cons_of_mem _ hm, hb, hp⟩
      · rintro ⟨modes', hm, hb, hp⟩
        rcases List.mem_cons.1 hm with hm | hm
        · cases hm
          exact .inl ⟨rfl, hb, hp⟩
        · exact .inr ⟨modes', hm, hb, hp⟩
    · rw [List.append_eq_nil_iff, hnil, hnil', List.forall_mem_cons]

lemma firings_of_net (h : net.WellFormed) {all : List (String × List Binding)}
    {found : List (Firing × Marking)} (ha : net.allModes = .ok all)
    (hf : firingsOf net net.marking all = .ok found) :
    (∀ f m', (f, m') ∈ found ↔ net.Leads f m') ∧
      (found = [] ↔ ∀ t ∈ net.transitions, net.modes t.name = .ok []) := by
  obtain ⟨hmem, hnil⟩ := firingsOf_ok hf
  obtain ⟨hfrom, hto⟩ := Net.mem_allModes h ha
  refine ⟨fun f m' => ?_, hnil.trans ?_⟩
  · rw [hmem]
    constructor
    · rintro ⟨modes, hm, hb, hp⟩
      exact ⟨⟨modes, hfrom _ _ hm, hb⟩, hp⟩
    · rintro ⟨⟨modes, hm, hb⟩, hp⟩
      obtain ⟨t, ht, hn, -⟩ := (Net.modes_eq_ok_iff h).1 hm
      obtain ⟨modes', hm'⟩ := hto t ht
      rw [hn] at hm'
      cases hm.symm.trans (hfrom _ _ hm')
      exact ⟨modes, hm', hb, hp⟩
  · constructor
    · intro hall t ht
      obtain ⟨modes, hm⟩ := hto t ht
      obtain rfl : modes = [] := hall _ hm
      exact hfrom _ _ hm
    · rintro hall ⟨name, modes⟩ he
      obtain ⟨t, ht, rfl, hm⟩ := (Net.modes_eq_ok_iff h).1 (hfrom _ _ he)
      exact Except.ok.inj ((hfrom _ _ he).symm.trans (hall t ht))

section Moves

variable {net : Net} {g g' : StateGraph} {m : Marking} {s t : Nat} {u : Unit}

def landing (s : Nat) (g : StateGraph) : Except Error Nat :=
  if g.isRemoved s then g.currentState else .ok s

lemma goto_of_landing (ht : landing s g = .ok t) : goto s g = (do
    let m ← look fun g => g.known t
    if (← get).current ≠ t then
      modify fun g => { g with current := t }
      editNet (Net.setMarking m) : Explore Unit) g :=
  bind_of_ok (x := look (landing s)) _ (look_eq_ok_iff.2 ⟨ht, rfl⟩)

lemma goto_eq (ht : landing s g = .ok t) (hm : g.known t = .ok m) : goto s g =
    if g.current ≠ t then editNet (Net.setMarking m) { g with current := t } else .ok () g := by
  refine (goto_of_landing ht).trans ?_
  refine (bind_of_ok (x := look (known · t)) _ (look_eq_ok_iff.2 ⟨hm, rfl⟩)).trans ?_
  refine (bind_of_ok (x := get) (t := g) _ rfl).trans ?_
  split <;> rfl

lemma goto_cases (s : Nat) (g : StateGraph) : (∃ e, goto s g = .error e g) ∨
    ∃ t m, landing s g = .ok t ∧ g.known t = .ok m := by
  cases ht : landing s g with
  | error e =>
    exact .inl ⟨e, bind_of_error (x := look (landing s)) _ (look_eq_error_iff.2 ⟨ht, rfl⟩)⟩
  | ok t =>
    cases hm : g.known t with
    | error e =>
      refine .inl ⟨e, (goto_of_landing ht).trans ?_⟩
      exact bind_of_error (x := look (known · t)) _ (look_eq_error_iff.2 ⟨hm, rfl⟩)
    | ok m => exact .inr ⟨t, m, rfl, hm⟩

lemma editNet_ok_iff (h : net.WellFormed) (hp : net.Remarked g.net) :
    editNet (Net.setMarking m) g = .ok u g' ↔
      net.Accepts m ∧ g' = { g with net := net.restore m } := by
  have hw : g.net.WellFormed := hp.wellFormed h
  have haccepts : g.net.Accepts m ↔ net.Accepts m := by
    obtain ⟨n, -, hn⟩ := hp
    rw [hn, Net.accepts_restore]
  have hset : ∀ net', Net.setMarking m g.net = .ok u net' ↔
      net.Accepts m ∧ net' = net.restore m := fun net' => by
    rw [Net.setMarking_eq_ok_iff hw, haccepts, hp.restore_eq]
  rw [editNet]
  cases hs : Net.setMarking m g.net with
  | ok v net' =>
    obtain ⟨ha, rfl⟩ := (hset net').1 hs
    constructor
    · intro hrun
      cases hrun
      exact ⟨ha, rfl⟩
    · rintro ⟨-, rfl⟩
      rfl
  | error e net' =>
    constructor
    · intro hrun
      cases hrun
    · rintro ⟨ha, -⟩
      cases hs.symm.trans ((hset _).2 ⟨ha, rfl⟩)

lemma editNet_error (h : net.WellFormed) (hp : net.Remarked g.net) {e : Error}
    (hs : editNet (Net.setMarking m) g = .error e g') : net.Refuses m e ∧ g' = g := by
  have hw : g.net.WellFormed := hp.wellFormed h
  obtain ⟨n, -, hn⟩ := hp
  rw [editNet] at hs
  cases hset : Net.setMarking m g.net with
  | ok u net' =>
    rw [hset] at hs
    cases hs
  | error d net' =>
    rw [hset] at hs
    cases hs
    obtain ⟨hr, hsame⟩ := Net.setMarking_error hw hset
    rw [hn, Net.refuses_restore] at hr
    exact ⟨hr, by rw [hsame]⟩

lemma goto_error (h : net.WellFormed) (hp : net.Remarked g.net) (ht : landing s g = .ok t)
    (hm : g.known t = .ok m) {e : Error} (hs : goto s g = .error e g') :
    net.Refuses m e ∧ g' = { g with current := t } := by
  rw [goto_eq ht hm] at hs
  split at hs
  · exact editNet_error (g := { g with current := t }) h hp hs
  · cases hs

def Settled (net : Net) (g : StateGraph) : Prop :=
  ∃ m, g.marking? g.current = some m ∧ net.Accepts m ∧ g.net = net.restore m

def firingsAt (net : Net) (m : Marking) : Except Error (List (Firing × Marking)) := do
  firingsOf (net.restore m) m (← (net.restore m).allModes)

lemma goto_eq_ok_iff (h : net.WellFormed) (hp : Settled net g) (hr : g.isRemoved s = false) :
    goto s g = .ok u g' ↔ ∃ m, g.marking? s = some m ∧ net.Accepts m ∧
      g' = { g with current := s, net := net.restore m } := by
  obtain ⟨n, hn, ha, hnet⟩ := hp
  have hland : landing s g = .ok s := by rw [landing, hr]; rfl
  cases hm : g.marking? s with
  | none =>
    have hknown : g.known s = .error (.structural (.unknownState s)) := by rw [known, hm]
    have hrun : goto s g = .error (.structural (.unknownState s)) g :=
      (goto_of_landing hland).trans
        (bind_of_error (x := look (known · s)) _ (look_eq_error_iff.2 ⟨hknown, rfl⟩))
    rw [hrun]
    constructor
    · intro h
      cases h
    · rintro ⟨_, h, -⟩
      cases h
  | some m =>
    rw [goto_eq hland (known_eq_ok_iff.2 hm)]
    by_cases hc : g.current = s
    · -- the net stands there already, at the marking that it would be given
      rw [if_neg (not_not.2 hc)]
      rw [hc, hm] at hn
      obtain rfl := Option.some.inj hn
      have hsame : { g with current := s, net := net.restore m } = g := by rw [← hc, ← hnet]
      constructor
      · intro hrun
        cases hrun
        exact ⟨m, rfl, ha, hsame.symm⟩
      · rintro ⟨n, h, -, rfl⟩
        obtain rfl := Option.some.inj h
        rw [hsame]
    · rw [if_pos hc, editNet_ok_iff (g := { g with current := s }) h ⟨n, ha, hnet⟩]
      constructor
      · rintro ⟨hacc, hg⟩
        exact ⟨m, rfl, hacc, hg⟩
      · rintro ⟨_, h, hacc, hg⟩
        cases h
        exact ⟨hacc, hg⟩

lemma firings_of_accepts (h : net.WellFormed) (hp : Settled net g) (hr : g.isRemoved s = false)
    {m : Marking} (hm : g.marking? s = some m) (ha : net.Accepts m) :
    firings s g =
      look (fun _ => firingsAt net m) { g with current := s, net := net.restore m } := by
  have hgoto : goto s g = .ok () { g with current := s, net := net.restore m } :=
    (goto_eq_ok_iff h hp hr).2 ⟨m, hm, ha, rfl⟩
  have hknown : known { g with current := s, net := net.restore m } s = .ok m :=
    known_eq_ok_iff.2 hm
  rw [firings, bind_of_ok _ hgoto, look, look, hknown, except_ok_bind]
  rfl

lemma firings_eq_ok_iff (h : net.WellFormed) (hp : Settled net g) (hr : g.isRemoved s = false)
    {found : List (Firing × Marking)} : firings s g = .ok found g' ↔
      ∃ m, g.marking? s = some m ∧ net.Accepts m ∧ firingsAt net m = .ok found ∧
        g' = { g with current := s, net := net.restore m } := by
  constructor
  · intro hrun
    obtain ⟨_, _, hgoto, -⟩ := bind_eq_ok.1 hrun
    obtain ⟨m, hm, ha, -⟩ := (goto_eq_ok_iff h hp hr).1 hgoto
    rw [firings_of_accepts h hp hr hm ha, look_eq_ok_iff] at hrun
    exact ⟨m, hm, ha, hrun⟩
  · rintro ⟨m, hm, ha, hfound⟩
    rw [firings_of_accepts h hp hr hm ha, look_eq_ok_iff]
    exact hfound

lemma goto_ne_eval (h : net.WellFormed) (hp : net.Remarked g.net) {cause : EvalError} :
    goto s g ≠ .error (.eval cause) g' := by
  intro hs
  cases ht : landing s g with
  | error e =>
    have hrun : goto s g = .error e g :=
      bind_of_error (x := look (landing s)) _ (look_eq_error_iff.2 ⟨ht, rfl⟩)
    cases hrun.symm.trans hs
    rw [landing] at ht
    split at ht
    · rw [currentState] at ht
      split at ht
      · split at ht <;> cases ht
      · cases ht
    · cases ht
  | ok t =>
    cases hm : g.known t with
    | error e =>
      have hrun : goto s g = .error e g := (goto_of_landing ht).trans
        (bind_of_error (x := look (known · t)) _ (look_eq_error_iff.2 ⟨hm, rfl⟩))
      cases hrun.symm.trans hs
      rw [known] at hm
      split at hm <;> cases hm
    | ok m =>
      obtain ⟨⟨_, -, _, -, -, he⟩, -⟩ := goto_error h hp ht hm hs
      cases he

lemma firings_eq_error_iff (h : net.WellFormed) (hp : Settled net g)
    (hr : g.isRemoved s = false) {cause : EvalError} : firings s g = .error (.eval cause) g' ↔
      ∃ m, g.marking? s = some m ∧ net.Accepts m ∧ firingsAt net m = .error (.eval cause) ∧
        g' = { g with current := s, net := net.restore m } := by
  -- only the evaluation at the marking of the state fails so, with the net moved there
  have hplaced : net.Remarked g.net := by
    obtain ⟨n, -, ha, hnet⟩ := hp
    exact ⟨n, ha, hnet⟩
  constructor
  · intro hrun
    obtain hgoto | ⟨_, _, hgoto, -⟩ := bind_eq_error.1 hrun
    · exact absurd hgoto (goto_ne_eval h hplaced)
    · obtain ⟨m, hm, ha, -⟩ := (goto_eq_ok_iff h hp hr).1 hgoto
      rw [firings_of_accepts h hp hr hm ha, look_eq_error_iff] at hrun
      exact ⟨m, hm, ha, hrun⟩
  · rintro ⟨m, hm, ha, hfound⟩
    rw [firings_of_accepts h hp hr hm ha, look_eq_error_iff]
    exact hfound

end Moves

end StateGraph

end ColouredPetri
