import ColouredPetri.Proofs.Nets.Relabelling

/-! What a firing fails with. If there is a flow, it is the refusal of the first place, in the order
of names, that does not accept what it gets; under other names this can be another place. -/

namespace ColouredPetri

section Failure

variable {σ α β : Type} {x : EStateM Error σ α} {s t : σ}

lemma failure_bind_of_ok (f : α → EStateM Error σ β) {a : α} (h : x s = .ok a t) :
    failure (x >>= f) s = failure (f a) t := by
  rw [failure, bind_of_ok f h, failure]

lemma failure_bind_of_some (f : α → EStateM Error σ β) {e : Error} (h : failure x s = some e) :
    failure (x >>= f) s = some e := by
  rw [failure, bind_of_error f (error_of_failure h)]

end Failure

def Place.refusal (p : Place) (bag : Bag) : Option Error :=
  match p.check bag.toList with
  | .error e => some (.token e)
  | .ok _ => none

lemma Place.refusal_eq_none_iff {p : Place} {bag : Bag} :
    p.refusal bag = none ↔ ∀ v ∈ bag.toList, p.type.accepts v = true := by
  rw [← Net.check_eq_ok_iff (u := ()), refusal]
  cases p.check bag.toList <;> simp

lemma Place.refusal_relabel {f : String → String} (p : Place) (bag : Bag) :
    (p.relabel f).refusal bag = (p.refusal bag).map (Error.relabel f) := by
  have htype : (p.relabel f).type = p.type := rfl
  rw [refusal, refusal, check, check, htype]
  cases bag.toList.find? fun v => !p.type.accepts v <;> rfl

namespace Net

variable {net : Net} {p : Place} {m : Marking} {e : Error} {trans : String} {b : Binding}

def refusal (net : Net) (entry : String × Bag) : Option Error :=
  (net.place? entry.1).bind fun p => p.refusal entry.2

lemma refusal_eq (h : net.WellFormed) (hp : p ∈ net.places) (bag : Bag) :
    net.refusal (p.name, bag) = p.refusal bag := by
  rw [refusal, h.place?_of_mem hp, Option.bind_some]

section Deposits

lemma failure_addTokens (h : net.WellFormed) (hp : p ∈ net.places) (bag : Bag) :
    failure (addTokens p.name bag) (net.restore m) = p.refusal bag := by
  have hplace : (net.restore m).place p.name = .ok { p with tokens := m.tokens p.name } :=
    place_eq_ok_iff.2 (by rw [place?_restore, h.place?_of_mem hp]; rfl)
  have hcheck : ({ p with tokens := m.tokens p.name } : Place).check bag.toList =
      p.check bag.toList := rfl
  rw [failure, addTokens, editTokens_eq_step, step, hplace, except_ok_bind, Place.add, hcheck,
    Place.refusal]
  cases p.check bag.toList <;> rfl

lemma failure_forM_addTokens (h : net.WellFormed) {l : List (String × Bag)}
    (hl : ∀ e ∈ l, ∃ p ∈ net.places, p.name = e.1) :
    failure (l.forM fun e => addTokens e.1 e.2) (net.restore m) = l.findSome? net.refusal := by
  induction l generalizing m with
  | nil => rfl
  | cons entry l ih =>
    obtain ⟨⟨p, hp, hn⟩, hrest⟩ := List.forall_mem_cons.1 hl
    obtain ⟨name, bag⟩ := entry
    subst hn
    have hone := failure_addTokens (m := m) h hp bag
    rw [List.findSome?_cons, refusal_eq h hp]
    cases hr : p.refusal bag with
    | some e => exact failure_bind_of_some _ (hone.trans hr)
    | none =>
      have hput := (addTokens_restore (m := m) (u := ()) h hp).2
        ⟨Place.refusal_eq_none_iff.1 hr, rfl⟩
      exact (failure_bind_of_ok _ hput).trans (ih hrest)

lemma failure_withRollback (act : Edit Unit) :
    failure (withRollback act) net = failure act net := by
  rw [failure, failure, withRollback]
  cases act net <;> rfl

lemma failure_fire (h : net.WellFormed) {consumed produced : Marking}
    (hf : net.flow trans b = .ok (consumed, produced)) :
    failure (fire trans b) net = produced.entries.findSome? net.refusal := by
  obtain ⟨t, ht, hflow⟩ := flow_eq_ok_iff.1 hf
  obtain ⟨he, -⟩ := flowOf_eq_ok_iff.1 hflow
  obtain ⟨_, _, left, -, hpaid, hl⟩ := flowOf_of_enabledBy h (h.keyed.mem_of_transition? ht).1 he
  cases hflow.symm.trans hpaid
  obtain ⟨hc, hp⟩ := covers_flow h hf
  have hlook : look (fun net => net.flow trans b) net = .ok (consumed, _) net :=
    look_eq_ok_iff.2 ⟨hf, rfl⟩
  rw [fire, failure_bind_of_ok _ hlook]
  refine (failure_withRollback (moveTokens consumed _)).trans ?_
  rw [moveTokens, failure_bind_of_ok _ (forM_removeTokens_paid h hc hl)]
  exact failure_forM_addTokens h hp.entries

end Deposits

def RefusedTwice (net : Net) (m : Marking) (e d : Error) : Prop :=
  ∃ p ∈ net.places, ∃ q ∈ net.places, p.name ≠ q.name ∧
    p.refusal (m.tokens p.name) = some e ∧ q.refusal (m.tokens q.name) = some d

section Relabelled

variable {f : String → String}

lemma refusal_of_findSome? (h : net.WellFormed) (hm : net.Covers m)
    (he : m.entries.findSome? net.refusal = some e) :
    ∃ p ∈ net.places, p.refusal (m.tokens p.name) = some e := by
  obtain ⟨entry, hentry, hr⟩ := List.exists_of_findSome?_eq_some he
  obtain ⟨p, hp, hn⟩ := hm.entries entry hentry
  refine ⟨p, hp, ?_⟩
  rw [hn, Marking.tokens_of_get? (Marking.get?_of_mem hentry), ← refusal_eq h hp, hn]
  exact hr

lemma findSome?_refusal_eq_none_iff (h : net.WellFormed) (hm : net.Covers m) :
    m.entries.findSome? net.refusal = none ↔ net.Accepts m := by
  rw [List.findSome?_eq_none_iff, accepts_iff_entries]
  refine forall₂_congr fun entry hentry => ?_
  obtain ⟨p, hp, hn⟩ := hm.entries entry hentry
  rw [show entry = (p.name, entry.2) from Prod.ext hn.symm rfl, refusal_eq h hp,
    Place.refusal_eq_none_iff]
  exact ⟨fun hv q hq hqp => h.place_eq hq hp hqp ▸ hv, fun hv => hv p hp rfl⟩

lemma findSome?_relabel (h : net.WellFormed) (h' : (net.relabel f).WellFormed)
    (hm : net.Covers m) (he : m.entries.findSome? net.refusal = some e) :
    ∃ d, (m.relabel f).entries.findSome? (net.relabel f).refusal = some (d.relabel f) ∧
      (d = e ∨ net.RefusedTwice m e d) := by
  obtain ⟨p, hp, hpe⟩ := refusal_of_findSome? h hm he
  cases hd : (m.relabel f).entries.findSome? (net.relabel f).refusal with
  | none =>
    rw [findSome?_refusal_eq_none_iff h' hm.relabel, accepts_relabel h' hm,
      ← findSome?_refusal_eq_none_iff h hm, he] at hd
    cases hd
  | some d' =>
    obtain ⟨q', hq', hqd⟩ := refusal_of_findSome? h' hm.relabel hd
    obtain ⟨q, hq, rfl⟩ := mem_relabel_places.1 hq'
    have htokens : (m.relabel f).tokens (q.relabel f).name = m.tokens q.name :=
      hm.tokens_relabel h' hq
    rw [htokens, Place.refusal_relabel, Option.map_eq_some_iff] at hqd
    obtain ⟨d, hqe, rfl⟩ := hqd
    refine ⟨d, rfl, ?_⟩
    by_cases hn : p.name = q.name
    · obtain rfl := h.place_eq hp hq hn
      exact .inl (Option.some.inj (hqe.symm.trans hpe))
    · exact .inr ⟨p, hp, q, hq, hn, hpe, hqe⟩

end Relabelled

end Net

end ColouredPetri
