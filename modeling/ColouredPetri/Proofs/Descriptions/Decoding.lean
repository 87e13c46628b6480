import ColouredPetri.Description.Encode
import ColouredPetri.Proofs.BagArithmetic
import ColouredPetri.Proofs.Descriptions.Views
import ColouredPetri.Proofs.TableKeys

namespace ColouredPetri

namespace Value

mutual

/-- Bags list their values in ascending order, each with a positive count that fits a word. -/
def Proper : Value → Prop
  | dot => True
  | bool _ => True
  | int _ => True
  | str _ => True
  | tuple items => ProperItems items
  | bag counts => (counts.Pairwise fun d e => compare d.1 e.1 = .lt) ∧ ProperCounts counts

def ProperItems : List Value → Prop
  | [] => True
  | v :: l => Proper v ∧ ProperItems l

def ProperCounts : List (Value × Nat) → Prop
  | [] => True
  | (v, n) :: l => (Proper v ∧ 0 < n ∧ n < UInt64.size) ∧ ProperCounts l

end

lemma properItems_iff {l : List Value} : ProperItems l ↔ ∀ v ∈ l, v.Proper := by
  induction l with
  | nil => exact iff_of_true trivial (List.forall_mem_nil _)
  | cons v l ih => rw [ProperItems, ih, List.forall_mem_cons]

lemma properCounts_iff {l : List (Value × Nat)} :
    ProperCounts l ↔ ∀ e ∈ l, e.1.Proper ∧ 0 < e.2 ∧ e.2 < UInt64.size := by
  induction l with
  | nil => exact iff_of_true trivial (List.forall_mem_nil _)
  | cons e l ih => rw [ProperCounts, ih, List.forall_mem_cons]

lemma docs_eq_map (l : List Value) : docs l = l.map doc := by
  induction l with
  | nil => rfl
  | cons v l ih => rw [docs, ih, List.map_cons]

lemma countDocs_eq_map (l : List (Value × Nat)) :
    countDocs l = l.map fun e => .tuple [e.1.doc, .int e.2] := by
  induction l with
  | nil => rfl
  | cons e l ih => rw [countDocs, ih, List.map_cons]

end Value

namespace Arc

mutual

def values : Arc → List Value
  | value v => [v]
  | var _ => []
  | formula _ => []
  | multi parts => valuesAll parts
  | tuple parts => valuesAll parts
  | test inner => values inner
  | inhibitor inner _ => values inner
  | flush inner => values inner

def valuesAll : List Arc → List Value
  | [] => []
  | a :: l => values a ++ valuesAll l

end

lemma mem_valuesAll {l : List Arc} {v : Value} : v ∈ valuesAll l ↔ ∃ a ∈ l, v ∈ a.values := by
  induction l with
  | nil => simp [valuesAll]
  | cons a l ih => rw [valuesAll, List.mem_append, ih, List.exists_mem_cons_iff]

lemma docs_eq_map (l : List Arc) : docs l = l.map doc := by
  induction l with
  | nil => rfl
  | cons a l ih => rw [docs, ih, List.map_cons]

end Arc

def TypeSpec.values : TypeSpec → List Value
  | any => []
  | kind _ => []
  | oneOf values => values

def PlaceDescription.values (d : PlaceDescription) : List Value := d.tokens.toValue :: d.type.values

def TransitionDescription.values (d : TransitionDescription) : List Value :=
  (d.inputs ++ d.outputs).flatMap fun e => e.2.values

def NetDescription.values (d : NetDescription) : List Value :=
  d.globals.values ++ d.places.flatMap PlaceDescription.values ++
    d.transitions.flatMap TransitionDescription.values

lemma Bag.ofPairs_pairs (b : Bag) : ofPairs b.pairs = b := zero_add b

namespace Decode

open View

variable {τ : Type} {V : View τ}

lemma reads_int64 (n : Int64) : V.Reads (int64? V) (.int n.toInt) n := by
  intro x hx
  have hrange : Int64.minValue.toInt ≤ n.toInt ∧ n.toInt ≤ Int64.maxValue.toInt :=
    ⟨Int64.minValue_le_toInt n, Int64.toInt_le n⟩
  rw [int64?, hx "i64"]
  simp only [if_pos hrange, Int64.ofInt_toInt]

lemma reads_count {n : Nat} (hn : n < UInt64.size) : V.Reads (count? V) (.int n) n := by
  intro x hx
  have hrange : (0 : Int) ≤ n ∧ (n : Int) < UInt64.size := ⟨by omega, by omega⟩
  rw [count?, hx "u64"]
  simp only [if_pos hrange, Int.toNat_natCast]

lemma reads_value : ∀ {n : Nat} {v : Value}, v.doc.nesting ≤ n → v.Proper →
    V.Reads (value? V n) v.doc v
  | 0, v, hn, _, _, _ => by cases v <;> cases hn
  | n + 1, .dot, _, _, x, ⟨body, hx, hbody⟩ => by
    simp only [value?, hx, hbody, if_true]
  | n + 1, .bool b, _, _, x, hx => by
    have hread : V.Reads V.bool? (.bool b) b := fun _ h => h
    obtain ⟨body, hx, hbody⟩ := hx.variant hread
    simp only [value?, hx, hbody, Option.map_some]
  | n + 1, .int i, _, _, x, hx => by
    obtain ⟨body, hx, hbody⟩ := hx.variant (reads_int64 i)
    simp only [value?, hx, hbody, Option.map_some]
  | n + 1, .str s, _, _, x, hx => by
    have hread : V.Reads V.str? (.str s) s := fun _ h => h
    obtain ⟨body, hx, hbody⟩ := hx.variant hread
    simp only [value?, hx, hbody, Option.map_some]
  | n + 1, .tuple items, hn, hv, x, hx => by
    rw [Value.doc, Value.docs_eq_map] at hx hn
    have hitems := Doc.itemsNesting_le.1 (Nat.le_of_succ_le_succ hn)
    rw [List.forall_mem_map] at hitems
    have hread : V.Reads (listOf? V (value? V n)) (.list (items.map Value.doc)) items :=
      reads_listOf fun v hm => reads_value (hitems v hm) (Value.properItems_iff.1 hv v hm)
    obtain ⟨body, hx, hbody⟩ := hx.variant hread
    simp only [value?, hx, hbody, Option.map_some]
  | n + 1, .bag counts, hn, hv, x, hx => by
    rw [Value.doc, Value.countDocs_eq_map] at hx hn
    have hcounts := Doc.itemsNesting_le.1 (Nat.le_of_succ_le_succ hn)
    rw [List.forall_mem_map] at hcounts
    obtain ⟨hascending, hproper⟩ := hv
    rw [Value.properCounts_iff] at hproper
    have hread : V.Reads (listOf? V (pair? V (value? V n) (count? V)))
        (.list (counts.map fun e => .tuple [e.1.doc, .int e.2])) counts :=
      reads_listOf fun e he => reads_pair
        (reads_value ((le_max_left _ _).trans (hcounts e he)) (hproper e he).1)
        (reads_count (hproper e he).2.2)
    obtain ⟨body, hx, hbody⟩ := hx.variant hread
    have hbag := Bag.ofPairs_pairs ⟨⟨counts, hascending⟩, fun e he => (hproper e he).2.1⟩
    simp only [value?, hx, hbody, Option.map_some]
    exact congrArg (fun b => some b.toValue) hbag

lemma reads_token {v : Value} (hn : v.doc.nesting ≤ maxDepth) (hv : v.Proper) :
    V.Reads (token? V) v.doc v :=
  reads_value hn hv

lemma reads_tokens {l : List Value} (hn : Doc.itemsNesting (Value.docs l) ≤ maxDepth)
    (hl : ∀ v ∈ l, v.Proper) : V.Reads (listOf? V (token? V)) (.list (Value.docs l)) l := by
  rw [Value.docs_eq_map] at hn ⊢
  rw [Doc.itemsNesting_le, List.forall_mem_map] at hn
  exact reads_listOf fun v hv => reads_token (hn v hv) (hl v hv)

lemma reads_bag {b : Bag} (hn : b.doc.nesting ≤ maxDepth) (hb : b.toValue.Proper) :
    V.Reads (bag? V) b.doc b := by
  have hproper := Value.properCounts_iff.1 hb.2
  rw [Bag.doc, Value.countDocs_eq_map] at hn ⊢
  have hcounts := Doc.itemsNesting_le.1 hn
  rw [List.forall_mem_map] at hcounts
  intro x hx
  have hread := reads_listOf (fun e he => reads_pair
    (reads_token ((le_max_left _ _).trans (hcounts e he)) (hproper e he).1)
    (reads_count (hproper e he).2.2)) x hx
  rw [bag?, hread, Option.map_some, Bag.ofPairs_pairs]

lemma reads_kind (k : Kind) : V.Reads (kind? V) (.name k.tag) k := by
  rintro x ⟨body, hx, hbody⟩
  have htag : Kind.ofTag? k.tag = some k := by cases k <;> rfl
  simp only [kind?, hx, hbody, if_true, htag]

lemma reads_type {s : TypeSpec} (hn : s.doc.nesting ≤ maxDepth) (hs : ∀ v ∈ s.values, v.Proper) :
    V.Reads (type? V) s.doc s := by
  cases s with
  | any =>
    rintro x ⟨body, hx, hbody⟩
    simp only [type?, hx, hbody, if_true]
  | kind k =>
    intro x hx
    obtain ⟨body, hx, hbody⟩ := hx.variant (reads_kind k)
    simp only [type?, hx, hbody, Option.map_some]
  | oneOf values =>
    intro x hx
    obtain ⟨body, hx, hbody⟩ := hx.variant (reads_tokens ((Nat.le_succ _).trans hn) hs)
    simp only [type?, hx, hbody, Option.map_some]

lemma reads_formula (f : Formula) : V.Reads (formula? V) (.str f.source) f := by
  intro x hx
  rw [formula?, show V.str? x = some f.source from hx]
  rfl

lemma reads_parts {n : Nat} {l : List Arc} (hn : Doc.itemsNesting (l.map Arc.doc) ≤ n)
    (hv : ∀ v ∈ Arc.valuesAll l, v.Proper)
    (hread : ∀ a ∈ l, a.doc.nesting ≤ n → (∀ v ∈ a.values, v.Proper) →
      V.Reads (arcUpTo? V n) a.doc a) :
    V.Reads (listOf? V (arcUpTo? V n)) (.list (l.map Arc.doc)) l := by
  have hparts := Doc.itemsNesting_le.1 hn
  rw [List.forall_mem_map] at hparts
  exact reads_listOf fun a ha => hread a ha (hparts a ha) fun v h =>
    hv v (Arc.mem_valuesAll.2 ⟨a, ha, h⟩)

lemma reads_arcUpTo : ∀ {n : Nat} {a : Arc}, a.doc.nesting ≤ n → n ≤ maxDepth →
    (∀ v ∈ a.values, v.Proper) → V.Reads (arcUpTo? V n) a.doc a
  | 0, a, hn, _, _, _, _ => by cases a <;> cases hn
  | n + 1, .value v, hn, hm, hv, x, hx => by
    have hvn : v.doc.nesting ≤ maxDepth := (Nat.le_succ _).trans (hn.trans hm)
    have hread : V.Reads (token? V) v.doc v := reads_token hvn (hv v (List.mem_singleton_self v))
    obtain ⟨body, hx, hbody⟩ := hx.variant hread
    simp only [arcUpTo?, hx, hbody, Option.map_some]
  | n + 1, .var name, _, _, _, x, hx => by
    have hread : V.Reads V.str? (.str name) name := fun _ h => h
    obtain ⟨body, hx, hbody⟩ := hx.variant hread
    simp only [arcUpTo?, hx, hbody, Option.map_some]
  | n + 1, .formula f, _, _, _, x, hx => by
    obtain ⟨body, hx, hbody⟩ := hx.variant (reads_formula f)
    simp only [arcUpTo?, hx, hbody, Option.map_some]
  | n + 1, .multi l, hn, hm, hv, x, hx => by
    rw [Arc.doc, Arc.docs_eq_map] at hx hn
    have hread := reads_parts (Nat.le_of_succ_le_succ hn) hv fun a _ ha hva =>
      reads_arcUpTo (a := a) ha (Nat.le_of_succ_le hm) hva
    obtain ⟨body, hx, hbody⟩ := hx.variant hread
    simp only [arcUpTo?, hx, hbody, Option.map_some]
  | n + 1, .tuple l, hn, hm, hv, x, hx => by
    rw [Arc.doc, Arc.docs_eq_map] at hx hn
    have hread := reads_parts (Nat.le_of_succ_le_succ hn) hv fun a _ ha hva =>
      reads_arcUpTo (a := a) ha (Nat.le_of_succ_le hm) hva
    obtain ⟨body, hx, hbody⟩ := hx.variant hread
    simp only [arcUpTo?, hx, hbody, Option.map_some]
  | n + 1, .test a, hn, hm, hv, x, hx => by
    have hread := reads_arcUpTo (a := a) (Nat.le_of_succ_le_succ hn) (Nat.le_of_succ_le hm) hv
    obtain ⟨body, hx, hbody⟩ := hx.variant hread
    simp only [arcUpTo?, hx, hbody, Option.map_some]
  | n + 1, .inhibitor a f, hn, hm, hv, x, hx => by
    obtain ⟨y, _, hx, hy, u, _, rfl, hu, w, _, rfl, hw, rfl⟩ := hx
    have ha := Doc.membersNesting_le.1 (Nat.le_of_succ_le_succ hn) _ List.mem_cons_self
    have hread := reads_arcUpTo (a := a) ha (Nat.le_of_succ_le hm) hv u hu
    have hrecord : V.record? "" ["inner", "condition"] y = some [some u, some w] := hy
    simp only [arcUpTo?, hx, inhibitor?, Option.bind_some, hrecord, hread, reads_formula f w hw]
  | n + 1, .flush a, hn, hm, hv, x, hx => by
    have hread := reads_arcUpTo (a := a) (Nat.le_of_succ_le_succ hn) (Nat.le_of_succ_le hm) hv
    obtain ⟨body, hx, hbody⟩ := hx.variant hread
    simp only [arcUpTo?, hx, hbody, Option.map_some]

lemma reads_arcs {l : List (String × Arc)} (hn : (arcsDoc l).nesting ≤ maxDepth)
    (hl : ∀ e ∈ l, ∀ v ∈ e.2.values, v.Proper) : V.Reads (arcs? V) (arcsDoc l) l := by
  have harcs := Doc.itemsNesting_le.1 hn
  rw [List.forall_mem_map] at harcs
  refine reads_listOf fun e he => reads_pair (fun _ h => h) ?_
  have hdoc : e.2.doc.nesting ≤ maxDepth :=
    Doc.itemsNesting_le.1 (harcs e he) _ (List.mem_cons_of_mem _ List.mem_cons_self)
  exact reads_arcUpTo hdoc le_rfl (hl e he)

lemma reads_binding {b : Binding} (hn : b.doc.nesting ≤ maxDepth) (hb : ∀ v ∈ b.values, v.Proper) :
    V.Reads (binding? V) b.doc b := by
  have hentries := Doc.membersNesting_le.1 hn
  rw [List.forall_mem_map] at hentries
  rintro x ⟨xs, hx, hxs⟩
  have hread := mapM_of_showsMembers hxs fun e he =>
    reads_token (hentries e he) (hb e.2 (List.mem_map_of_mem he))
  rw [binding?, hx]
  simp only [hread, Option.map_some, Table.ofList_entries]

lemma reads_place {d : PlaceDescription} (hn : d.doc.nesting ≤ maxDepth)
    (hd : ∀ v ∈ d.values, v.Proper) : V.Reads (place? V) d.doc d := by
  obtain ⟨htokens, htype⟩ := List.forall_mem_cons.1 hd
  have hnesting := Doc.membersNesting_le.1 hn
  simp only [List.forall_mem_cons] at hnesting
  obtain ⟨-, hntokens, hntype, -⟩ := hnesting
  intro x hx
  obtain ⟨_, hrecord, n, _, rfl, hname, b, _, rfl, hb, s, _, rfl, hs, rfl⟩ := hx
  have hrecord : V.record? "PlaceDescription" ["name", "tokens", "token_type"] x =
      some [some n, some b, some s] := hrecord _
  have hname : V.str? n = some d.name := hname
  simp only [place?, hrecord, Option.bind_eq_bind, Option.bind_some, optional, hname,
    reads_bag hntokens htokens b hb, reads_type hntype htype s hs]
  rfl

lemma reads_transition {d : TransitionDescription} (hn : d.doc.nesting ≤ maxDepth)
    (hd : ∀ v ∈ d.values, v.Proper) : V.Reads (transition? V) d.doc d := by
  have harcs : ∀ e ∈ d.inputs ++ d.outputs, ∀ v ∈ e.2.values, v.Proper := fun e he v hv =>
    hd v (List.mem_flatMap.2 ⟨e, he, hv⟩)
  rw [List.forall_mem_append] at harcs
  have hnesting := Doc.membersNesting_le.1 hn
  simp only [List.forall_mem_cons] at hnesting
  obtain ⟨-, -, hninputs, hnoutputs, -⟩ := hnesting
  intro x hx
  obtain ⟨_, hrecord, n, _, rfl, hname, g, _, rfl, hg, i, _, rfl, hi, o, _, rfl, ho, rfl⟩ := hx
  have hrecord : V.record? "TransitionDescription" ["name", "guard", "inputs", "outputs"] x =
      some [some n, some g, some i, some o] := hrecord _
  have hname : V.str? n = some d.name := hname
  simp only [transition?, hrecord, Option.bind_eq_bind, Option.bind_some, optional, hname,
    reads_formula d.guard g hg, reads_arcs hninputs harcs.1 i hi, reads_arcs hnoutputs harcs.2 o ho]
  rfl

lemma reads_net {d : NetDescription} (hn : d.doc.nesting ≤ maxDepth)
    (hd : ∀ v ∈ d.values, v.Proper) : V.Reads (net? V) d.doc d := by
  simp only [NetDescription.values, List.forall_mem_append, List.mem_flatMap] at hd
  obtain ⟨⟨hglobals, hplaces⟩, htransitions⟩ := hd
  have hnesting := Doc.membersNesting_le.1 hn
  simp only [List.forall_mem_cons] at hnesting
  obtain ⟨-, hnglobals, hnplaces, hntransitions, -⟩ := hnesting
  have hnplaces := Doc.itemsNesting_le.1 hnplaces
  have hntransitions := Doc.itemsNesting_le.1 hntransitions
  rw [List.forall_mem_map] at hnplaces hntransitions
  intro x hx
  obtain ⟨_, hrecord, n, _, rfl, hname, g, _, rfl, hg, p, _, rfl, hp, t, _, rfl, ht, rfl⟩ := hx
  have hrecord : V.record? "NetDescription" ["name", "globals", "places", "transitions"] x =
      some [some n, some g, some p, some t] := hrecord _
  have hname : V.str? n = some d.name := hname
  have hp := reads_listOf (fun e he => reads_place (hnplaces e he) fun v hv =>
    hplaces v ⟨e, he, hv⟩) p hp
  have ht := reads_listOf (fun e he => reads_transition (hntransitions e he) fun v hv =>
    htransitions v ⟨e, he, hv⟩) t ht
  simp only [net?, hrecord, Option.bind_eq_bind, Option.bind_some, optional, hname,
    reads_binding hnglobals hglobals g hg, hp, ht]
  rfl

end Decode

end ColouredPetri
