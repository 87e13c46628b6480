import ColouredPetri.Description.Decode
import ColouredPetri.Document.Doc
import Mathlib.Order.MinMax

/-! Views that show documents. A view shows a document in some data if each way to read the data
gives back what was written there; then pairs, lists and variants are read as their parts are. -/

namespace ColouredPetri

namespace View

variable {τ : Type}

mutual

def Shows (V : View τ) : Doc → τ → Prop
  | .bool b, x => V.bool? x = some b
  | .int n, x => ∀ type, V.int? type x = some n
  | .str s, x => V.str? x = some s
  | .list items, x => ∃ xs, V.list? x = some xs ∧ ShowsItems V items xs
  | .tuple items, x => ∃ xs, V.tuple? x = some xs ∧ ShowsItems V items xs
  | .map members, x => ∃ xs, V.map? x = some xs ∧ ShowsMembers V members xs
  | .record fields, x => ∃ xs,
      (∀ name, V.record? name (fields.map Prod.fst) x = some (xs.map fun e => some e.2)) ∧
        ShowsMembers V fields xs
  | .name n, x => ∃ body, V.variant? x = some (n, body) ∧ Decode.plain V body = true
  | .variant n content, x => ∃ y z, V.variant? x = some (n, some y) ∧ V.content? y = some z ∧
      Shows V content z
  | .variantRecord n fields, x => ∃ y xs, V.variant? x = some (n, some y) ∧
      V.record? "" (fields.map Prod.fst) y = some (xs.map fun e => some e.2) ∧
        ShowsMembers V fields xs

def ShowsItems (V : View τ) : List Doc → List τ → Prop
  | [], xs => xs = []
  | d :: l, xs => ∃ y ys, xs = y :: ys ∧ Shows V d y ∧ ShowsItems V l ys

def ShowsMembers (V : View τ) : List (String × Doc) → List (String × τ) → Prop
  | [], xs => xs = []
  | (k, d) :: l, xs => ∃ y ys, xs = (k, y) :: ys ∧ Shows V d y ∧ ShowsMembers V l ys

end

section Comparison

mutual

def shown (V : View τ) : Doc → τ → Bool
  | .bool b, x => V.bool? x == some b
  | .int n, x => V.int? "" x == some n
  | .str s, x => V.str? x == some s
  | .list items, x => (V.list? x).any (shownItems V items)
  | .tuple items, x => (V.tuple? x).any (shownItems V items)
  | .map members, x => (V.map? x).any (shownMembers V members)
  | .record fields, x => (V.record? "" (fields.map Prod.fst) x).any (shownFields V fields)
  | .name n, x => (V.variant? x).any fun e => e.1 == n && Decode.plain V e.2
  | .variant n content, x => (V.variant? x).any fun e =>
      e.1 == n && (e.2.bind V.content?).any (shown V content)
  | .variantRecord n fields, x => (V.variant? x).any fun e => e.1 == n &&
      e.2.any fun y => (V.record? "" (fields.map Prod.fst) y).any (shownFields V fields)

def shownItems (V : View τ) : List Doc → List τ → Bool
  | [], xs => xs.isEmpty
  | _ :: _, [] => false
  | d :: l, y :: ys => shown V d y && shownItems V l ys

def shownMembers (V : View τ) : List (String × Doc) → List (String × τ) → Bool
  | [], xs => xs.isEmpty
  | _ :: _, [] => false
  | (k, d) :: l, y :: ys => y.1 == k && shown V d y.2 && shownMembers V l ys

def shownFields (V : View τ) : List (String × Doc) → List (Option τ) → Bool
  | [], xs => xs.isEmpty
  | _ :: _, [] => false
  | (_, d) :: l, x :: xs => x.any (shown V d) && shownFields V l xs

end

structure Nameless (V : View τ) : Prop where
  int : ∀ {type x n}, V.int? "" x = some n → V.int? type x = some n
  record : ∀ {name names x parts}, V.record? "" names x = some parts →
    V.record? name names x = some parts

variable {V : View τ}

mutual

lemma shows_of_shown (hV : V.Nameless) : ∀ {d : Doc} {x : τ}, shown V d x = true → V.Shows d x
  | .bool _, _, h => eq_of_beq h
  | .int _, _, h => fun _ => hV.int (eq_of_beq h)
  | .str _, _, h => eq_of_beq h
  | .list _, _, h => by
    obtain ⟨xs, hx, hxs⟩ := (Option.any_eq_true _ _).1 h
    exact ⟨xs, hx, showsItems_of_shown hV hxs⟩
  | .tuple _, _, h => by
    obtain ⟨xs, hx, hxs⟩ := (Option.any_eq_true _ _).1 h
    exact ⟨xs, hx, showsItems_of_shown hV hxs⟩
  | .map _, _, h => by
    obtain ⟨xs, hx, hxs⟩ := (Option.any_eq_true _ _).1 h
    exact ⟨xs, hx, showsMembers_of_shown hV hxs⟩
  | .record _, _, h => by
    obtain ⟨parts, hx, hparts⟩ := (Option.any_eq_true _ _).1 h
    obtain ⟨xs, rfl, hxs⟩ := showsFields_of_shown hV hparts
    exact ⟨xs, fun _ => hV.record hx, hxs⟩
  | .name _, _, h => by
    obtain ⟨e, hx, he⟩ := (Option.any_eq_true _ _).1 h
    obtain ⟨hname, hplain⟩ := Bool.and_eq_true_iff.1 he
    exact ⟨e.2, eq_of_beq hname ▸ hx, hplain⟩
  | .variant _ _, _, h => by
    obtain ⟨⟨n, body⟩, hx, he⟩ := (Option.any_eq_true _ _).1 h
    obtain ⟨hname, hbody⟩ := Bool.and_eq_true_iff.1 he
    obtain ⟨z, hz, hshown⟩ := (Option.any_eq_true _ _).1 hbody
    obtain ⟨y, rfl, hy⟩ := Option.bind_eq_some_iff.1 hz
    cases eq_of_beq hname
    exact ⟨y, z, hx, hy, shows_of_shown hV hshown⟩
  | .variantRecord _ _, _, h => by
    obtain ⟨⟨n, body⟩, hx, he⟩ := (Option.any_eq_true _ _).1 h
    obtain ⟨hname, hbody⟩ := Bool.and_eq_true_iff.1 he
    obtain ⟨y, rfl, hy⟩ := (Option.any_eq_true _ _).1 hbody
    obtain ⟨parts, hrecord, hparts⟩ := (Option.any_eq_true _ _).1 hy
    obtain ⟨xs, rfl, hxs⟩ := showsFields_of_shown hV hparts
    cases eq_of_beq hname
    exact ⟨y, xs, hx, hrecord, hxs⟩

lemma showsItems_of_shown (hV : V.Nameless) : ∀ {l : List Doc} {xs : List τ},
    shownItems V l xs = true → ShowsItems V l xs
  | [], _, h => List.isEmpty_iff.1 h
  | _ :: _, [], h => nomatch h
  | _ :: _, y :: ys, h => by
    obtain ⟨hy, hys⟩ := Bool.and_eq_true_iff.1 h
    exact ⟨y, ys, rfl, shows_of_shown hV hy, showsItems_of_shown hV hys⟩

lemma showsMembers_of_shown (hV : V.Nameless) : ∀ {l : List (String × Doc)}
    {xs : List (String × τ)}, shownMembers V l xs = true → ShowsMembers V l xs
  | [], _, h => List.isEmpty_iff.1 h
  | _ :: _, [], h => nomatch h
  | (k, _) :: _, y :: ys, h => by
    obtain ⟨hmember, hys⟩ := Bool.and_eq_true_iff.1 h
    obtain ⟨hname, hy⟩ := Bool.and_eq_true_iff.1 hmember
    exact ⟨y.2, ys, by rw [← eq_of_beq hname], shows_of_shown hV hy, showsMembers_of_shown hV hys⟩

lemma showsFields_of_shown (hV : V.Nameless) : ∀ {l : List (String × Doc)}
    {parts : List (Option τ)}, shownFields V l parts = true →
      ∃ xs : List (String × τ), parts = xs.map (fun e => some e.2) ∧ ShowsMembers V l xs
  | [], _, h => ⟨[], List.isEmpty_iff.1 h, rfl⟩
  | _ :: _, [], h => nomatch h
  | (k, _) :: _, x :: parts, h => by
    obtain ⟨hx, hparts⟩ := Bool.and_eq_true_iff.1 h
    obtain ⟨y, rfl, hy⟩ := (Option.any_eq_true _ _).1 hx
    obtain ⟨xs, rfl, hxs⟩ := showsFields_of_shown hV hparts
    exact ⟨(k, y) :: xs, rfl, y, xs, rfl, shows_of_shown hV hy, hxs⟩

end

end Comparison

variable {V : View τ} {x : τ} {α β : Type}

def Reads (V : View τ) (item : τ → Option α) (d : Doc) (a : α) : Prop :=
  ∀ x, V.Shows d x → item x = some a

lemma mapM_of_showsItems {item : τ → Option α} {f : α → Doc} :
    ∀ {l : List α} {xs : List τ}, ShowsItems V (l.map f) xs →
      (∀ a ∈ l, V.Reads item (f a) a) → xs.mapM item = some l
  | [], _, hx, _ => by
    cases hx
    rfl
  | a :: l, _, hx, h => by
    obtain ⟨y, ys, rfl, hy, hys⟩ := hx
    obtain ⟨ha, hl⟩ := List.forall_mem_cons.1 h
    rw [List.mapM_cons, ha y hy, mapM_of_showsItems hys hl]
    rfl

lemma mapM_of_showsMembers {item : τ → Option α} {f : α → Doc} :
    ∀ {l : List (String × α)} {xs : List (String × τ)},
      ShowsMembers V (l.map fun e => (e.1, f e.2)) xs →
      (∀ e ∈ l, V.Reads item (f e.2) e.2) →
      (xs.mapM fun e => (item e.2).map (e.1, ·)) = some l
  | [], _, hx, _ => by
    cases hx
    rfl
  | (k, a) :: l, _, hx, h => by
    obtain ⟨y, ys, rfl, hy, hys⟩ := hx
    obtain ⟨ha, hl⟩ := List.forall_mem_cons.1 h
    rw [List.mapM_cons, ha y hy, mapM_of_showsMembers hys hl]
    rfl

lemma reads_listOf {item : τ → Option α} {f : α → Doc} {l : List α}
    (h : ∀ a ∈ l, V.Reads item (f a) a) :
    V.Reads (Decode.listOf? V item) (.list (l.map f)) l := by
  rintro x ⟨xs, hx, hxs⟩
  rw [Decode.listOf?, hx]
  exact mapM_of_showsItems hxs h

lemma reads_pair {first : τ → Option α} {second : τ → Option β} {d e : Doc} {a : α} {b : β}
    (ha : V.Reads first d a) (hb : V.Reads second e b) :
    V.Reads (Decode.pair? V first second) (.tuple [d, e]) (a, b) := by
  rintro x ⟨xs, hx, y, ys, rfl, hy, z, zs, rfl, hz, rfl⟩
  rw [Decode.pair?, hx]
  simp only [ha y hy, hb z hz]

lemma Shows.variant {item : τ → Option α} {a : α} {n : String} {d : Doc} (h : V.Reads item d a)
    (hx : V.Shows (.variant n d) x) :
    ∃ body, V.variant? x = some (n, body) ∧ Decode.content? V item body = some a := by
  obtain ⟨y, z, hx, hy, hz⟩ := hx
  refine ⟨some y, hx, ?_⟩
  rw [Decode.content?, hy]
  exact h z hz

end View

namespace Doc

mutual

def nesting : Doc → Nat
  | bool _ => 0
  | int _ => 0
  | str _ => 0
  | list items => itemsNesting items
  | tuple items => itemsNesting items
  | map members => membersNesting members
  | record fields => membersNesting fields
  | name _ => 1
  | variant _ content => nesting content + 1
  | variantRecord _ fields => membersNesting fields + 1

def itemsNesting : List Doc → Nat
  | [] => 0
  | d :: l => max (nesting d) (itemsNesting l)

def membersNesting : List (String × Doc) → Nat
  | [] => 0
  | (_, d) :: l => max (nesting d) (membersNesting l)

end

lemma itemsNesting_le {n : Nat} {l : List Doc} :
    itemsNesting l ≤ n ↔ ∀ d ∈ l, d.nesting ≤ n := by
  induction l with
  | nil => exact iff_of_true (Nat.zero_le n) (List.forall_mem_nil _)
  | cons d l ih => rw [itemsNesting, max_le_iff, ih, List.forall_mem_cons]

lemma membersNesting_le {n : Nat} {l : List (String × Doc)} :
    membersNesting l ≤ n ↔ ∀ e ∈ l, e.2.nesting ≤ n := by
  induction l with
  | nil => exact iff_of_true (Nat.zero_le n) (List.forall_mem_nil _)
  | cons e l ih => rw [membersNesting, max_le_iff, ih, List.forall_mem_cons]

mutual

lemma nesting_le_levels : ∀ d : Doc, d.nesting ≤ d.levels + 1
  | bool _ => Nat.zero_le _
  | int _ => Nat.zero_le _
  | str _ => Nat.zero_le _
  | list items => Nat.le_succ_of_le (itemsNesting_le_levels items)
  | tuple items => Nat.le_succ_of_le (itemsNesting_le_levels items)
  | map members => Nat.le_succ_of_le (membersNesting_le_levels members)
  | record fields => Nat.le_succ_of_le (membersNesting_le_levels fields)
  | name _ => Nat.le_refl 1
  | variant _ content => Nat.succ_le_succ (nesting_le_levels content)
  | variantRecord _ fields => Nat.succ_le_succ (membersNesting_le_levels fields)

lemma itemsNesting_le_levels : ∀ l : List Doc, itemsNesting l ≤ itemLevels l
  | [] => Nat.le_refl 0
  | d :: l => max_le_max (nesting_le_levels d) (itemsNesting_le_levels l)

lemma membersNesting_le_levels : ∀ l : List (String × Doc), membersNesting l ≤ memberLevels l
  | [] => Nat.le_refl 0
  | (_, d) :: l => max_le_max (nesting_le_levels d) (membersNesting_le_levels l)

end

end Doc

end ColouredPetri
