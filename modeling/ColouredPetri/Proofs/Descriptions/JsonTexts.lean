import ColouredPetri.Document.Json
import ColouredPetri.Proofs.Readings

namespace ColouredPetri

namespace Json

open Text Text.Reader

variable {s r w : List Char} {c : Char}

def Blank (w : List Char) : Prop := ∀ c ∈ w, isSpace c = true

lemma skip_blank (hw : Blank w) : skip (w ++ s) = skip s := List.dropWhile_append_of_pos hw

lemma skip_of_not (hc : isSpace c = false) : skip (c :: s) = c :: s :=
  List.dropWhile_cons_of_neg (Bool.eq_false_iff.1 hc)

section Strings

lemma hexFour_control (n : Fin 32) :
    hexFour ('0' :: '0' :: hexDigit (n / 16) :: hexDigit (n % 16) :: s) = some (n.val, s) := by
  have hnumber : ∀ n : Fin 32, number? 16 ['0', '0', hexDigit (n / 16), hexDigit (n % 16)] =
      some n.val := by decide
  rw [hexFour]
  simp only [List.take_succ_cons, List.take_zero, List.length_cons, List.length_nil, if_true,
    hnumber n, Option.map_some, List.drop_succ_cons, List.drop_zero]

lemma codePoint_control (hc : c.toNat < 0x20) :
    codePoint ('0' :: '0' :: hexDigit (c.toNat / 16) :: hexDigit (c.toNat % 16) :: s) =
      some (some c, s) := by
  have hlow : ¬(0xD800 ≤ c.toNat ∧ c.toNat < 0xDC00) := fun h => by omega
  have hhigh : ¬(0xDC00 ≤ c.toNat ∧ c.toNat < 0xE000) := fun h => by omega
  rw [codePoint, hexFour_control ⟨c.toNat, hc⟩]
  simp only [Option.bind_eq_bind, Option.bind_some, if_neg hlow, if_neg hhigh, Char.ofNat_toNat]

lemma character_plain (hquote : c ≠ '"') (hbackslash : c ≠ '\\') (hc : ¬c.toNat < 0x20) :
    character (c :: s) = some (some c, s) := by
  unfold character
  split <;> simp_all

lemma character_escapeChar (c : Char) (s : List Char) :
    character (escapeChar c ++ s) = some (some c, s) := by
  rw [escapeChar]
  split_ifs with hquote hbackslash hb hf hn hr ht hcontrol
  · rw [hquote]; rfl
  · rw [hbackslash]; rfl
  · rw [hb]; rfl
  · rw [hf]; rfl
  · rw [hn]; rfl
  · rw [hr]; rfl
  · rw [ht]; rfl
  · exact codePoint_control hcontrol
  · exact character_plain hquote hbackslash hcontrol

lemma escapeChar_ne_nil (c : Char) : escapeChar c ≠ [] := by
  rw [escapeChar]
  split_ifs <;> exact List.cons_ne_nil _ _

lemma string_quoted (t : String) (s : List Char) :
    string ((quoted t).toList ++ s) = some (some t, s) := by
  have hmany : many character (t.toList.flatMap escapeChar ++ '"' :: s) =
      (t.toList.map some, '"' :: s) :=
    many_flatMap (P := fun _ => True) trivial rfl (fun _ _ => trivial) escapeChar_ne_nil
      fun c _ s _ => character_escapeChar c s
  have hall : (t.toList.map some).mapM id = some t.toList := by
    rw [List.mapM_map]
    exact (List.mapM_pure (m := Option)).trans (congrArg some (List.map_id _))
  rw [quoted, String.toList_ofList, List.cons_append, List.append_assoc, List.singleton_append,
    string, hmany]
  simp only [hall, Option.map_some, String.ofList_toList]

end Strings

section Numbers

def Ends (r : List Char) : Prop := ∀ c ∈ r.head?, c = ',' ∨ c = '\n'

lemma digits_append {ds : List Char} (hds : ∀ c ∈ ds, c.isDigit = true) (hr : Ends r) :
    digits (ds ++ r) = (ds, r) := by
  have hstop : r.takeWhile Char.isDigit = [] ∧ r.dropWhile Char.isDigit = r := by
    cases r with
    | nil => exact ⟨rfl, rfl⟩
    | cons c r => rcases hr c rfl with rfl | rfl <;> exact ⟨rfl, rfl⟩
  rw [digits, List.takeWhile_append_of_pos hds, List.dropWhile_append_of_pos hds, hstop.1, hstop.2,
    List.append_nil]

lemma whole_toDigits (n : Nat) (hr : Ends r) :
    whole (Nat.toDigits 10 n ++ r) = some (Nat.toDigits 10 n, r) := by
  obtain rfl | hn := Nat.eq_zero_or_pos n
  · rfl
  · have hdigits : ∀ c ∈ Nat.toDigits 10 n, c.isDigit = true := fun c => isDigit_of_mem_toDigits
    have hhead := head?_toDigits hn
    obtain ⟨c, ds, hds⟩ := List.exists_cons_of_ne_nil (Nat.toDigits_ne_nil (n := n) (b := 10))
    rw [hds] at hdigits hhead ⊢
    have hc : c ≠ '0' := fun h => hhead (congrArg some h)
    have happend := digits_append hdigits hr
    rw [List.cons_append] at happend ⊢
    rw [whole]
    · rw [happend]
    · exact fun _ h => hc (List.cons.inj h).1

lemma fraction_of_ends (hr : Ends r) : fraction r = some (false, r) := by
  cases r with
  | nil => rfl
  | cons c r => rcases hr c rfl with rfl | rfl <;> rfl

lemma exponent_of_ends (hr : Ends r) : exponent r = some (false, r) := by
  cases r with
  | nil => rfl
  | cons c r => rcases hr c rfl with rfl | rfl <;> rfl

lemma number_toDigits (n : Nat) (hr : Ends r) :
    number (Nat.toDigits 10 n ++ r) = some (int n, r) := by
  have hwhole := whole_toDigits n hr
  have hdigits : ∀ c ∈ Nat.toDigits 10 n, c.isDigit = true := fun c => isDigit_of_mem_toDigits
  have hnumber := number?_toDigits (b := 10) (by decide) (by decide) n
  obtain ⟨c, ds, hds⟩ := List.exists_cons_of_ne_nil (Nat.toDigits_ne_nil (n := n) (b := 10))
  rw [hds] at hdigits hwhole hnumber ⊢
  have hc : c ≠ '-' := by
    rintro rfl
    exact absurd (hdigits _ List.mem_cons_self) (by decide)
  rw [List.cons_append] at hwhole ⊢
  rw [number]
  · simp [hwhole, fraction_of_ends hr, exponent_of_ends hr, hnumber]
  · exact fun _ h => hc (List.cons.inj h).1

lemma number_minus {n : Nat} (hn : 0 < n) (hr : Ends r) :
    number ('-' :: (Nat.toDigits 10 n ++ r)) = some (int (-n), r) := by
  have hnumber := number?_toDigits (b := 10) (by decide) (by decide) n
  simp [number, whole_toDigits n hr, fraction_of_ends hr, exponent_of_ends hr, hnumber,
    Nat.ne_of_gt hn]

lemma number_int (n : Int) (hr : Ends r) : number ((toString n).toList ++ r) = some (int n, r) := by
  cases n with
  | ofNat n =>
    rw [toList_ofNat]
    exact number_toDigits n hr
  | negSucc n =>
    rw [toList_negSucc]
    exact number_minus n.succ_pos hr

end Numbers

section Brackets

def line (depth : Nat) (t : List Char) : List Char := '\n' :: (List.replicate depth ' ' ++ t)

lemma blank_line (depth : Nat) : Blank (line depth []) := by
  intro c hc
  rw [line, List.append_nil, List.mem_cons] at hc
  rcases hc with rfl | hc
  · rfl
  · rw [List.eq_of_mem_replicate hc]
    rfl

lemma line_eq (depth : Nat) (t : List Char) : line depth t = line depth [] ++ t := by
  simp [line]

lemma skip_line (depth : Nat) (t : List Char) : skip (line depth t) = skip t := by
  rw [line_eq, skip_blank (blank_line depth)]

lemma toList_block (opening closing t : String) (depth : Nat) (ts : List String) :
    (block opening closing depth (t :: ts)).toList = opening.toList ++ (line (depth + 2) t.toList ++
      ((ts.flatMap fun t => ',' :: line (depth + 2) t.toList) ++ line depth closing.toList)) := by
  have hindent : ∀ n, (indent n).toList = List.replicate n ' ' := fun n => String.toList_ofList
  simp only [block, List.isEmpty_cons, Bool.false_eq_true, if_false, String.toList_append,
    String.toList_intercalate, List.map_cons, intercalate_cons, hindent, line]
  simp [List.flatMap_map, Function.comp_def, hindent]

variable {α β : Type} {p : Reader α} {f : β → List Char} {g : β → α} {b : β} {l : List β}
  {close : Char} {depth inner : Nat}

lemma ends_line (t : List Char) : Ends (line depth t) := fun _ hc => .inr (Option.some.inj hc).symm

lemma members_lines (hclose : isSpace close = false) (hcomma : close ≠ ',')
    (hstart : ∃ c t, f b = c :: t ∧ isSpace c = false ∧ c ≠ close)
    (hp : ∀ e ∈ b :: l, ∀ w s, Blank w → Ends s → p (w ++ (f e ++ s)) = some (g e, s)) :
    members p close (line inner (f b) ++
        ((l.flatMap fun e => ',' :: line inner (f e)) ++ line depth (close :: r))) =
      some (g b :: l.map g, r) := by
  obtain ⟨c, t, hb, hc, hne⟩ := hstart
  obtain ⟨hfirst, hrest⟩ := List.forall_mem_cons.1 hp
  have hskip : skip (line depth (close :: r)) = close :: r := by
    rw [skip_line, skip_of_not hclose]
  have hmore : many (both comma p fun _ a => a)
      ((l.flatMap fun e => ',' :: line inner (f e)) ++ line depth (close :: r)) =
        (l.map g, line depth (close :: r)) := by
    refine many_flatMap (P := Ends) (ends_line _) ?_ (fun e s _ hc => ?_) (fun e => ?_) ?_
    · rw [both, comma, hskip, word_of_ne hcomma.symm]
    · exact .inl (Option.some.inj hc).symm
    · exact List.cons_ne_nil _ _
    · intro e he s hs
      have hone := hrest e he (line inner []) s (blank_line inner) hs
      rw [← List.append_assoc, ← line_eq] at hone
      rw [both, comma, List.cons_append, skip_of_not (c := ',') rfl]
      have hword : word [','] () (',' :: (line inner (f e) ++ s)) = some ((), line inner (f e) ++ s) :=
        word_append [','] _ ()
      rw [hword]
      simp only [hone]
  have hends : Ends ((l.flatMap fun e => ',' :: line inner (f e)) ++ line depth (close :: r)) := by
    cases l with
    | nil => exact ends_line _
    | cons e l => exact fun _ hc => .inl (Option.some.inj hc).symm
  have hone := hfirst (line inner []) _ (blank_line inner) hends
  rw [← List.append_assoc, ← line_eq] at hone
  have hopen : word [close] () (skip (line inner (f b) ++
      ((l.flatMap fun e => ',' :: line inner (f e)) ++ line depth (close :: r)))) = none := by
    rw [line_eq, List.append_assoc, skip_blank (blank_line inner), hb, List.cons_append,
      skip_of_not hc, word_of_ne hne.symm]
  have hlast : word [close] () (close :: r) = some ((), r) := word_append [close] r ()
  rw [members, hopen]
  simp only [hone, hmore, hskip, hlast, Option.bind_eq_bind, Option.bind_some]

end Brackets

mutual

def Written : Json → Prop
  | null => True
  | bool _ => True
  | int _ => True
  | other => False
  | str _ => True
  | list items => WrittenItems items
  | object members => WrittenMembers members

def WrittenItems : List Json → Prop
  | [] => True
  | v :: l => Written v ∧ WrittenItems l

def WrittenMembers : List (String × Json) → Prop
  | [] => True
  | (_, v) :: l => Written v ∧ WrittenMembers l

end

section Values

lemma prettyItems_eq_map (depth : Nat) (l : List Json) : prettyItems depth l = l.map (pretty depth) := by
  induction l with
  | nil => rfl
  | cons v l ih => rw [prettyItems, ih, List.map_cons]

lemma prettyMembers_eq_map (depth : Nat) (l : List (String × Json)) :
    prettyMembers depth l = l.map fun e => quoted e.1 ++ ": " ++ pretty depth e.2 := by
  induction l with
  | nil => rfl
  | cons e l ih => rw [prettyMembers, ih, List.map_cons]

lemma value_of_scalar {n : Nat} {t : List Char} {c : Char} (hw : Blank w) (hc : isSpace c = false)
    (hlist : c ≠ '[') (hobject : c ≠ '\x7b') : value n (w ++ c :: t) = scalar (c :: t) := by
  cases n with
  | zero => rw [value, skip_blank hw, skip_of_not hc]
  | succ n =>
    rw [value, skip_blank hw, skip_of_not hc]
    split
    · next h => exact absurd (List.cons.inj h).1 hlist
    · next h => exact absurd (List.cons.inj h).1 hobject
    · rfl

lemma scalar_cons {t : List Char} (hn : c ≠ 'n') (ht : c ≠ 't') (hf : c ≠ 'f') :
    scalar (c :: t) =
      orElse (fun s => (string s).map fun x => (ofString? x.1, x.2)) number (c :: t) := by
  have hnull : word "null".toList null (c :: t) = none := word_of_ne hn.symm _
  have htrue : word "true".toList (bool true) (c :: t) = none := word_of_ne ht.symm _
  have hfalse : word "false".toList (bool false) (c :: t) = none := word_of_ne hf.symm _
  rw [scalar, orElse, hnull, orElse, htrue, orElse, hfalse]

lemma scalar_quoted (t : String) : scalar ((quoted t).toList ++ s) = some (str t, s) := by
  have hstring := string_quoted t s
  rw [quoted, String.toList_ofList, List.cons_append] at hstring ⊢
  rw [scalar_cons (by decide) (by decide) (by decide), orElse, hstring]
  rfl

lemma string_of_ne {t : List Char} (hc : c ≠ '"') : string (c :: t) = none := by
  rw [string]
  exact fun _ h => hc (List.cons.inj h).1

lemma scalar_int (n : Int) (hs : Ends s) : scalar ((toString n).toList ++ s) = some (int n, s) := by
  have hnumber := number_int n hs
  obtain ⟨c, t, ht, hc⟩ := exists_head_int n
  rw [ht, List.cons_append] at hnumber ⊢
  rw [scalar_cons (ne_of_head hc (by decide) rfl) (ne_of_head hc (by decide) rfl)
    (ne_of_head hc (by decide) rfl), orElse, string_of_ne (ne_of_head hc (by decide) rfl), hnumber]
  rfl

def Starts (t : List Char) : Prop := ∃ c t', t = c :: t' ∧ isSpace c = false ∧ c ≠ ']' ∧ c ≠ '\x7d'

lemma starts_quoted (t : String) : Starts (quoted t).toList :=
  ⟨'"', _, String.toList_ofList, rfl, by decide, by decide⟩

lemma starts_int (n : Int) : Starts (toString n).toList := by
  obtain ⟨c, t, ht, hc⟩ := exists_head_int n
  have hspace : isSpace c = false := by
    simp only [isSpace, beq_false_of_ne (ne_of_head (d := ' ') hc (by decide) rfl),
      beq_false_of_ne (ne_of_head (d := '\n') hc (by decide) rfl),
      beq_false_of_ne (ne_of_head (d := '\t') hc (by decide) rfl),
      beq_false_of_ne (ne_of_head (d := '\r') hc (by decide) rfl), Bool.or_self]
  exact ⟨c, t, ht, hspace, ne_of_head hc (by decide) rfl, ne_of_head hc (by decide) rfl⟩

lemma starts_block {opening closing : String} {depth : Nat} {texts : List String}
    (ho : Starts opening.toList) : Starts (block opening closing depth texts).toList := by
  obtain ⟨c, t, ht, hc⟩ := ho
  rw [block]
  split <;> simp only [String.toList_append, ht, List.cons_append] <;> exact ⟨c, _, rfl, hc⟩

lemma starts_pretty (depth : Nat) : ∀ j : Json, Starts (pretty depth j).toList
  | null => by
    rw [pretty]
    exact ⟨'n', _, rfl, rfl, by decide, by decide⟩
  | bool b => by
    cases b <;> rw [pretty]
    · exact ⟨'f', _, rfl, rfl, by decide, by decide⟩
    · exact ⟨'t', _, rfl, rfl, by decide, by decide⟩
  | int n => by
    rw [pretty]
    exact starts_int n
  | other => by
    rw [pretty]
    exact ⟨'0', _, rfl, rfl, by decide, by decide⟩
  | str t => by
    rw [pretty]
    exact starts_quoted t
  | list _ => by
    rw [pretty]
    exact starts_block ⟨'[', _, rfl, rfl, by decide, by decide⟩
  | object _ => by
    rw [pretty]
    exact starts_block ⟨'\x7b', _, rfl, rfl, by decide, by decide⟩

lemma length_lt_block {opening closing t : String} {depth : Nat} {ts : List String} (ht : t ∈ ts) :
    t.toList.length < (block opening closing depth ts).toList.length := by
  cases ts with
  | nil => cases ht
  | cons u us =>
    rw [toList_block, List.length_append, List.length_append]
    have hline : ∀ t, t.length < (line (depth + 2) t).length := fun t => by
      rw [line, List.length_cons, List.length_append]
      omega
    rcases List.mem_cons.1 ht with rfl | ht
    · have := hline t.toList
      omega
    · have hmem : (',' :: line (depth + 2) t.toList) ∈
          us.map fun t => ',' :: line (depth + 2) t.toList := List.mem_map_of_mem ht
      have hmore : (',' :: line (depth + 2) t.toList).length ≤
          (us.flatMap fun t => ',' :: line (depth + 2) t.toList).length :=
        (List.sublist_flatten_of_mem hmem).length_le
      have := hline t.toList
      rw [List.length_cons] at hmore
      rw [List.length_append]
      omega

lemma members_block {α β : Type} {p : Reader α} {f : β → String} {g : β → α} {l : List β}
    {o close : Char} {depth : Nat} {opening closing : String} (hopening : opening.toList = [o])
    (hclosing : closing.toList = [close]) (hclose : isSpace close = false) (hcomma : close ≠ ',')
    (hstart : ∀ e ∈ l, ∃ c t, (f e).toList = c :: t ∧ isSpace c = false ∧ c ≠ close)
    (hp : ∀ e ∈ l, ∀ w s, Blank w → Ends s → p (w ++ ((f e).toList ++ s)) = some (g e, s)) :
    ∃ t, (block opening closing depth (l.map f)).toList = o :: t ∧
      ∀ s, members p close (t ++ s) = some (l.map g, s) := by
  cases l with
  | nil =>
    refine ⟨[close], ?_, fun s => ?_⟩
    · rw [List.map_nil, block, List.isEmpty_nil, if_pos rfl, String.toList_append, hopening, hclosing]
      rfl
    · have hword : word [close] () (close :: s) = some ((), s) := word_append [close] s ()
      rw [members, List.singleton_append, skip_of_not hclose, hword]
      rfl
  | cons b l =>
    refine ⟨_, by rw [List.map_cons, toList_block, hopening, List.singleton_append], fun s => ?_⟩
    have hline : line depth closing.toList ++ s = line depth (close :: s) := by
      rw [hclosing]
      simp [line]
    rw [List.flatMap_map, List.append_assoc, List.append_assoc, hline, List.map_cons]
    exact members_lines (f := fun e => (f e).toList) (l := l) hclose hcomma
      (hstart b List.mem_cons_self) hp

def ReadBack (j : Json) : Prop := ∀ {depth n : Nat} {w s : List Char},
  (pretty depth j).toList.length ≤ n → Blank w → Ends s →
    value n (w ++ ((pretty depth j).toList ++ s)) = some (j, s)

lemma readBack_scalar {j : Json} {t : String} (ht : ∀ depth, pretty depth j = t)
    (hstart : ∃ c t', t.toList = c :: t' ∧ isSpace c = false ∧ c ≠ '[' ∧ c ≠ '\x7b')
    (hj : ∀ s, Ends s → scalar (t.toList ++ s) = some (j, s)) : ReadBack j := by
  intro depth n w s _ hw hs
  obtain ⟨c, t', hc, hspace, hlist, hobject⟩ := hstart
  have hscalar := hj s hs
  rw [hc, List.cons_append] at hscalar
  rw [ht, hc, List.cons_append, value_of_scalar hw hspace hlist hobject, hscalar]

lemma value_list {n : Nat} (hw : Blank w) : value (n + 1) (w ++ '[' :: r) =
    (members (value n) ']' r).map fun x => (list x.1, x.2) := by
  rw [value, skip_blank hw, skip_of_not rfl]
  rfl

lemma exists_bound {depth n : Nat} {j : Json} (hn : (pretty depth j).toList.length ≤ n) :
    ∃ m, n = m + 1 := by
  obtain ⟨c, t, ht, -⟩ := starts_pretty depth j
  rw [ht] at hn
  exact Nat.exists_eq_add_one.2 (Nat.lt_of_lt_of_le (Nat.succ_pos _) hn)

lemma readBack_list {items : List Json} (h : ∀ v ∈ items, ReadBack v) : ReadBack (list items) := by
  intro depth n w s hn hw _
  obtain ⟨n, rfl⟩ := exists_bound hn
  rw [pretty, prettyItems_eq_map] at hn ⊢
  have hp : ∀ v ∈ items, ∀ w s, Blank w → Ends s →
      value n (w ++ ((pretty (depth + 2) v).toList ++ s)) = some (v, s) := by
    intro v hv w s hw hs
    have hlt : (pretty (depth + 2) v).toList.length <
        (block "[" "]" depth (items.map (pretty (depth + 2)))).toList.length :=
      length_lt_block (List.mem_map_of_mem hv)
    exact h v hv (Nat.le_of_lt_succ (lt_of_lt_of_le hlt hn)) hw hs
  have hstart : ∀ v ∈ items, ∃ c t, (pretty (depth + 2) v).toList = c :: t ∧ isSpace c = false ∧
      c ≠ ']' := fun v _ =>
    let ⟨c, t, ht, hc, hlist, _⟩ := starts_pretty (depth + 2) v
    ⟨c, t, ht, hc, hlist⟩
  have hopening : "[".toList = ['['] := rfl
  have hclosing : "]".toList = [']'] := rfl
  obtain ⟨t, ht, hmembers⟩ := members_block (g := id) hopening hclosing rfl (by decide) hstart hp
  rw [ht, List.cons_append, value_list hw, hmembers, List.map_id]
  rfl

def entry (n : Nat) : Reader (Option String × Json) :=
  both (fun s => string (skip s)) (both (fun s => word [':'] () (skip s)) (value n) fun _ v => v)
    Prod.mk

lemma value_object {n : Nat} (hw : Blank w) : value (n + 1) (w ++ '\x7b' :: r) =
    (members (entry n) '\x7d' r).map fun x => (ofMembers? x.1, x.2) := by
  rw [value, skip_blank hw, skip_of_not rfl]
  rfl

lemma entry_pretty {depth n : Nat} {k : String} {v : Json} (hv : ReadBack v)
    (hn : (pretty depth v).toList.length ≤ n) (hw : Blank w) (hs : Ends s) :
    entry n (w ++ ((quoted k ++ ": " ++ pretty depth v).toList ++ s)) = some ((some k, v), s) := by
  have htext : w ++ ((quoted k ++ ": " ++ pretty depth v).toList ++ s) =
      w ++ ((quoted k).toList ++ ':' :: ([' '] ++ ((pretty depth v).toList ++ s))) := by
    simp only [String.toList_append, List.append_assoc]
    rfl
  have hskip : ∀ r, skip (w ++ ((quoted k).toList ++ r)) = (quoted k).toList ++ r := fun r => by
    rw [skip_blank hw, quoted, String.toList_ofList]
    rfl
  have hcolon : ∀ r, word [':'] () (skip (':' :: r)) = some ((), r) := fun r =>
    word_append [':'] r ()
  have hvalue := hv hn (List.forall_mem_singleton.2 rfl : Blank [' ']) hs
  rw [htext, entry, both, hskip, string_quoted]
  simp only [both, hcolon, hvalue]

lemma ofMembers?_map (l : List (String × Json)) :
    ofMembers? (l.map fun e => (some e.1, e.2)) = object l := by
  have hall : (l.map fun e => (some e.1, e.2)).mapM (fun e => e.1.map (·, e.2)) = some l := by
    rw [List.mapM_map]
    exact (List.mapM_pure (m := Option)).trans (congrArg some (List.map_id _))
  rw [ofMembers?, hall]

lemma readBack_object {l : List (String × Json)} (h : ∀ e ∈ l, ReadBack e.2) :
    ReadBack (object l) := by
  intro depth n w s hn hw _
  obtain ⟨n, rfl⟩ := exists_bound hn
  rw [pretty, prettyMembers_eq_map] at hn ⊢
  have hp : ∀ e ∈ l, ∀ w s, Blank w → Ends s →
      entry n (w ++ ((quoted e.1 ++ ": " ++ pretty (depth + 2) e.2).toList ++ s)) =
        some ((some e.1, e.2), s) := by
    intro e he w s hw hs
    have hlt : (quoted e.1 ++ ": " ++ pretty (depth + 2) e.2).toList.length <
        (block "\x7b" "\x7d" depth
          (l.map fun e => quoted e.1 ++ ": " ++ pretty (depth + 2) e.2)).toList.length :=
      length_lt_block (List.mem_map_of_mem (f := fun e : String × Json => _) he)
    have hpart : (pretty (depth + 2) e.2).toList.length ≤
        (quoted e.1 ++ ": " ++ pretty (depth + 2) e.2).toList.length := by
      rw [String.toList_append, List.length_append]
      exact Nat.le_add_left _ _
    exact entry_pretty (h e he) (by omega) hw hs
  have hstart : ∀ e ∈ l, ∃ c t, (quoted e.1 ++ ": " ++ pretty (depth + 2) e.2).toList = c :: t ∧
      isSpace c = false ∧ c ≠ '\x7d' := by
    intro e _
    obtain ⟨c, t, ht, hc, -, hobject⟩ := starts_quoted e.1
    rw [String.toList_append, String.toList_append, ht]
    exact ⟨c, _, rfl, hc, hobject⟩
  have hopening : "\x7b".toList = ['\x7b'] := rfl
  have hclosing : "\x7d".toList = ['\x7d'] := rfl
  obtain ⟨t, ht, hmembers⟩ := members_block hopening hclosing rfl (by decide) hstart hp
  rw [ht, List.cons_append, value_object hw, hmembers, Option.map_some, ofMembers?_map]

mutual

lemma readBack : ∀ {j : Json}, j.Written → ReadBack j
  | null, _ => readBack_scalar (fun _ => by rw [pretty]) ⟨'n', _, rfl, rfl, by decide, by decide⟩
    fun _ _ => rfl
  | bool true, _ => readBack_scalar (fun _ => by rw [pretty])
    ⟨'t', _, rfl, rfl, by decide, by decide⟩ fun _ _ => rfl
  | bool false, _ => readBack_scalar (fun _ => by rw [pretty])
    ⟨'f', _, rfl, rfl, by decide, by decide⟩ fun _ _ => rfl
  | int n, _ => by
    obtain ⟨c, t, ht, hc⟩ := exists_head_int n
    obtain ⟨_, _, ht', hspace, -⟩ := starts_int n
    obtain ⟨rfl, rfl⟩ := List.cons.inj (ht.symm.trans ht')
    exact readBack_scalar (fun _ => by rw [pretty])
      ⟨c, t, ht, hspace, ne_of_head hc (by decide) rfl, ne_of_head hc (by decide) rfl⟩
      fun _ hs => scalar_int n hs
  | str t, _ => readBack_scalar (t := quoted t) (fun _ => by rw [pretty])
    ⟨'"', _, String.toList_ofList, rfl, by decide, by decide⟩ fun _ _ => scalar_quoted t
  | list items, h => readBack_list (readBack_items h)
  | object members, h => readBack_object (readBack_members h)

lemma readBack_items : ∀ {l : List Json}, WrittenItems l → ∀ v ∈ l, ReadBack v
  | [], _ => List.forall_mem_nil _
  | _ :: _, ⟨hv, hl⟩ => List.forall_mem_cons.2 ⟨readBack hv, readBack_items hl⟩

lemma readBack_members : ∀ {l : List (String × Json)}, WrittenMembers l → ∀ e ∈ l, ReadBack e.2
  | [], _ => List.forall_mem_nil _
  | (_, _) :: _, ⟨hv, hl⟩ => List.forall_mem_cons.2 ⟨readBack hv, readBack_members hl⟩

end

end Values

lemma ofText?_text {j : Json} (hj : j.Written) : ofText? j.text = some j := by
  have hread : value j.text.length ([] ++ (j.text.toList ++ [])) = some (j, []) :=
    readBack hj (le_of_eq String.length_toList) nofun nofun
  rw [List.nil_append, List.append_nil] at hread
  rw [ofText?, hread]
  rfl

end Json

end ColouredPetri
