import ColouredPetri.Value
import Mathlib.Order.Monotone.Basic
import Mathlib.Tactic.SplitIfs

/-! The order of texts. Texts are in order by their characters, and this is the order of the bytes of
their UTF-8 encodings. -/

namespace ColouredPetri

namespace Text

section Comparisons

lemma compareOfLessAndEq_map {α β : Type} [LT α] [DecidableLT α] [DecidableEq α] [LT β]
    [DecidableLT β] [DecidableEq β] {f : α → β} {a b : α} (hlt : a < b ↔ f a < f b)
    (heq : a = b ↔ f a = f b) : compareOfLessAndEq a b = compareOfLessAndEq (f a) (f b) := by
  simp only [compareOfLessAndEq, hlt, heq]

lemma compare_char (c d : Char) : compare c d = compare c.toNat d.toNat :=
  compareOfLessAndEq_map Iff.rfl Char.toNat_inj.symm

lemma compare_byte (a b : UInt8) : compare a b = compare a.toNat b.toNat :=
  compareOfLessAndEq_map UInt8.lt_iff_toNat_lt UInt8.toNat_inj.symm

lemma compare_add_right (a b n : Nat) : compare (a + n) (b + n) = compare a b :=
  (compareOfLessAndEq_map (f := (· + n)) (by omega) (by omega)).symm

lemma compare_mod_of_div_eq {a b n : Nat} (h : a / n = b / n) :
    compare (a % n) (b % n) = compare a b := by
  calc compare (a % n) (b % n)
      = compare (a % n + n * (a / n)) (b % n + n * (a / n)) := (compare_add_right ..).symm
    _ = compare a b := by rw [Nat.mod_add_div, h, Nat.mod_add_div]

lemma compare_then_of_mono {f : Nat → Nat} (hf : Monotone f) {a b : Nat} {o p : Ordering}
    (h : f a = f b → o = (compare a b).then p) :
    (compare (f a) (f b)).then o = (compare a b).then p := by
  rcases Nat.lt_trichotomy (f a) (f b) with hlt | heq | hgt
  · rw [Nat.compare_eq_lt.2 hlt, Nat.compare_eq_lt.2 (hf.reflect_lt hlt)]
    rfl
  · rw [Nat.compare_eq_eq.2 heq, ← h heq]
    rfl
  · rw [Nat.compare_eq_gt.2 hgt, Nat.compare_eq_gt.2 (hf.reflect_lt hgt)]
    rfl

lemma compare_div_then_mod (a b n : Nat) :
    (compare (a / n) (b / n)).then (compare (a % n) (b % n)) = compare a b := by
  have hmono : Monotone fun a => a / n := fun _ _ h => Nat.div_le_div_right h
  rw [← Ordering.then_eq (o := compare a b)]
  refine compare_then_of_mono hmono fun h => ?_
  rw [compare_mod_of_div_eq h, Ordering.then_eq]

lemma compareLex_map {α β : Type} [Ord α] [Ord β] {f : α → β}
    (hf : ∀ a b, compare (f a) (f b) = compare a b) (l m : List α) :
    List.compareLex compare (l.map f) (m.map f) = List.compareLex compare l m := by
  induction l generalizing m with
  | nil => cases m <;> rfl
  | cons a l ih =>
    cases m with
    | nil => rfl
    | cons b m =>
      rw [List.map_cons, List.map_cons, List.compareLex_cons_cons, List.compareLex_cons_cons, hf, ih]

lemma compare_chars (l m : List Char) :
    compareOfLessAndEq l m = List.compareLex compare l m := by
  induction l generalizing m with
  | nil => cases m <;> rfl
  | cons c l ih =>
    cases m with
    | nil => rfl
    | cons d m =>
      rw [List.compareLex_cons_cons, ← ih]
      change compareOfLessAndEq (c :: l) (d :: m) = (compareOfLessAndEq c d).then _
      simp only [compareOfLessAndEq, List.cons_lt_cons_iff, List.cons.injEq]
      by_cases hlt : c < d
      · simp [hlt]
      · by_cases heq : c = d <;> simp [hlt, heq]

lemma compare_string (s t : String) : compare s t = List.compareLex compare s.toList t.toList := by
  rw [← compare_chars]
  exact compareOfLessAndEq_map Iff.rfl String.toList_inj.symm

end Comparisons

section Bytes

def lead (v : Nat) : Nat :=
  if v ≤ 0x7f then v
  else if v ≤ 0x7ff then v / 64 + 0xc0
  else if v ≤ 0xffff then v / 64 / 64 + 0xe0
  else v / 64 / 64 / 64 + 0xf0

def trail (v : Nat) : List Nat :=
  if v ≤ 0x7f then []
  else if v ≤ 0x7ff then [v % 64 + 0x80]
  else if v ≤ 0xffff then [v / 64 % 64 + 0x80, v % 64 + 0x80]
  else [v / 64 / 64 % 64 + 0x80, v / 64 % 64 + 0x80, v % 64 + 0x80]

lemma map_toNat_encode (c : Char) :
    (String.utf8EncodeChar c).map UInt8.toNat = lead c.toNat :: trail c.toNat := by
  have hc : c.val.toNat < 0x110000 := by
    rcases c.valid with h | h <;> omega
  change (String.utf8EncodeChar c).map UInt8.toNat = lead c.val.toNat :: trail c.val.toNat
  simp only [String.utf8EncodeChar, lead, trail]
  split_ifs <;>
    simp only [List.map_cons, List.map_nil, UInt8.toNat_ofNat', List.cons.injEq, and_true] <;> omega

lemma lead_mono : Monotone lead := by
  intro v w h
  unfold lead
  split_ifs <;> omega

lemma compareLex_trail {v w : Nat} (h : lead v = lead w) (l m : List Nat) :
    List.compareLex compare (trail v ++ l) (trail w ++ m) =
      (compare v w).then (List.compareLex compare l m) := by
  -- code points with one first byte have equally many bytes, whose bits are their digits
  have hsize : (v ≤ 0x7f ↔ w ≤ 0x7f) ∧ (v ≤ 0x7ff ↔ w ≤ 0x7ff) ∧ (v ≤ 0xffff ↔ w ≤ 0xffff) := by
    unfold lead at h
    split_ifs at h <;> omega
  simp only [lead, trail, ← hsize.1, ← hsize.2.1, ← hsize.2.2] at h ⊢
  split_ifs at h ⊢
  · rw [Nat.compare_eq_eq.2 h]
    rfl
  · have hq : v / 64 = w / 64 := by omega
    simp only [List.cons_append, List.nil_append, List.compareLex_cons_cons, compare_add_right,
      compare_mod_of_div_eq hq]
  · have hq : v / 64 / 64 = w / 64 / 64 := by omega
    simp only [List.cons_append, List.nil_append, List.compareLex_cons_cons, compare_add_right,
      compare_mod_of_div_eq hq, ← Ordering.then_assoc, compare_div_then_mod]
  · have hq : v / 64 / 64 / 64 = w / 64 / 64 / 64 := by omega
    simp only [List.cons_append, List.nil_append, List.compareLex_cons_cons, compare_add_right,
      compare_mod_of_div_eq hq, ← Ordering.then_assoc, compare_div_then_mod]

lemma compareLex_units (v w : Nat) (l m : List Nat) :
    List.compareLex compare (lead v :: trail v ++ l) (lead w :: trail w ++ m) =
      (compare v w).then (List.compareLex compare l m) := by
  rw [List.cons_append, List.cons_append, List.compareLex_cons_cons]
  exact compare_then_of_mono lead_mono fun h => compareLex_trail h l m

lemma compareLex_encode (c d : Char) (l m : List UInt8) :
    List.compareLex compare (String.utf8EncodeChar c ++ l) (String.utf8EncodeChar d ++ m) =
      (compare c d).then (List.compareLex compare l m) := by
  have hbyte : ∀ a b : UInt8, compare a.toNat b.toNat = compare a b := fun a b =>
    (compare_byte a b).symm
  rw [← compareLex_map hbyte, List.map_append, List.map_append, map_toNat_encode,
    map_toNat_encode, compareLex_units, compareLex_map hbyte, compare_char]

lemma compareLex_flatMap_encode (l m : List Char) :
    List.compareLex compare (l.flatMap String.utf8EncodeChar) (m.flatMap String.utf8EncodeChar) =
      List.compareLex compare l m := by
  induction l generalizing m with
  | nil =>
    cases m with
    | nil => rfl
    | cons d m =>
      obtain ⟨a, r, hd⟩ := List.exists_cons_of_ne_nil (String.utf8EncodeChar_ne_nil (c := d))
      rw [List.flatMap_cons, hd]
      rfl
  | cons c l ih =>
    cases m with
    | nil =>
      obtain ⟨a, r, hc⟩ := List.exists_cons_of_ne_nil (String.utf8EncodeChar_ne_nil (c := c))
      rw [List.flatMap_cons, hc]
      rfl
    | cons d m =>
      rw [List.flatMap_cons, List.flatMap_cons, compareLex_encode, ih, List.compareLex_cons_cons]

def bytes (s : String) : List UInt8 := s.toByteArray.data.toList

lemma bytes_eq_flatMap (s : String) : bytes s = s.toList.flatMap String.utf8EncodeChar := by
  rw [bytes, ← String.utf8Encode_toList, List.utf8Encode, List.toList_data_toByteArray]

lemma compare_eq_bytes (s t : String) :
    compare s t = List.compareLex compare (bytes s) (bytes t) := by
  rw [compare_string, bytes_eq_flatMap, bytes_eq_flatMap, compareLex_flatMap_encode]

end Bytes

end Text

end ColouredPetri
