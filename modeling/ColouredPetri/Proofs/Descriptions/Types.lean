import ColouredPetri.Proofs.Nets.Built
import ColouredPetri.Proofs.Restrictions

namespace ColouredPetri

namespace TokenType

def described (t : TokenType) : TokenType := (t.spec?.getD .any).build

def Listed (s : TypeSpec) : Prop := ∀ l, s = .oneOf l → ∃ values : KeySet Value, l = values.keys

mutual

lemma listed_of_spec? : ∀ {t : TokenType} {s : TypeSpec}, t.spec? = some s → Listed s
  | .any, _, h => by
    cases h
    exact nofun
  | .kind _, _, h => by
    cases h
    exact nofun
  | .oneOf values, _, h => by
    cases h
    rintro l ⟨⟩
    exact ⟨values, rfl⟩
  | .predicate _ _, _, h => by cases h
  | .union _, _, h => listed_of_unionSpec? h

lemma listed_of_unionSpec? : ∀ {l : List TokenType} {values : KeySet Value} {s : TypeSpec},
    unionSpec? l values = some s → Listed s
  | [], values, _, h => by
    cases h
    rintro l ⟨⟩
    exact ⟨values, rfl⟩
  | t :: l, _, _, h => by
    rw [unionSpec?] at h
    split at h
    · cases h
    · cases h
      exact nofun
    · exact listed_of_unionSpec? h
    · cases h

end

lemma spec?_build {s : TypeSpec} (h : Listed s) : s.build.spec? = some s := by
  cases s with
  | any => rfl
  | kind k => rfl
  | oneOf l =>
    obtain ⟨values, rfl⟩ := h l rfl
    rw [TypeSpec.build, KeySet.ofList_keys, spec?]

lemma spec?_described (t : TokenType) : t.described.spec? = some (t.spec?.getD .any) := by
  rw [described]
  cases h : t.spec? with
  | none => rfl
  | some s => exact spec?_build (listed_of_spec? h)

lemma contains_ofList {l : List Value} {v : Value} :
    (KeySet.ofList l).contains v = true ↔ v ∈ l := by
  rw [Table.contains_iff, KeySet.mem_keys_ofList]

mutual

lemma accepts_build : ∀ {t : TokenType} {s : TypeSpec} (v : Value), t.spec? = some s →
    (accepts v s.build = true ↔ accepts v t = true)
  | .any, _, _, h => by
    cases h
    rfl
  | .kind _, _, _, h => by
    cases h
    rfl
  | .oneOf values, _, v, h => by
    cases h
    rw [TypeSpec.build, KeySet.ofList_keys]
  | .predicate _ _, _, _, h => by cases h
  | .union l, _, v, h => by
    rw [accepts_unionBuild v h, accepts]
    exact or_iff_right fun h => nomatch h

lemma accepts_unionBuild : ∀ {l : List TokenType} {values : KeySet Value} {s : TypeSpec}
    (v : Value), unionSpec? l values = some s →
      (accepts v s.build = true ↔ values.contains v = true ∨ someAccepts v l = true)
  | [], values, _, v, h => by
    cases h
    rw [TypeSpec.build, KeySet.ofList_keys, accepts]
    exact (or_iff_left fun h => nomatch h).symm
  | t :: l, values, s, v, h => by
    rw [unionSpec?] at h
    rw [someAccepts, Bool.or_eq_true]
    split at h
    · cases h
    · next hs =>
      cases h
      exact iff_of_true rfl (.inr (.inl (accepts_of_spec? v hs)))
    · next more hs =>
      have hmore : accepts v t = true ↔ v ∈ more := by
        rw [← accepts_build v hs, TypeSpec.build, accepts, contains_ofList]
      rw [accepts_unionBuild v h, hmore, Table.contains_iff, Table.contains_iff,
        KeySet.mem_keys_foldl_add, or_assoc]
    · cases h

end

lemma accepts_described {t : TokenType} (h : t.spec? ≠ none) (v : Value) :
    accepts v t.described = accepts v t := by
  obtain ⟨s, hs⟩ := Option.ne_none_iff_exists'.1 h
  rw [described, hs]
  exact Bool.eq_iff_iff.2 (accepts_build v hs)

lemma accepts_described_of_accepts {t : TokenType} {v : Value} (h : accepts v t = true) :
    accepts v t.described = true := by
  by_cases hs : t.spec? = none
  · rw [described, hs]
    rfl
  · rw [accepts_described hs, h]

end TokenType

end ColouredPetri
