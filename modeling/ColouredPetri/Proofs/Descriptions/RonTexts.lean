import ColouredPetri.Proofs.Descriptions.Texts

/-! Documents in RON. The text of a document is computed as a list of characters, on which it can be
checked that the text is read back as data that show the document. -/

namespace ColouredPetri

namespace Doc

def blockChars (opening closing : Char) (depth : Nat) (texts : List (List Char)) : List Char :=
  if texts.isEmpty then [opening, closing]
  else
    opening :: '\n' ::
      texts.flatMap (fun t => List.replicate (depth + 4) ' ' ++ (t ++ [',', '\n'])) ++
        List.replicate depth ' ' ++ [closing]

mutual

def ronChars (depth : Nat) : Doc → List Char
  | bool true => ['t', 'r', 'u', 'e']
  | bool false => ['f', 'a', 'l', 's', 'e']
  | int n => (toString n).toList
  | str s => Text.quotedChars true s.toList
  | list items => blockChars '[' ']' depth (ronItemChars (depth + 4) items)
  | tuple items => '(' :: [',', ' '].intercalate (ronItemChars depth items) ++ [')']
  | map members => blockChars '\x7b' '\x7d' depth (ronMemberChars (depth + 4) members)
  | record fields => blockChars '(' ')' depth (ronFieldChars (depth + 4) fields)
  | name n => n.toList
  | variant n content => n.toList ++ '(' :: ronChars depth content ++ [')']
  | variantRecord n fields =>
    n.toList ++ blockChars '(' ')' depth (ronFieldChars (depth + 4) fields)

def ronItemChars (depth : Nat) : List Doc → List (List Char)
  | [] => []
  | d :: l => ronChars depth d :: ronItemChars depth l

def ronMemberChars (depth : Nat) : List (String × Doc) → List (List Char)
  | [] => []
  | (k, d) :: l =>
    (Text.quotedChars true k.toList ++ ':' :: ' ' :: ronChars depth d) :: ronMemberChars depth l

def ronFieldChars (depth : Nat) : List (String × Doc) → List (List Char)
  | [] => []
  | (k, d) :: l => (k.toList ++ ':' :: ' ' :: ronChars depth d) :: ronFieldChars depth l

end

lemma toList_block (o c : Char) {opening closing : String} (ho : opening.toList = [o])
    (hc : closing.toList = [c]) (depth : Nat) (texts : List String) :
    (block opening closing depth texts).toList =
      blockChars o c depth (texts.map String.toList) := by
  cases texts with
  | nil => simp [block, blockChars, ho, hc]
  | cons t l => simp [block, blockChars, ho, hc, Json.indent, String.toList_join, List.flatMap_map]

mutual

lemma toList_ronAt : ∀ (d : Doc) (depth : Nat), (ronAt depth d).toList = ronChars depth d
  | bool true, _ => by simp [ronAt, ronChars]
  | bool false, _ => by simp [ronAt, ronChars]
  | int _, _ => rfl
  | str _, _ => String.toList_ofList
  | list items, depth => by
    rw [ronAt, toList_block '[' ']' rfl rfl, toList_ronItems, ronChars]
  | tuple items, depth => by
    simp only [ronAt, ronChars, String.toList_append, String.toList_intercalate, toList_ronItems]
    rfl
  | map members, depth => by
    rw [ronAt, toList_block '\x7b' '\x7d' rfl rfl, toList_ronMembers, ronChars]
  | record fields, depth => by
    rw [ronAt, toList_block '(' ')' rfl rfl, toList_ronFields, ronChars]
  | name _, _ => rfl
  | variant _ content, depth => by
    simp [ronAt, ronChars, String.toList_append, toList_ronAt content depth]
  | variantRecord _ fields, depth => by
    rw [ronAt, String.toList_append, toList_block '(' ')' rfl rfl, toList_ronFields, ronChars]

lemma toList_ronItems : ∀ (l : List Doc) (depth : Nat),
    (ronItems depth l).map String.toList = ronItemChars depth l
  | [], _ => rfl
  | d :: l, depth => by
    rw [ronItems, List.map_cons, toList_ronAt d, toList_ronItems l, ronItemChars]

lemma toList_ronMembers : ∀ (l : List (String × Doc)) (depth : Nat),
    (ronMembers depth l).map String.toList = ronMemberChars depth l
  | [], _ => rfl
  | (k, d) :: l, depth => by
    simp [ronMembers, ronMemberChars, Text.quotedFully, toList_ronAt d depth,
      toList_ronMembers l depth]

lemma toList_ronFields : ∀ (l : List (String × Doc)) (depth : Nat),
    (ronFields depth l).map String.toList = ronFieldChars depth l
  | [], _ => rfl
  | (k, d) :: l, depth => by
    simp [ronFields, ronFieldChars, toList_ronAt d depth, toList_ronFields l depth]

end

end Doc

lemma Format.restores_ron {d : Doc} (h : (Ron.ofChars? (d.ronChars 0)).any (fun x =>
    !x.1.explicitNames && (Ron.view false).shown d ⟨x.2, Ron.maxLevels⟩) = true) :
    ron.Restores (d.ronAt 0) d := by
  obtain ⟨x, hx, hshown⟩ := (Option.any_eq_true _ _).1 h
  obtain ⟨hnames, hshown⟩ := Bool.and_eq_true_iff.1 hshown
  refine ⟨x, by rw [Ron.ofText?, d.toList_ronAt, hx], ?_⟩
  rw [Bool.not_eq_true'] at hnames
  rw [hnames]
  exact View.shows_of_shown Ron.nameless_view hshown

end ColouredPetri
