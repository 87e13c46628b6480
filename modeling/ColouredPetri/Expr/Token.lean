import ColouredPetri.Error
import ColouredPetri.Table

/-!
The tokens of an expression's text. The text is cut into pieces, each a run of blanks with the
token after it, and nothing is lost: `lexeme_append` and `skipBlanks_append` give the text back.
Names are found and replaced on the pieces.
-/

namespace ColouredPetri

def keywords : List String := ["and", "or", "not", "True", "False", "true", "false", "dot"]

inductive TokenKind where
  | name
  | number
  | text
  | symbol
  deriving DecidableEq, Inhabited

def TokenKind.word : TokenKind → String
  | name => "Name"
  | number => "Number"
  | text => "Text"
  | symbol => "Symbol"

structure Token where
  kind : TokenKind
  text : String
  start : Nat
  deriving DecidableEq, Inhabited

namespace Token

def stop (t : Token) : Nat := t.start + t.text.utf8ByteSize

def isVariable (t : Token) : Bool := t.kind == .name && !keywords.contains t.text

end Token

namespace Lexer

def isSpace (c : Char) : Bool := c == ' ' || c == '\t' || c == '\r' || c == '\n'

def isNameStart (c : Char) : Bool := c.isAlpha || c == '_'

def isNameChar (c : Char) : Bool := c.isAlphanum || c == '_'

def blanks (s : List Char) : List Char := s.takeWhile isSpace

def skipBlanks (s : List Char) : List Char := s.dropWhile isSpace

def identifier? : List Char → Option (List Char × List Char)
  | [] => none
  | c :: r => if isNameStart c then some (c :: r.takeWhile isNameChar, r.dropWhile isNameChar)
    else none

def digits? : List Char → Option (List Char × List Char)
  | [] => none
  | c :: r => if c.isDigit then some (c :: r.takeWhile Char.isDigit, r.dropWhile Char.isDigit)
    else none

def isQuote (c : Char) : Bool := c == '\'' || c == '"'

/-- The text between two quotes of one kind; nothing inside is an escape. -/
def quoted? : List Char → Option (List Char × List Char)
  | [] => none
  | q :: r =>
    if isQuote q then
      match r.dropWhile (· != q) with
      | [] => none
      | _ :: rest => some (r.takeWhile (· != q), rest)
    else none

def pairSymbols : List (List Char) :=
  [['=', '='], ['!', '='], ['<', '='], ['>', '='], ['/', '/']]

def isSymbolChar (c : Char) : Bool := "+-*/%<>(),".toList.contains c

def symbol? : List Char → Option (List Char × List Char)
  | [] => none
  | [c] => if isSymbolChar c then some ([c], []) else none
  | c :: d :: r =>
    if pairSymbols.contains [c, d] then some ([c, d], r)
    else if isSymbolChar c then some ([c], d :: r)
    else none

def lexeme (s : List Char) : Option (TokenKind × List Char × List Char) :=
  match identifier? s with
  | some (t, r) => some (.name, t, r)
  | none =>
    match digits? s with
    | some (t, r) => some (.number, t, r)
    | none =>
      match quoted? s with
      | some (t, r) =>
        let q := s.take 1
        some (.text, q ++ t ++ q, r)
      | none =>
        match symbol? s with
        | some (t, r) => some (.symbol, t, r)
        | none => none

theorem skipBlanks_append (s : List Char) : blanks s ++ skipBlanks s = s :=
  List.takeWhile_append_dropWhile

theorem identifier?_append {s t r : List Char} (h : identifier? s = some (t, r)) :
    t ≠ [] ∧ t ++ r = s := by
  cases s with
  | nil => simp [identifier?] at h
  | cons c s =>
    rw [identifier?] at h
    split at h
    · obtain ⟨rfl, rfl⟩ := h
      simp
    · cases h

theorem digits?_append {s t r : List Char} (h : digits? s = some (t, r)) :
    t ≠ [] ∧ t ++ r = s := by
  cases s with
  | nil => simp [digits?] at h
  | cons c s =>
    rw [digits?] at h
    split at h
    · obtain ⟨rfl, rfl⟩ := h
      simp
    · cases h

theorem head_dropWhile {p : Char → Bool} {l r : List Char} {c : Char}
    (h : l.dropWhile p = c :: r) : p c = false := by
  induction l with
  | nil => cases h
  | cons d l ih =>
    rw [List.dropWhile_cons] at h
    split at h
    · exact ih h
    · next hd =>
      cases h
      simpa using hd

theorem quoted?_append {s t r : List Char} (h : quoted? s = some (t, r)) :
    s.take 1 ≠ [] ∧ s.take 1 ++ t ++ s.take 1 ++ r = s := by
  cases s with
  | nil => simp [quoted?] at h
  | cons q s =>
    rw [quoted?] at h
    split at h
    · split at h
      · cases h
      · next d rest hd =>
        obtain ⟨rfl, rfl⟩ := h
        have hq : d = q := by simpa using head_dropWhile hd
        have hs := List.takeWhile_append_dropWhile (p := (· != q)) (l := s)
        rw [hd, hq] at hs
        simp [hs]
    · cases h

theorem symbol?_append {s t r : List Char} (h : symbol? s = some (t, r)) :
    t ≠ [] ∧ t ++ r = s := by
  match s with
  | [] => simp [symbol?] at h
  | [c] =>
    rw [symbol?] at h
    split at h
    · cases h
      simp
    · cases h
  | c :: d :: s =>
    rw [symbol?] at h
    split at h
    · cases h
      simp
    · split at h
      · cases h
        simp
      · cases h

theorem lexeme_append {s t r : List Char} {k : TokenKind} (h : lexeme s = some (k, t, r)) :
    t ≠ [] ∧ t ++ r = s := by
  unfold lexeme at h
  split at h
  · next hi =>
    cases h
    exact identifier?_append hi
  · split at h
    · next hd =>
      cases h
      exact digits?_append hd
    · split at h
      · next hq =>
        cases h
        obtain ⟨hs, hq⟩ := quoted?_append hq
        exact ⟨by simp [hs], hq⟩
      · split at h
        · next hy =>
          cases h
          exact symbol?_append hy
        · cases h

theorem length_lt_of_lexeme {s t r : List Char} {k : TokenKind}
    (h : lexeme (skipBlanks s) = some (k, t, r)) : r.length < s.length := by
  obtain ⟨ht, hs⟩ := lexeme_append h
  have h₁ := congrArg List.length hs
  have h₂ := congrArg List.length (skipBlanks_append s)
  have h₃ := List.length_pos_iff.2 ht
  simp only [List.length_append] at h₁ h₂
  omega

structure Piece where
  blanks : List Char
  kind : TokenKind
  text : List Char
  deriving DecidableEq, Inhabited

namespace Piece

def chars (p : Piece) : List Char := p.blanks ++ p.text

def isVariable (p : Piece) : Bool :=
  p.kind == .name && !keywords.contains (String.ofList p.text)

def rename (f : String → String) (p : Piece) : Piece :=
  if p.isVariable then { p with text := (f (String.ofList p.text)).toList } else p

end Piece

def pieces? (s : List Char) : Option (List Piece × List Char) :=
  if skipBlanks s = [] then some ([], s)
  else
    match _h : lexeme (skipBlanks s) with
    | none => none
    | some (k, t, r) =>
      match pieces? r with
      | none => none
      | some (ps, e) => some (⟨blanks s, k, t⟩ :: ps, e)
termination_by s.length
decreasing_by exact length_lt_of_lexeme _h

def chars (ps : List Piece) : List Char := ps.flatMap Piece.chars

def tokens (start : Nat) : List Piece → List Token
  | [] => []
  | p :: ps =>
    let first := start + (String.ofList p.blanks).utf8ByteSize
    let token : Token := ⟨p.kind, String.ofList p.text, first⟩
    token :: tokens token.stop ps

end Lexer

def tokenize (source : String) : Except EvalError (List Token) :=
  match Lexer.pieces? source.toList with
  | none => .error (.malformed source)
  | some (ps, _) => .ok (Lexer.tokens 0 ps)

def freeNames (source : String) : Except EvalError (KeySet String) :=
  match tokenize source with
  | .error e => .error e
  | .ok ts => .ok (KeySet.ofList ((ts.filter Token.isVariable).map Token.text))

def renameNames (source : String) (f : String → String) : Except EvalError String :=
  match Lexer.pieces? source.toList with
  | none => .error (.malformed source)
  | some (ps, e) => .ok (String.ofList (Lexer.chars (ps.map (Lexer.Piece.rename f)) ++ e))

end ColouredPetri
