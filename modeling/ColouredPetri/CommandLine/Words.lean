import ColouredPetri.Text.Classes
import ColouredPetri.Text.Reader

/-!
Words of a command line. A word ends at a blank outside of quotes; pieces that touch make one word.
-/

namespace ColouredPetri.CommandLine

open Text Text.Reader

def isPlain (c : Char) : Bool := !(isBlank c || c == '\\' || c == '\'' || c == '"')

def isMeta (c : Char) : Bool := c == '$' || c == '\x60' || c == '"' || c == '\\'

def doubleQuotedChar : Reader (List Char)
  | '"' :: _ => none
  | ['\\'] => none
  | '\\' :: '\n' :: _ => none
  | '\\' :: c :: r => some (if isMeta c then [c] else ['\\', c], r)
  | c :: r => some ([c], r)
  | [] => none

def singleQuoted : Reader (List Char)
  | '\'' :: s =>
    match s.dropWhile (· != '\'') with
    | _ :: r => some (s.takeWhile (· != '\''), r)
    | [] => none
  | _ => none

def doubleQuoted : Reader (List Char)
  | '"' :: s =>
    match many doubleQuotedChar s with
    | (cs, '"' :: r) => some (cs.flatten, r)
    | _ => none
  | _ => none

def escaped : Reader (List Char)
  | '\\' :: '\n' :: r => some (['\\'], '\n' :: r)
  | '\\' :: c :: r => some ([c], r)
  | ['\\'] => some (['\\'], [])
  | _ => none

def plain (s : List Char) : Option (List Char × List Char) :=
  match s.takeWhile isPlain with
  | [] => none
  | cs => some (cs, s.dropWhile isPlain)

def piece : Reader (List Char) :=
  orElse plain <| orElse singleQuoted <| orElse doubleQuoted escaped

def oneWord (s : List Char) : Option (String × List Char) :=
  match many piece (s.dropWhile isBlank) with
  | ([], _) => none
  | (ps, r) => some (String.ofList ps.flatten, r)

def words? (line : String) : Option (List String) :=
  match many oneWord line.toList with
  | (ws, r) => if r.all isBlank then some ws else none

end ColouredPetri.CommandLine
