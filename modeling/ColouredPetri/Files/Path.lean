/-!
Paths of files: names between slashes. Dots that stand for the directory itself do not count,
except at the front, and neither do repeated or trailing slashes.
-/

namespace ColouredPetri

namespace Path

def split : List Char → List (List Char)
  | [] => [[]]
  | '/' :: r => [] :: split r
  | c :: r =>
    match split r with
    | [] => [[c]]
    | w :: l => (c :: w) :: l

def isAbsolute (path : String) : Bool := path.toList.head? == some '/'

def names (path : String) : List String :=
  ((split path.toList).map String.ofList).filter (· != "")

def components (path : String) : List String :=
  match names path with
  | [] => []
  | n :: l =>
    let rest := l.filter (· != ".")
    if n == "." && isAbsolute path then rest else n :: rest

def same (p q : String) : Bool :=
  isAbsolute p == isAbsolute q && components p == components q

def fileName? (path : String) : Option String :=
  match (components path).getLast? with
  | some "." => none
  | some ".." => none
  | x => x

def parent (path : String) : String :=
  (if isAbsolute path then "/" else "") ++ "/".intercalate (components path).dropLast

def extension? (path : String) : Option String :=
  match fileName? path with
  | none => none
  | some name =>
    let back := name.toList.reverse.takeWhile (· != '.')
    if back.length + 1 ≥ name.length then none else some (String.ofList back.reverse)

def isDirectoryLike (path : String) : Bool :=
  path.toList.getLast? == some '/' ||
    match (names path).getLast? with
    | some n => n == "." || n == ".."
    | none => true

end Path

end ColouredPetri
