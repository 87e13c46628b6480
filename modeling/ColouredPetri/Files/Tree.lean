import ColouredPetri.Files.Access
import ColouredPetri.Files.Path

namespace ColouredPetri

structure FileTree where
  files : List (List String × String)
  directories : List (List String)
  deriving DecidableEq, Inhabited

namespace FileTree

def isDirectory (t : FileTree) (path : List String) : Bool :=
  path.isEmpty || t.directories.contains path

def isFile (t : FileTree) (path : List String) : Bool := (t.files.lookup path).isSome

def isName (name : String) : Bool := !name.contains '\x00' && name.utf8ByteSize ≤ 255

def enter (t : FileTree) (directory : List String) (name : String) : Option (List String) :=
  if !t.isDirectory directory || !isName name then none
  else if name == "." then some directory
  else if name == ".." then if directory.isEmpty then none else some directory.dropLast
  else some (directory ++ [name])

def resolve? (t : FileTree) (path : String) : Option (List String) :=
  if path == "" || Path.isAbsolute path then none else (Path.names path).foldlM t.enter []

def exist (t : FileTree) (path : String) : Bool :=
  match t.resolve? path with
  | none => false
  | some p => t.isDirectory p || (t.isFile p && !Path.isDirectoryLike path)

def read? (t : FileTree) (path : String) : Option String :=
  match t.resolve? path with
  | none => none
  | some p => if Path.isDirectoryLike path then none else t.files.lookup p

def setFile (t : FileTree) (path : List String) (text : String) : FileTree :=
  if t.isFile path then
    { t with files := t.files.map fun e => if e.1 == path then (path, text) else e }
  else { t with files := t.files ++ [(path, text)] }

def write (t : FileTree) (path text : String) : Option FileTree :=
  match t.resolve? path with
  | none => none
  | some p =>
    if Path.isDirectoryLike path || t.isDirectory p || !t.isDirectory p.dropLast then none
    else some (t.setFile p text)

def makeDirectory (t : FileTree) (path : List String) : Option FileTree :=
  if t.isFile path then none
  else if t.isDirectory path then some t
  else some { t with directories := t.directories ++ [path] }

def makeAlong (t : FileTree) (directory : List String) : List String → Option FileTree
  | [] => some t
  | n :: l => do
    let next ← t.enter directory n
    (← t.makeDirectory next).makeAlong next l

def makeParents (t : FileTree) (path : String) : Option FileTree :=
  if path == "" then some t
  else if Path.isAbsolute path then none
  else t.makeAlong [] (Path.components path).dropLast

def ofFiles (files : List (String × String)) : FileTree :=
  files.foldl
    (fun t e =>
      let p := Path.components e.1
      let t := (t.makeParents e.1).getD t
      t.setFile p e.2)
    ⟨[], []⟩

def access : FileAccess (StateM FileTree) where
  exist path := return (← get).exist path
  read? path := return (← get).read? path
  write path text := do
    match (← get).write path text with
    | none => return false
    | some t =>
      set t
      return true
  makeParents path := do
    match (← get).makeParents path with
    | none => return false
    | some t =>
      set t
      return true

def changes (before after : FileTree) : List (String × String) :=
  (after.files.filter fun e => before.files.lookup e.1 != some e.2).map fun e =>
    ("/".intercalate e.1, e.2)

end FileTree

end ColouredPetri
