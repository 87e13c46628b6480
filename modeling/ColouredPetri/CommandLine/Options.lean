import ColouredPetri.CommandLine.Words
import ColouredPetri.Description.Format
import ColouredPetri.Files.Path
import ColouredPetri.Settings

namespace ColouredPetri

namespace CommandLine

inductive ValueOption where
  | config
  | stateLimit
  | dot
  | json
  | format
  deriving DecidableEq, Inhabited

def ValueOption.ofLong? : String → Option ValueOption
  | "config" => some config
  | "state-limit" => some stateLimit
  | "dot" => some dot
  | "json" => some json
  | "format" => some format
  | _ => none

def ValueOption.ofShort? : Char → Option ValueOption
  | 'c' => some config
  | 'l' => some stateLimit
  | _ => none

inductive Argument where
  | net (path : String)
  | parallel
  | value (option : ValueOption) (text : String)
  deriving DecidableEq, Inhabited

inductive ArgumentKind where
  | net
  | parallel
  | value (option : ValueOption)
  deriving DecidableEq, Inhabited

def Argument.kind : Argument → ArgumentKind
  | net _ => .net
  | parallel => .parallel
  | value o _ => .value o

inductive WordRole where
  | complete (a : Argument)
  | opens (option : ValueOption)
  | unknown
  deriving DecidableEq, Inhabited

def longRole (name : List Char) (value : Option (List Char)) : WordRole :=
  match ValueOption.ofLong? (String.ofList name), value with
  | some o, some v => .complete (.value o (String.ofList v))
  | some o, none => .opens o
  | none, some _ => .unknown
  | none, none => if name = "parallel".toList then .complete .parallel else .unknown

def shortRole (name : Char) (value : List Char) : WordRole :=
  match ValueOption.ofShort? name, value with
  | none, _ => .unknown
  | some o, [] => .opens o
  | some o, '=' :: v => .complete (.value o (String.ofList v))
  | some o, v => .complete (.value o (String.ofList v))

def splitAtEquals (s : List Char) : List Char × Option (List Char) :=
  (s.takeWhile (· != '='), (s.dropWhile (· != '=')).tail?)

def wordRole (word : String) : WordRole :=
  match word.toList with
  | '-' :: '-' :: s =>
    let (name, value) := splitAtEquals s
    longRole name value
  | '-' :: c :: s => shortRole c s
  | _ => .complete (.net word)

def isDashed (word : String) : Bool := word.startsWith "-" && word != "-"

def arguments? : List String → Option (List Argument)
  | [] => some []
  | word :: rest =>
    if word = "--" then some (rest.map .net)
    else
      match wordRole word with
      | .unknown => none
      | .complete a => (arguments? rest).map (a :: ·)
      | .opens o =>
        match rest with
        | [] => none
        | value :: rest =>
          if isDashed value then none else (arguments? rest).map (.value o value :: ·)

def valueOf? (o : ValueOption) (args : List Argument) : Option String :=
  args.findSome? fun a =>
    match a with
    | .value o' v => if o' = o then some v else none
    | _ => none

def netOf? (args : List Argument) : Option String :=
  args.findSome? fun a =>
    match a with
    | .net path => some path
    | _ => none

def count? (text : String) : Option Nat :=
  let digits := match text.toList with
    | '+' :: ds => ds
    | ds => ds
  if digits = [] then none
  else (Text.Reader.number? 10 digits).filter (· < UInt64.size)

def formatNamed? : String → Option Format
  | "json" => some .json
  | "ron" => some .ron
  | _ => none

def optional? {α : Type} (read? : String → Option α) : Option String → Option (Option α)
  | none => some none
  | some s => (read? s).map some

end CommandLine

open CommandLine

structure Options where
  net : Option String := none
  config : String := ""
  stateLimit : Option Nat := none
  dot : Option String := none
  json : Option String := none
  parallel : Bool := false
  format : Format := .json
  deriving DecidableEq, Inhabited

namespace Options

def defaultConfig : String := "pn.toml"

def ofArguments? (args : List Argument) : Option Options :=
  if (args.map Argument.kind).Nodup then do
    let limit ← optional? count? (valueOf? .stateLimit args)
    let format ← optional? formatNamed? (valueOf? .format args)
    some {
      net := netOf? args
      config := (valueOf? .config args).getD defaultConfig
      stateLimit := limit
      dot := valueOf? .dot args
      json := valueOf? .json args
      parallel := args.contains .parallel
      format := format.getD .json }
  else none

def ofWords? (words : List String) : Option Options := (arguments? words).bind ofArguments?

def ofText? (line : String) : Option Options := (words? line).bind ofWords?

/-- What the second options say, with the first ones for what they leave at its default. -/
def merge (o p : Options) : Options where
  net := p.net.or o.net
  config := if p.config = "" || Path.same p.config defaultConfig then o.config else p.config
  stateLimit := p.stateLimit.or o.stateLimit
  dot := p.dot.or o.dot
  json := p.json.or o.json
  parallel := o.parallel || p.parallel
  format := if p.format = .json then o.format else p.format

def apply (o : Options) (s : Settings) : Settings :=
  { s with
    stateLimit := o.stateLimit.or s.stateLimit
    parallelModes := s.parallelModes || o.parallel
    dotFile := o.dot.or s.dotFile
    summaryFile := o.json.or s.summaryFile }

end Options

end ColouredPetri
