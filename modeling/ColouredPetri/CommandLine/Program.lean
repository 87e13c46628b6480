import ColouredPetri.CommandLine.Options
import ColouredPetri.Description.Storage
import ColouredPetri.StateGraph.Summary
import ColouredPetri.Text.Quoted

/-!
The program: it explores the state graph of a net in a file, tells the number of its states, and
writes a drawing and a summary of it on demand.
-/

namespace ColouredPetri

inductive Failure where
  | commandLine
  | settingsUnreadable (path : String)
  | settingsMalformed (path : String)
  | noNet
  | netUnloadable (path : String)
  | graphUnfinished
  | drawingUnwritten (path : String)
  | summaryUnwritten (path : String)
  deriving DecidableEq, Inhabited

namespace Failure

def message : Failure → String
  | commandLine => "Failed to parse command line"
  | settingsUnreadable path => "Failed to read config file: " ++ Text.quotedFully path
  | settingsMalformed path => "Failed to parse config file: " ++ Text.quotedFully path
  | noNet => "no net given, usage: pn <NET> [OPTIONS]"
  | netUnloadable path => "Failed to load net: " ++ Text.quotedFully path
  | graphUnfinished => "Failed to build the state graph"
  | drawingUnwritten path => "Failed to write DOT file: " ++ Text.quotedFully path
  | summaryUnwritten path => "Failed to write summary: " ++ Text.quotedFully path

end Failure

structure Report where
  output : String
  failure? : Option Failure
  deriving DecidableEq, Inhabited

def Report.exitCode (r : Report) : Nat := if r.failure?.isSome then 1 else 0

def Report.errorLine? (r : Report) : Option String := r.failure?.map ("Error: " ++ ·.message)

namespace Options

/-- The options of the command line over those of the environment. The options that take the place of
an unreadable text name no configuration file, where those of an empty text name the default. -/
def ofRun? (environment : Option String) (words : List String) : Option Options :=
  (ofWords? words).map (((ofText? (environment.getD "")).getD {}).merge ·)

end Options

namespace Program

variable {m : Type → Type} [Monad m]

def line (g : StateGraph) : String :=
  let s := g.stats
  g.net.name ++ ": " ++ toString s.stateCount ++ " states, " ++ toString s.edgeCount ++
    " edges, " ++ toString s.deadlockCount ++ " deadlocks" ++
    (if s.truncated then " (truncated)" else "") ++ "\n"

def loadSettings (fs : FileAccess m) (path : String) : ExceptT Failure m Settings := do
  if ← fs.exist path then
    match ← fs.read? path with
    | none => throw (.settingsUnreadable path)
    | some text =>
      match Settings.ofText? text with
      | none => throw (.settingsMalformed path)
      | some s => return s
  else return {}

def loadNet (fs : FileAccess m) (path : Option String) : ExceptT Failure m Net := do
  match path with
  | none => throw .noNet
  | some path =>
    match ← (Net.load fs path : m (Except LoadError Net)) with
    | .error _ => throw (.netUnloadable path)
    | .ok net => return net

def explored (net : Net) (config : ExploreConfig) : Except Error StateGraph :=
  match StateGraph.build (StateGraph.ofNet net config) with
  | .ok _ g => .ok g
  | .error e _ => .error e

def loadGraph (fs : FileAccess m) (o : Options) : ExceptT Failure m (StateGraph × Settings) := do
  let settings := o.apply (← loadSettings fs o.config)
  let net ← loadNet fs o.net
  match explored net settings.exploreConfig with
  | .error _ => throw .graphUnfinished
  | .ok g => return (g, settings)

def writeDrawing (fs : FileAccess m) (g : StateGraph) (s : Settings) : ExceptT Failure m Unit := do
  match s.dotFile with
  | none => return
  | some path =>
    let written : Bool ← (fs.writeDeep path (g.dot s.labelledEdges) : m Bool)
    if !written then throw (.drawingUnwritten path)

def writeSummary (fs : FileAccess m) (g : StateGraph) (f : Format) (s : Settings) :
    ExceptT Failure m Unit := do
  match s.summaryFile with
  | none => return
  | some path =>
    let written : Bool ← (fs.writeAny path (f.write? g.summary.doc) : m Bool)
    if !written then throw (.summaryUnwritten path)

def writeAll (fs : FileAccess m) (g : StateGraph) (f : Format) (s : Settings) :
    ExceptT Failure m Unit := do
  writeDrawing fs g s
  writeSummary fs g f s

/-- A run with options; what is to be printed is known before anything is written. -/
def runWith (fs : FileAccess m) (o : Options) : m Report := do
  match ← (loadGraph fs o).run with
  | .error f => return ⟨"", some f⟩
  | .ok (g, settings) =>
    match ← (writeAll fs g o.format settings).run with
    | .error f => return ⟨line g, some f⟩
    | .ok _ => return ⟨line g, none⟩

def run (fs : FileAccess m) (environment : Option String) (words : List String) : m Report :=
  match Options.ofRun? environment words with
  | none => return ⟨"", some .commandLine⟩
  | some o => runWith fs o

end Program

end ColouredPetri
