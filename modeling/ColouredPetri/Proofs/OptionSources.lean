import ColouredPetri.CommandLine.Program
import Mathlib.Tactic.Common

namespace ColouredPetri

namespace Options

open CommandLine

structure Given where
  net : Option String := none
  config : Option String := none
  stateLimit : Option Nat := none
  dot : Option String := none
  json : Option String := none
  parallel : Bool := false
  format : Option Format := none

def given (args : List Argument) : Given where
  net := netOf? args
  config := valueOf? .config args
  stateLimit := (valueOf? .stateLimit args).bind count?
  dot := valueOf? .dot args
  json := valueOf? .json args
  parallel := args.contains .parallel
  format := (valueOf? .format args).bind formatNamed?

def Given.over (first second : Given) : Options where
  net := first.net.or second.net
  config := (first.config.or second.config).getD defaultConfig
  stateLimit := first.stateLimit.or second.stateLimit
  dot := first.dot.or second.dot
  json := first.json.or second.json
  parallel := first.parallel || second.parallel
  format := (first.format.or second.format).getD .json

def flags (environment : Option String) : List Argument :=
  (((words? (environment.getD "")).bind arguments?).filter fun args =>
    (ofArguments? args).isSome).getD []

def Readable (environment : Option String) : Prop := (ofText? (environment.getD "")).isSome

instance (environment : Option String) : Decidable (Readable environment) :=
  inferInstanceAs (Decidable (_ = true))

def Unnamed (config : String) : Prop := config = "" ∨ Path.same config defaultConfig = true

instance (config : String) : Decidable (Unnamed config) := inferInstanceAs (Decidable (_ ∨ _))

variable {args : List Argument} {o : Options} {words : List String} {environment : Option String}

lemma bind_eq_of_optional? {α : Type} {read? : String → Option α} {x : Option String}
    {y : Option α} (h : optional? read? x = some y) : x.bind read? = y := by
  cases x with
  | none => exact Option.some.inj h
  | some s =>
    obtain ⟨a, ha, rfl⟩ := Option.map_eq_some_iff.1 h
    exact ha

lemma ofArguments?_eq_some (h : ofArguments? args = some o) : o = (given args).over {} := by
  rw [ofArguments?] at h
  split at h
  · obtain ⟨limit, hlimit, h⟩ := Option.bind_eq_some_iff.1 h
    obtain ⟨format, hformat, h⟩ := Option.bind_eq_some_iff.1 h
    cases h
    simp [Given.over, given, bind_eq_of_optional? hlimit, bind_eq_of_optional? hformat]
  · cases h

lemma ofText?_eq (line : String) :
    ofText? line = ((words? line).bind arguments?).bind ofArguments? :=
  (Option.bind_assoc _ _ _).symm

lemma flags_eq_nil (h : ¬ Readable environment) : flags environment = [] := by
  rw [Readable, Bool.not_eq_true, Option.isSome_eq_false_iff, Option.isNone_iff_eq_none,
    ofText?_eq] at h
  rw [flags]
  cases hargs : (words? (environment.getD "")).bind arguments? with
  | none => rfl
  | some args =>
    rw [hargs, Option.bind_some] at h
    simp [Option.filter, h]

lemma ofArguments?_flags (h : ofText? (environment.getD "") = some o) :
    ofArguments? (flags environment) = some o := by
  rw [ofText?_eq] at h
  obtain ⟨args, hargs, ho⟩ := Option.bind_eq_some_iff.1 h
  rw [flags, hargs]
  simp [Option.filter, ho]

/-- The settings file that stands in the environment. If its text cannot be read not even the default
is left. -/
def inherited (environment : Option String) : String :=
  if Readable environment then (given (flags environment)).config.getD defaultConfig else ""

lemma environment_options (environment : Option String) :
    (ofText? (environment.getD "")).getD {} =
      { (given (flags environment)).over {} with config := inherited environment } := by
  cases htext : ofText? (environment.getD "") with
  | none =>
    have hunread : ¬ Readable environment := by simp [Readable, htext]
    rw [flags_eq_nil hunread, inherited, if_neg hunread]
    rfl
  | some e =>
    have hread : Readable environment := by simp [Readable, htext]
    rw [Option.getD_some, ofArguments?_eq_some (ofArguments?_flags htext), inherited, if_pos hread]
    simp [Given.over]

/-- What merging makes of two sources. A settings file and a format that are given with their defaults
count as not given. -/
def Given.merged (first second : Given) (config : String) : Options :=
  { first.over second with
    config := if Unnamed (first.config.getD defaultConfig) then config
      else first.config.getD defaultConfig
    format := if first.format = some .ron then .ron else second.format.getD .json }

lemma merge_over (first second : Given) (config : String) :
    merge { second.over {} with config := config } (first.over {}) =
      first.merged second config := by
  have hformat : ∀ f : Option Format, (if f.getD .json = .json then second.format.getD .json
      else f.getD .json) = if f = some .ron then .ron else second.format.getD .json := by
    rintro (_ | _ | _) <;> rfl
  rw [merge, Given.merged, Options.mk.injEq]
  simp only [Given.over, Option.or_none, Bool.or_false]
  refine ⟨trivial, if_congr ?_ rfl rfl, trivial, trivial, trivial, Bool.or_comm _ _, hformat _⟩
  rw [Unnamed, Bool.or_eq_true, decide_eq_true_eq]

def FirstCounts (config : Option String) (environment : Option String) : Prop :=
  match config with
  | none => Readable environment
  | some s => ¬ Unnamed s ∨ s = inherited environment

lemma unnamed_default : Unnamed defaultConfig := .inr (by decide)

lemma config_eq_iff {config : Option String} :
    (if Unnamed (config.getD defaultConfig) then inherited environment
      else config.getD defaultConfig) =
        (config.or (given (flags environment)).config).getD defaultConfig ↔
      FirstCounts config environment := by
  cases config with
  | none =>
    rw [Option.getD_none, if_pos unnamed_default, Option.none_or, FirstCounts, inherited]
    by_cases hread : Readable environment
    · simp [hread]
    · rw [if_neg hread, flags_eq_nil hread]
      exact iff_of_false (by decide) hread
  | some s =>
    rw [Option.getD_some, Option.some_or, Option.getD_some, FirstCounts]
    by_cases hs : Unnamed s
    · simp [hs, eq_comm]
    · simp [hs]

lemma format_eq_iff {first second : Option Format} :
    (if first = some .ron then .ron else second.getD .json) = (first.or second).getD .json ↔
      ¬ (first = some .json ∧ second = some .ron) := by
  rcases first with _ | _ | _ <;> rcases second with _ | _ | _ <;> decide

/-- The options of a run whose command line can be read. Each is the one given on the command line,
else the one given in the environment, else its default, with two exceptions: a settings file that is
given empty or with its default goes for none, as does a format that is given with its default, and
the default settings file is lost with an environment that cannot be read. -/
theorem run_options (environment : Option String) (words : List String) (args : List Argument)
    (p : Options) (hargs : arguments? words = some args) (hp : ofArguments? args = some p) :
    ∃ o, ofRun? environment words = some o ∧
      o = (given args).merged (given (flags environment)) (inherited environment) ∧
      (o = (given args).over (given (flags environment)) ↔
        FirstCounts (given args).config environment ∧
          ¬ ((given args).format = some .json ∧
            (given (flags environment)).format = some .ron)) ∧
      (¬ Readable environment → ∃ q, ofRun? none words = some q ∧
        o = { q with config := if Unnamed q.config then "" else q.config }) := by
  have hrun : ∀ environment, ofRun? environment words =
      some ((given args).merged (given (flags environment)) (inherited environment)) :=
    fun environment => by
      rw [ofRun?, ofWords?, hargs, Option.bind_some, hp, Option.map_some, environment_options,
        ofArguments?_eq_some hp, merge_over]
  refine ⟨_, hrun environment, rfl, ?_, fun hunread => ⟨_, hrun none, ?_⟩⟩
  · rw [← config_eq_iff, ← format_eq_iff, Given.merged, Options.mk.injEq]
    simp [Given.over]
  · have hnone : flags none = [] := by decide
    have hinherited : inherited none = defaultConfig := by decide
    rw [flags_eq_nil hunread, hnone, inherited, if_neg hunread, hinherited, Given.merged,
      Given.merged]
    by_cases hs : Unnamed ((given args).config.getD defaultConfig)
    · simp [hs, unnamed_default]
    · simp [hs]

theorem run_options_overridden :
    arguments? ["net.ron", "-l", "3"] = some [.net "net.ron", .value .stateLimit "3"] ∧
      ofRun? (some "--parallel -l 10 -c custom.toml") ["net.ron", "-l", "3"] =
        some { net := some "net.ron", config := "custom.toml", stateLimit := some 3,
               parallel := true } := by
  have hargs : arguments? ["net.ron", "-l", "3"] =
      some [.net "net.ron", .value .stateLimit "3"] := by decide +kernel
  have hp : ofArguments? [.net "net.ron", .value .stateLimit "3"] =
      some { net := some "net.ron", config := "pn.toml", stateLimit := some 3 } := by decide +kernel
  obtain ⟨o, hrun, -, hfirst, -⟩ :=
    run_options (some "--parallel -l 10 -c custom.toml") _ _ _ hargs hp
  refine ⟨hargs, hrun.trans (congrArg some ((hfirst.2 ⟨?_, ?_⟩).trans ?_))⟩
  · exact (by decide +kernel : Readable (some "--parallel -l 10 -c custom.toml"))
  · decide +kernel
  · decide +kernel

theorem defaults_given_in_vain :
    arguments? ["-c", "pn.toml", "--format", "json"] =
        some [.value .config "pn.toml", .value .format "json"] ∧
      ofRun? (some "-c a.toml --format ron") ["-c", "pn.toml", "--format", "json"] =
        some { config := "a.toml", format := .ron } ∧
      (given [.value .config "pn.toml", .value .format "json"]).over
          (given (flags (some "-c a.toml --format ron"))) =
        { config := "pn.toml", format := .json } ∧
      ofRun? (some "--bogus") [] = some { config := "" } ∧
      ofRun? (some "") [] = some { config := "pn.toml" } := by
  refine ⟨?_, ?_, ?_, ?_, ?_⟩ <;> decide +kernel

end Options

end ColouredPetri
