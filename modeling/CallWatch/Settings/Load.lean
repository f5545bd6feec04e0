import CallWatch.Settings.Basic
import CallWatch.Settings.Merge
import CallWatch.Text.Letters

/-! # Loading settings

Settings come in three layers: the defaults, a file whose members are merged over the written form
of the defaults, and variables of the environment, each of which replaces its own field if its value
is acceptable. What comes out must lie within the bounds. -/

namespace CallWatch

open Wire

/-! ### Places -/

/-- A path below another. A separator is added unless the upper path is empty or ends in one. -/
def joinPath (above below : String) : String :=
  if above.isEmpty || above.toList.getLast? == some '/' then above ++ below
  else above ++ "/" ++ below

/-- The directory of the settings, below the home directory or else below the one for scratch
files. -/
def settingsDirectory (home : Option String) : String := joinPath (home.getD "/tmp") ".callkeep"

/-- Where the settings are looked for. -/
def settingsPath (home : Option String) : String :=
  joinPath (settingsDirectory home) "settings.json"

/-- Where the log is kept unless the settings name a place. -/
def defaultLogPath (home : Option String) : String := joinPath (settingsDirectory home) "logs.db"

/-! ### The environment -/

/-- The variables of an environment, the first of a name counting. -/
abbrev Variables := List (String × String)

/-- A truth value in words: true, yes, on or 1; false, no, off or 0; in either case. -/
def readFlag? (s : String) : Option Bool :=
  let s := Text.lower s
  if s ∈ ["true", "1", "yes", "on"] then some true
  else if s ∈ ["false", "0", "no", "off"] then some false
  else none

namespace Variables

/-- The value of a variable that is not empty. -/
def text? (env : Variables) (name : String) : Option String :=
  (env.lookup name).filter fun v => !v.isEmpty

/-- The value of a variable that is a truth value. -/
def flag? (env : Variables) (name : String) : Option Bool := (env.lookup name).bind readFlag?

/-- The value of a variable that is a number within the bounds. -/
def number? (env : Variables) (name : String) (min max : Nat) : Option Nat :=
  (env.lookup name).bind (Text.readWithin? min max)

end Variables

/-- The tuning with the variables of the environment over it. -/
def OrchestratorSettings.override (s : OrchestratorSettings) (env : Variables) :
    OrchestratorSettings where
  queueCapacity :=
    (env.number? "CALLKEEP_QUEUE_CAPACITY" 1 maxQueueCapacity).getD s.queueCapacity
  stopDebounceMs :=
    (env.number? "CALLKEEP_STOP_DEBOUNCE_MS" 0 maxStopDebounceMs).getD s.stopDebounceMs
  bindAnswerToPipeline :=
    (env.flag? "CALLKEEP_BIND_ANSWER_TO_PIPELINE").getD s.bindAnswerToPipeline

/-- The logging with the variables of the environment over it. A path also turns the log on. -/
def LoggingSettings.override (s : LoggingSettings) (env : Variables) : LoggingSettings where
  level := (env.text? "CALLKEEP_LOG_LEVEL").getD s.level
  modules := s.modules
  json := (env.flag? "CALLKEEP_LOG_JSON").getD s.json
  persistWarnings := (env.text? "CALLKEEP_LOG_DB").isSome || s.persistWarnings
  logDbPath := env.text? "CALLKEEP_LOG_DB" <|> s.logDbPath

/-- The settings with the variables of the environment over them. -/
def Settings.override (s : Settings) (env : Variables) : Settings :=
  ⟨s.orchestrator.override env, s.logging.override env⟩

/-! ### Loading -/

/-- What is found at a path. -/
inductive FileContent where
  | absent
  | unreadable
  | text (s : String)
  deriving DecidableEq, Repr

/-- Why settings were not loaded. -/
inductive SettingsError where
  | unreadable
  | refused (why : Refusal)
  | invalid (fault : SettingsFault)
  deriving DecidableEq, Repr

namespace Settings

/-- The defaults with a file's value merged over them. -/
def layer (file : Json) : Option Settings :=
  decode .whole (Json.merge file.distinct (default : Settings).toJson)

/-- The defaults with a file merged over them. -/
def ofFile : FileContent → Except SettingsError Settings
  | .absent => .ok default
  | .unreadable => .error .unreadable
  | .text s =>
    match Json.parse? s with
    | none => .error (.refused .notJson)
    | some j =>
      match layer j with
      | none => .error (.refused .wrongShape)
      | some settings => .ok settings

/-- The settings that a file and an environment give. -/
def load (file : FileContent) (env : Variables) : Except SettingsError Settings := do
  let s := (← ofFile file).override env
  match s.fault? with
  | some fault => .error (.invalid fault)
  | none => return s

end Settings

end CallWatch
