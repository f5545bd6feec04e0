import CallWatch.Json.Printer
import CallWatch.Keyed
import CallWatch.Wire.Shape

/-! # Settings

How the service is tuned and what it logs, with the defaults, the written form and the bounds that
a usable setting respects. A record of settings may leave out every field. -/

namespace CallWatch

open Wire

/-- How actions are buffered and decisions are held back. -/
structure OrchestratorSettings where
  /-- Buffered actions before the oldest is dropped. -/
  queueCapacity : Nat
  /-- Milliseconds for which a stop must stay current before it is shown. -/
  stopDebounceMs : Nat
  /-- Whether the next action gives up an answer that is still under way. -/
  bindAnswerToPipeline : Bool
  deriving DecidableEq, Repr

/-- What is logged and where it goes. -/
structure LoggingSettings where
  level : String
  /-- Levels of single targets, by name; each name comes once, in order. -/
  modules : List (String × String)
  json : Bool
  persistWarnings : Bool
  logDbPath : Option String
  deriving DecidableEq, Repr

/-- All settings. -/
structure Settings where
  orchestrator : OrchestratorSettings
  logging : LoggingSettings
  deriving DecidableEq, Repr

namespace OrchestratorSettings

instance : Inhabited OrchestratorSettings := ⟨16, 200, false⟩

/-- The largest capacity that is accepted. -/
def maxQueueCapacity : Nat := 1024

/-- The longest window that is accepted. -/
def maxStopDebounceMs : Nat := 60000

/-- The names of the fields, in their order. -/
def fieldNames : List String := ["queueCapacity", "stopDebounceMs", "bindAnswerToPipeline"]

/-- The written form: a record. -/
def toJson (s : OrchestratorSettings) : Json :=
  .object
    [("queueCapacity", .nat s.queueCapacity),
      ("stopDebounceMs", .nat s.stopDebounceMs),
      ("bindAnswerToPipeline", .bool s.bindAnswerToPipeline)]

/-- The tuning from its record. -/
def decode : Decoder OrchestratorSettings := fun r j => do
  let record ← Record.ofJson? fieldNames j
  let r := r.inside
  let base : OrchestratorSettings := default
  let queueCapacity ← record.withDefault "queueCapacity" base.queueCapacity (word64 r)
  let stopDebounceMs ← record.withDefault "stopDebounceMs" base.stopDebounceMs (word64 r)
  let bindAnswerToPipeline ←
    record.withDefault "bindAnswerToPipeline" base.bindAnswerToPipeline (flag r)
  return { queueCapacity, stopDebounceMs, bindAnswerToPipeline }

end OrchestratorSettings

namespace LoggingSettings

instance : Inhabited LoggingSettings := ⟨"info", [], false, false, none⟩

/-- The names of the fields, in their order. -/
def fieldNames : List String := ["level", "modules", "json", "persistWarnings", "logDbPath"]

/-- The levels of single targets, from an object of texts. -/
def decodeModules : Decoder (List (String × String))
  | r, .object members => do
    let levels ← members.mapM fun m => (text r.inside m.2).map fun level => (m.1, level)
    return Keyed.ofList levels
  | _, _ => none

/-- The written form of the levels of single targets. -/
def modulesJson (modules : List (String × String)) : Json :=
  .object (modules.map fun m => (m.1, .string m.2))

/-- The written form: a record without the levels if there are none, and without the path if there
is none. -/
def toJson (s : LoggingSettings) : Json :=
  .object
    ([("level", .string s.level)]
      ++ (if s.modules.isEmpty then [] else [("modules", modulesJson s.modules)])
      ++ [("json", .bool s.json), ("persistWarnings", .bool s.persistWarnings)]
      ++ (match s.logDbPath with
          | none => []
          | some path => [("logDbPath", .string path)]))

/-- The logging from its record. -/
def decode : Decoder LoggingSettings := fun r j => do
  let record ← Record.ofJson? fieldNames j
  let r := r.inside
  let base : LoggingSettings := default
  let level ← record.withDefault "level" base.level (text r)
  let modules ← record.withDefault "modules" base.modules (decodeModules r)
  let json ← record.withDefault "json" base.json (flag r)
  let persistWarnings ← record.withDefault "persistWarnings" base.persistWarnings (flag r)
  let logDbPath ← record.withDefault "logDbPath" base.logDbPath (nullable text r)
  return { level, modules, json, persistWarnings, logDbPath }

end LoggingSettings

namespace Settings

instance : Inhabited Settings := ⟨default, default⟩

/-- The written form: a record of the two sections. -/
def toJson (s : Settings) : Json :=
  .object [("orchestrator", s.orchestrator.toJson), ("logging", s.logging.toJson)]

/-- The settings from their record. -/
def decode : Decoder Settings := fun r j => do
  let record ← Record.ofJson? ["orchestrator", "logging"] j
  let r := r.inside
  let orchestrator ← record.withDefault "orchestrator" default (OrchestratorSettings.decode r)
  let logging ← record.withDefault "logging" default (LoggingSettings.decode r)
  return { orchestrator, logging }

end Settings

/-! ### Bounds -/

/-- A setting that the service cannot run with. -/
inductive SettingsFault where
  | queueCapacity (got : Nat)
  | stopDebounceMs (got : Nat)
  deriving DecidableEq, Repr

namespace SettingsFault

/-- The wording of the fault. -/
def message : SettingsFault → String
  | .queueCapacity got =>
    "invalid settings value: orchestrator.queueCapacity must be within 1..="
      ++ OrchestratorSettings.maxQueueCapacity.repr ++ ", got " ++ got.repr
  | .stopDebounceMs got =>
    "invalid settings value: orchestrator.stopDebounceMs must be at most "
      ++ OrchestratorSettings.maxStopDebounceMs.repr ++ ", got " ++ got.repr

end SettingsFault

/-- The first fault of the settings, the capacity before the window. -/
def Settings.fault? (s : Settings) : Option SettingsFault :=
  let o := s.orchestrator
  if o.queueCapacity = 0 ∨ OrchestratorSettings.maxQueueCapacity < o.queueCapacity then
    some (.queueCapacity o.queueCapacity)
  else if OrchestratorSettings.maxStopDebounceMs < o.stopDebounceMs then
    some (.stopDebounceMs o.stopDebounceMs)
  else none

theorem Settings.fault?_eq_none {s : Settings} :
    s.fault? = none ↔ 1 ≤ s.orchestrator.queueCapacity ∧ s.orchestrator.queueCapacity ≤ 1024 ∧
      s.orchestrator.stopDebounceMs ≤ 60000 := by
  unfold fault?
  by_cases hc : s.orchestrator.queueCapacity = 0 ∨
      OrchestratorSettings.maxQueueCapacity < s.orchestrator.queueCapacity
  · rw [if_pos hc]
    simp only [OrchestratorSettings.maxQueueCapacity] at hc
    simp only [reduceCtorEq, false_iff]
    omega
  · rw [if_neg hc]
    simp only [OrchestratorSettings.maxQueueCapacity] at hc
    by_cases hd : OrchestratorSettings.maxStopDebounceMs < s.orchestrator.stopDebounceMs
    · rw [if_pos hd]
      simp only [OrchestratorSettings.maxStopDebounceMs] at hd
      simp only [reduceCtorEq, false_iff]
      omega
    · rw [if_neg hd]
      simp only [OrchestratorSettings.maxStopDebounceMs] at hd
      simp only [true_iff]
      omega

end CallWatch
