import CallWatch.CommandLine.Arguments
import CallWatch.Log.Kept
import CallWatch.Log.Setup
import CallWatch.Scenario

/-! # The program

What each command does with the files, the environment and the kept log that it finds: what it
prints, the failure it ends with, and the log as it leaves it. -/

namespace CallWatch.CommandLine

open Wire

/-- What the program finds. -/
structure Site where
  environment : Variables
  /-- The file at a path. -/
  file : String → FileContent
  /-- The log that is kept at a path, unless it cannot be opened. -/
  log : String → Option Log.Sink
  /-- The time of what is logged. -/
  timestamp : String

/-- What the program leaves. -/
structure Outcome where
  code : Nat
  output : List String
  failure : Option String
  /-- The log that was opened, where it is kept and as it is now. -/
  log : Option (String × Log.Sink)

namespace Site

/-- The home directory. -/
def home (s : Site) : Option String := s.environment.lookup "HOME"

end Site

namespace Outcome

/-- The program did what it was asked to. -/
def done (output : List String) (log : Option (String × Log.Sink)) : Outcome :=
  ⟨0, output, none, log⟩

/-- The program failed. -/
def failed (message : String) (output : List String) (log : Option (String × Log.Sink)) :
    Outcome := ⟨1, output, some ("Error: " ++ message), log⟩

end Outcome

/-! ### Usage -/

/-- The name and the version of the program. -/
def versionText : String := "callkeep 0.1.0"

/-- How the program is used. -/
def helpText : Option CommandName → List String
  | none =>
    ["Call-service lifecycle orchestrator", "",
      "Usage: callkeep [OPTIONS] <COMMAND>", "",
      "Commands:",
      "  run             Replay a JSON scenario and print host reactions as JSON lines",
      "  check-settings  Print the effective settings",
      "  logs            Print persisted warnings and errors as JSON lines, newest first",
      "  help            Print this message or the help of the given subcommand(s)", "",
      "Options:",
      "      --settings <SETTINGS>  Settings file. Defaults to `~/.callkeep/settings.json`",
      "  -h, --help                 Print help",
      "  -V, --version              Print version"]
  | some .run =>
    ["Replay a JSON scenario and print host reactions as JSON lines", "",
      "Usage: callkeep run [OPTIONS] --scenario <SCENARIO>", "",
      "Options:",
      "      --scenario <SCENARIO>  ",
      "      --settings <SETTINGS>  Settings file. Defaults to `~/.callkeep/settings.json`",
      "  -h, --help                 Print help"]
  | some .checkSettings =>
    ["Print the effective settings", "",
      "Usage: callkeep check-settings [OPTIONS]", "",
      "Options:",
      "      --settings <SETTINGS>  Settings file. Defaults to `~/.callkeep/settings.json`",
      "  -h, --help                 Print help"]
  | some .logs =>
    ["Print persisted warnings and errors as JSON lines, newest first", "",
      "Usage: callkeep logs [OPTIONS]", "",
      "Options:",
      "      --user-id <USER_ID>                  ",
      "      --conversation-id <CONVERSATION_ID>  ",
      "      --level <LEVEL>                      ",
      "      --limit <LIMIT>                      [default: 50]",
      "      --settings <SETTINGS>                Settings file. Defaults to `~/.callkeep/settings.json`",
      "  -h, --help                               Print help"]

/-- What the program leaves when its arguments ask for no command. -/
def Usage.outcome : Usage → Outcome
  | .help command => .done (helpText command) none
  | .version => .done [versionText] none
  | _ => ⟨2, [], none, none⟩

/-! ### Commands -/

/-- A scenario is run, its lines printed and its warnings kept. -/
def runScenario (site : Site) (settings : Settings) (path : String) : Outcome :=
  let setup := Log.Setup.ofSettings settings.logging site.home
  let filter := setup.filter site.environment
  let sink := if setup.keepsWarnings then site.log setup.path else none
  let kept (events : List Log.Event) : Option (String × Log.Sink) :=
    sink.map fun s => (setup.path, s.keepAll site.timestamp (events.filterMap filter.apply))
  match site.file path with
  | .text s =>
    match decodeText Scenario.decode s with
    | .error _ => .failed ("parsing scenario " ++ path) [] (kept [])
    | .ok scenario =>
      let (m, unknown) := scenario.run settings.orchestrator.engineConfig
      let lines := m.told.map fun t => (Scenario.line t).compact
      match unknown with
      | none => .done lines (kept m.journal)
      | some user => .failed (Scenario.unknownAccount user) lines (kept m.journal)
  | _ => .failed ("reading scenario " ++ path) [] (kept [])

/-- The kept warnings that are asked for are printed. -/
def printLogs (site : Site) (settings : Settings) (query : Log.Query) : Outcome :=
  let setup := Log.Setup.ofSettings settings.logging site.home
  match site.log setup.path with
  | none => .failed "log database could not be opened" [] none
  | some sink =>
    .done ((sink.query query).map fun r => r.toJson.compact) (some (setup.path, sink))

/-- The lines of a text. -/
def lines (s : String) : List String := (s.toList.splitOn '\n').map String.ofList

/-- A log at such a place is forgotten when the program ends. -/
def isFleeting (path : String) : Bool := path = "" || path = ":memory:"

namespace Arguments

/-- The settings file that is to be used. -/
def settingsFile (a : Arguments) (home : Option String) : String :=
  a.settings.getD (settingsPath home)

/-- The files that the program reads. -/
def files (a : Arguments) (home : Option String) : List String :=
  a.settingsFile home :: match a.command with
    | .run scenario => [scenario]
    | _ => []

/-- The place of the log that settings ask for. -/
def logFile (s : Settings) (home : Option String) : String :=
  (Log.Setup.ofSettings s.logging home).path

end Arguments

/-- The program does what its arguments ask for. -/
def Arguments.perform (a : Arguments) (site : Site) : Outcome :=
  let path := a.settingsFile site.home
  match Settings.load (site.file path) site.environment with
  | .error _ => .failed ("loading settings from " ++ path) [] none
  | .ok settings =>
    match a.command with
    | .checkSettings => .done (lines settings.toJson.pretty) none
    | .run scenario => runScenario site settings scenario
    | .logs userId conversationId level limit =>
      printLogs site settings ⟨level, none, userId, conversationId, none, some limit⟩

/-- The program, from its arguments to what it leaves. -/
def perform (args : List String) (site : Site) : Outcome :=
  match Arguments.read args with
  | .error usage => usage.outcome
  | .ok a => a.perform site

end CallWatch.CommandLine
