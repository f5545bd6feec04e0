import CallWatch.Log.Sink
import CallWatch.Settings.Load

/-! # What is logged

The logging that settings ask for: the levels that can be read, and where warnings are kept. -/

namespace CallWatch.Log

/-- What is logged and where warnings are kept. -/
structure Setup where
  level : Level
  modules : List (String × Level)
  json : Bool
  keepsWarnings : Bool
  path : String
  deriving DecidableEq, Repr

namespace Setup

/-- The level where none can be read. -/
def defaultLevel : Level := .info

/-- What settings ask for. A level that cannot be read is the default one, a module with such a
level is left out. -/
def ofSettings (s : LoggingSettings) (home : Option String) : Setup where
  level := (Level.read? s.level).getD defaultLevel
  modules := s.modules.filterMap fun m => (Level.read? m.2).map fun level => (m.1, level)
  json := s.json
  keepsWarnings := s.persistWarnings
  path := s.logDbPath.getD (defaultLogPath home)

/-- Which events pass: those of the environment's directives if they can all be read, and otherwise
those of the directives for the levels. -/
def filter (s : Setup) (env : Variables) : Filter :=
  ((env.lookup "RUST_LOG").bind Filter.read?).getD (.readAny (Filter.levelsText s.level s.modules))

end Setup

end CallWatch.Log
