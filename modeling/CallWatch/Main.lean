import CallWatch.CommandLine.Program
import Std.Time.DateTime.PlainDateTime
import Std.Time.DateTime.Timestamp
import Std.Time.Zoned.TimeZone

/-! # The program on a real machine

What the program finds is read before it runs: the environment, the files that its arguments name,
and the kept log. What it leaves is written afterwards. -/

namespace CallWatch.CommandLine

/-- The variables of the environment that have a meaning. -/
def variableNames : List String :=
  ["HOME", "RUST_LOG", "CALLKEEP_QUEUE_CAPACITY", "CALLKEEP_STOP_DEBOUNCE_MS",
    "CALLKEEP_BIND_ANSWER_TO_PIPELINE", "CALLKEEP_LOG_LEVEL", "CALLKEEP_LOG_JSON",
    "CALLKEEP_LOG_DB"]

/-- The variables that are set. -/
def readVariables : IO Variables :=
  variableNames.filterMapM fun name => do
    return (← IO.getEnv name).map fun value => (name, value)

/-- What is found at a path. -/
def readContent (path : String) : IO FileContent := do
  try
    let bytes ← IO.FS.readBinFile path
    return match String.fromUTF8? bytes with
      | some s => .text s
      | none => .unreadable
  catch
    | .noFileOrDirectory .. => return .absent
    | _ => return .unreadable

/-- The log at a path, empty if there is none yet, unless something else is there. -/
def readLog (path : String) : IO (Option Log.Sink) := do
  if isFleeting path then return some .empty
  match ← readContent path with
  | .absent => return some .empty
  | .unreadable => return none
  | .text s => return Log.Sink.ofText? s

/-- The directory of a path, if it names one. -/
def directoryOf (path : String) : Option String :=
  match (path.splitOn "/").dropLast with
  | [] => none
  | parts =>
    let directory := "/".intercalate parts
    if directory.isEmpty then none else some directory

/-- A log is written to its place. -/
def writeLog (path : String) (sink : Log.Sink) : IO Unit := do
  if isFleeting path then return
  try
    match directoryOf path with
    | some directory => IO.FS.createDirAll directory
    | none => pure ()
    IO.FS.writeFile path sink.toText
  catch _ => IO.eprintln ("the log could not be written to " ++ path)

/-- A number in decimal digits, with zeros in front up to this width. -/
def padded (width : Nat) (n : Int) : String :=
  let ds := n.toNat.repr
  "".pushn '0' (width - ds.length) ++ ds

/-- The time now, in the universal time zone. -/
def readClock : IO String := do
  let t ← Std.Time.Timestamp.now
  let d := Std.Time.PlainDateTime.ofWallTime (.ofTimestamp t .zero)
  return padded 4 d.year ++ "-" ++ padded 2 d.month.val ++ "-" ++ padded 2 d.day.val ++ "T"
    ++ padded 2 d.hour.val ++ ":" ++ padded 2 d.minute.val ++ ":" ++ padded 2 d.second.val ++ "."
    ++ padded 9 d.nanosecond.val ++ "+00:00"

/-- What the program finds when it is started with these arguments. -/
def readSite (args : List String) : IO Site := do
  let environment ← readVariables
  let home := environment.lookup "HOME"
  let timestamp ← readClock
  let nothing : Site := ⟨environment, fun _ => .absent, fun _ => none, timestamp⟩
  match Arguments.read args with
  | .error _ => return nothing
  | .ok a =>
    let files ← (a.files home).mapM fun path => return (path, ← readContent path)
    let site := { nothing with file := fun path => (files.lookup path).getD .absent }
    match Settings.load (site.file (a.settingsFile home)) environment with
    | .error _ => return site
    | .ok settings =>
      let path := Arguments.logFile settings home
      let sink ← readLog path
      return { site with log := fun p => if p = path then sink else none }

/-- What the program leaves is printed and written. -/
def writeOutcome (o : Outcome) : IO UInt32 := do
  for line in o.output do IO.println line
  match o.failure with
  | some message => IO.eprintln message
  | none => pure ()
  match o.log with
  | some (path, sink) => writeLog path sink
  | none => pure ()
  return o.code.toUInt32

end CallWatch.CommandLine

open CallWatch.CommandLine in
/-- The program reads what it finds, does what its arguments ask for, and writes what it leaves. -/
def main (args : List String) : IO UInt32 := do
  let site ← readSite args
  writeOutcome (perform args site)
