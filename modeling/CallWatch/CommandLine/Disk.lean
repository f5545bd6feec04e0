import CallWatch.CommandLine.Program

/-! # Running the program more than once

The files and the kept logs that one run of the program finds and the next one finds again. Paths
are relative to a working directory, which is the home directory as well. A log that has no place of
its own is forgotten at the end of the run that opened it. -/

namespace CallWatch.CommandLine

/-- A path from the root, its parts in order. -/
abbrev Path := List String

/-- The path that a text means in a working directory. -/
def Path.ofText (directory text : String) : Path :=
  let parts := (if text.startsWith "/" then text else directory ++ "/" ++ text).splitOn "/"
  (parts.foldl (fun done part =>
    if part = "" || part = "." then done
    else if part = ".." then done.tail
    else part :: done) []).reverse

/-- Files and kept logs. -/
structure Disk where
  home : String
  files : List (Path × FileContent)
  logs : List (Path × Log.Sink)

namespace Disk

/-- A disk with these files in and below the home directory. -/
def ofFiles (home : String) (files : List (String × FileContent)) : Disk :=
  ⟨home, files.map fun f => (.ofText home f.1, f.2), []⟩

/-- Where a text points. -/
def path (d : Disk) (text : String) : Path := .ofText d.home text

/-- Everything that is no directory. -/
def entries (d : Disk) : List Path := d.files.map (·.1) ++ d.logs.map (·.1)

/-- The path is a directory: the home directory, or above something. -/
def isDirectory (d : Disk) (p : Path) : Bool :=
  p.isPrefixOf (d.path "") || d.entries.any fun q => p.isPrefixOf q && p != q

/-- The path leads through something that is no directory. -/
def isBelowFile (d : Disk) (p : Path) : Bool := d.entries.any fun q => q.isPrefixOf p && p != q

/-- The file that a text points to. Directories and logs are no texts. -/
def read (d : Disk) (text : String) : FileContent :=
  let p := d.path text
  match d.files.lookup p with
  | some content => content
  | none => if d.isDirectory p || (d.logs.lookup p).isSome then .unreadable else .absent

/-- The log that a text points to, empty if there is none yet. It cannot be opened where a directory
or a file with something else in it is. -/
def log (d : Disk) (text : String) : Option Log.Sink :=
  let p := d.path text
  if isFleeting text then some .empty
  else if d.isDirectory p || d.isBelowFile p then none
  else
    match d.files.lookup p with
    | none => some ((d.logs.lookup p).getD .empty)
    | some (.text "") => some ((d.logs.lookup p).getD .empty)
    | some _ => none

/-- A log is left behind. -/
def keep (d : Disk) (text : String) (sink : Log.Sink) : Disk :=
  if isFleeting text then d
  else
    let p := d.path text
    { d with logs := (p, sink) :: d.logs.filter (·.1 != p) }

/-- What a run of the program finds. -/
def site (d : Disk) (environment : Variables) (timestamp : String) : Site where
  environment := ("HOME", d.home) :: environment
  file := d.read
  log := d.log
  timestamp

/-- A run of the program, and the disk afterwards. -/
def perform (d : Disk) (environment : Variables) (timestamp : String) (args : List String) :
    Outcome × Disk :=
  let outcome := CommandLine.perform args (d.site environment timestamp)
  (outcome, match outcome.log with
    | some (place, sink) => d.keep place sink
    | none => d)

end Disk

end CallWatch.CommandLine
