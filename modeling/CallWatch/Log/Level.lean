import CallWatch.Text.Blank
import CallWatch.Text.Letters
import CallWatch.Text.Numeral

/-! # Levels of log events -/

namespace CallWatch.Log

/-- How much an event matters, the gravest first. -/
inductive Level where
  | error
  | warn
  | info
  | debug
  | trace
  deriving DecidableEq, Repr, Inhabited

namespace Level

/-- Every level, the gravest first. -/
def all : List Level := [.error, .warn, .info, .debug, .trace]

/-- The name of a level. -/
def name : Level → String
  | .error => "ERROR"
  | .warn => "WARN"
  | .info => "INFO"
  | .debug => "DEBUG"
  | .trace => "TRACE"

/-- The place of a level, from one for the gravest. -/
def rank : Level → Nat
  | .error => 1
  | .warn => 2
  | .info => 3
  | .debug => 4
  | .trace => 5

/-- At least as grave as another level. -/
def within (a b : Level) : Bool := a.rank ≤ b.rank

/-- A level by its place or its name, in either case. -/
def ofText? (s : String) : Option Level :=
  match Text.readNumeral? s with
  | some n => all.find? fun l => l.rank == n
  | none => all.find? fun l => Text.sameLetters l.name s

/-- A level by its place or its name, with white space around it. -/
def read? (s : String) : Option Level := ofText? (Text.trim s)

/-- Grave enough to be kept: warnings and errors. -/
def isKept (l : Level) : Bool := l.within .warn

end Level

end CallWatch.Log
