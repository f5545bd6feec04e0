import CallWatch.Log.Event
import CallWatch.Text.Word

/-! # Which events pass

A filter is a list of directives, each a level for the targets that begin with a text. Of the
directives that match a target the one with the longest text counts, of two with the same text the
later one. A target that none matches passes nothing. Spans are filtered like events.

A directive is written as a level, as a target, or as a target and a level with an equals sign between
them. -/

namespace CallWatch.Log

/-- A level for targets that begin with a text; nothing passes where there is no level. -/
structure Directive where
  target : String
  level : Option Level
  deriving DecidableEq, Repr

/-- Directives, the later ones counting before the earlier ones. -/
structure Filter where
  directives : List Directive
  deriving DecidableEq, Repr

namespace Directive

/-- Whether the directive speaks about a target. -/
def covers (d : Directive) (target : String) : Bool := d.target.toList.isPrefixOf target.toList

/-- The level that a number or a name stands for; zero and `off` are no level. -/
def readLevel? (s : String) : Option (Option Level) :=
  if Text.sameLetters s "off" || Text.readNumeral? s == some 0 then some none
  else (Level.ofText? s).map some

/-- A level as it is written in a directive: a name, or one digit. -/
def readWord? (s : String) : Option (Option Level) :=
  if (Text.readNumeral? s).isSome && s.length != 1 then none else readLevel? s

/-- Whether the character can stand in a target. -/
def isTargetChar (c : Char) : Bool := Text.isWordChar c || c == ':' || c == '-'

/-- A directive: a level for every target, or a target with its level. Everything passes where no
level is written, and a target that can be read as a level stands for every target. -/
def read? (s : String) : Option Directive :=
  match readWord? s with
  | some level => some ⟨"", level⟩
  | none =>
    let front := s.toList.takeWhile (· != '=')
    let target := if (readLevel? (String.ofList front)).isSome then "" else String.ofList front
    let level := String.ofList ((s.toList.dropWhile (· != '=')).drop 1)
    if front.isEmpty || !front.all isTargetChar then none
    else if level.isEmpty then some ⟨target, some .trace⟩
    else (readWord? level).map fun level => ⟨target, level⟩

end Directive

namespace Filter

/-- The more telling of two directives about a target. -/
def sharper (a b : Directive) : Directive :=
  if a.target.length ≤ b.target.length then b else a

/-- The directive that counts for a target. -/
def directive? (f : Filter) (target : String) : Option Directive :=
  (f.directives.filter (·.covers target)).foldl
    (fun best d => some (match best with
      | none => d
      | some b => sharper b d)) none

/-- Whether something of this level passes at this target. -/
def passes (f : Filter) (target : String) (level : Level) : Bool :=
  match (f.directive? target).bind (·.level) with
  | some max => level.within max
  | none => false

/-- The event as it gets through: not at all, or with the spans that pass. -/
def apply (f : Filter) (e : Event) : Option Event :=
  if f.passes e.target e.level then
    some { e with spans := e.spans.filter fun s => f.passes s.target s.level }
  else none

/-- A base level, and levels of single modules over it. -/
def ofLevels (base : Level) (modules : List (String × Level)) : Filter :=
  ⟨⟨"", some base⟩ :: modules.map fun m => ⟨m.1, some m.2⟩⟩

/-- The filter with these directives; errors alone pass if there are none. -/
def ofDirectives (directives : List Directive) : Filter :=
  ⟨if directives.isEmpty then [⟨"", some .error⟩] else directives⟩

/-- What stands between the commas of a text. -/
def parts (s : String) : List String :=
  ((s.toList.splitOn ',').filter fun p => !p.isEmpty).map String.ofList

/-- The directives between commas, if every one can be read. -/
def read? (s : String) : Option Filter := ((parts s).mapM Directive.read?).map ofDirectives

/-- The directives between commas that can be read. -/
def readAny (s : String) : Filter := ofDirectives ((parts s).filterMap Directive.read?)

/-- The directives for a base level and for levels of single modules over it. -/
def levelsText (base : Level) (modules : List (String × Level)) : String :=
  modules.foldl (fun s m => s ++ "," ++ m.1 ++ "=" ++ Text.lower m.2.name) (Text.lower base.name)

end Filter

end CallWatch.Log
