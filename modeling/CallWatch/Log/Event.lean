import CallWatch.Json.Basic
import CallWatch.Keyed
import CallWatch.Log.Level
import CallWatch.Text.Double
import CallWatch.Text.Quoted

/-! # Log events

An event with its fields, and the spans that it happened in. Fields named `message`, `user_id` and
`conversation_id` have a meaning of their own when they hold text. -/

namespace CallWatch.Log

/-- The value of a field. -/
inductive FieldValue where
  /-- A text. -/
  | text (s : String)
  /-- The text that shows a value of some other type. -/
  | shown (s : String)
  | signed (n : Int)
  | unsigned (n : Nat)
  | flag (b : Bool)
  deriving DecidableEq, Repr

namespace FieldValue

/-- A text shown between quotes. -/
def quoted (s : String) : FieldValue := .shown (Text.quote s)

/-- A whole number beyond 64 bits, shown in digits. -/
def wide (n : Int) : FieldValue := .shown n.repr

/-- The double nearest to `n · 10 ^ e`, shown in digits. -/
def double (negative : Bool) (n : Nat) (e : Int) : FieldValue :=
  .shown (Text.doubleText negative n e)

end FieldValue

/-- A named value of an event or a span. -/
structure Field where
  name : String
  value : FieldValue
  deriving DecidableEq, Repr

/-- A stretch of work with fields of its own. -/
structure Span where
  number : Nat
  target : String
  level : Level
  fields : List Field
  deriving DecidableEq, Repr

/-- Something that happened: how grave, where, with which fields, and in which spans, the innermost
first. -/
structure Event where
  level : Level
  target : String
  fields : List Field
  spans : List Span
  deriving DecidableEq, Repr

/-! ### What the fields say -/

/-- The fields sorted by what they are for. -/
structure Gathered where
  message : Option String
  userId : Option String
  conversationId : Option String
  others : List (String × Json)

namespace Gathered

/-- No fields. -/
def empty : Gathered := ⟨none, none, none, []⟩

/-- A field with text. -/
def addText (g : Gathered) (name s : String) : Gathered :=
  if name = "message" then { g with message := some s }
  else if name = "user_id" then { g with userId := some s }
  else if name = "conversation_id" then { g with conversationId := some s }
  else { g with others := Keyed.put name (.string s) g.others }

/-- A field with a number or a truth value. -/
def addPlain (g : Gathered) (name : String) (value : Json) : Gathered :=
  { g with others := Keyed.put name value g.others }

/-- One field more. A shown text loses the quotes at its ends, unless it is the message. -/
def add (g : Gathered) (f : Field) : Gathered :=
  match f.value with
  | .text s => g.addText f.name s
  | .shown s => g.addText f.name (if f.name = "message" then s else Text.trimQuotes s)
  | .signed n => g.addPlain f.name (.int n)
  | .unsigned n => g.addPlain f.name (.nat n)
  | .flag b => g.addPlain f.name (.bool b)

/-- The fields taken together. -/
def ofFields (fields : List Field) : Gathered := fields.foldl add empty

end Gathered

/-- The first that is there, from the event outwards through the spans. -/
def firstOf (own : Option String) (spans : List (Option String)) : Option String :=
  spans.foldl (fun found next => found <|> next) own

/-- The user that an event is about: its own, or else that of the innermost span with one. -/
def Event.userId (e : Event) : Option String :=
  firstOf (Gathered.ofFields e.fields).userId
    (e.spans.map fun s => (Gathered.ofFields s.fields).userId)

/-- The conversation that an event is about, found like the user and independently of it. -/
def Event.conversationId (e : Event) : Option String :=
  firstOf (Gathered.ofFields e.fields).conversationId
    (e.spans.map fun s => (Gathered.ofFields s.fields).conversationId)

end CallWatch.Log
