import CallWatch.Json.Printer
import CallWatch.Log.Filter

/-! # Kept warnings

A sink keeps the events at warning level or above as numbered records and answers queries on them,
the newest first. -/

namespace CallWatch.Log

/-- A kept event. -/
structure Record where
  id : Nat
  timestamp : String
  level : Level
  target : String
  message : String
  /-- The remaining fields as a JSON text, if there are any. -/
  fields : Option String
  /-- The innermost span. -/
  span : Option Nat
  userId : Option String
  conversationId : Option String
  deriving DecidableEq, Repr

/-- The kept events, the oldest first. -/
structure Sink where
  records : List Record
  deriving DecidableEq, Repr

/-- What is asked for; a part that is not set asks for nothing. -/
structure Query where
  level : Option String
  target : Option String
  userId : Option String
  conversationId : Option String
  since : Option String
  limit : Option Nat
  deriving DecidableEq, Repr, Inhabited

/-- The record of an event under a number. -/
def Event.record (e : Event) (id : Nat) (timestamp : String) : Record :=
  let own := Gathered.ofFields e.fields
  { id
    timestamp
    level := e.level
    target := e.target
    message := own.message.getD ""
    fields := if own.others.isEmpty then none else some (Json.object own.others).compact
    span := e.spans.head?.map (·.number)
    userId := e.userId
    conversationId := e.conversationId }

namespace Sink

/-- Nothing kept. -/
def empty : Sink := ⟨[]⟩

instance : Inhabited Sink := ⟨empty⟩

/-- The sink after an event: one record more if the event is grave enough. -/
def keep (sink : Sink) (timestamp : String) (e : Event) : Sink :=
  if e.level.isKept then
    ⟨sink.records ++ [e.record (sink.records.length + 1) timestamp]⟩
  else sink

/-- The sink after several events. -/
def keepAll (sink : Sink) (timestamp : String) (events : List Event) : Sink :=
  events.foldl (fun s e => s.keep timestamp e) sink

/-- The number of records. -/
def count (sink : Sink) : Nat := sink.records.length

theorem keep_of_not_isKept {sink : Sink} {t : String} {e : Event} (h : e.level.isKept = false) :
    sink.keep t e = sink := by simp [keep, h]

theorem records_keep {sink : Sink} {t : String} {e : Event} (h : e.level.isKept = true) :
    (sink.keep t e).records = sink.records ++ [e.record (sink.count + 1) t] := by
  simp [keep, h, count]

end Sink

/-! ### Queries -/

/-- Two characters that differ in case at most, in the basic alphabet. -/
def sameLetter (c d : Char) : Bool := c.toLower == d.toLower

/-- Whether a pattern matches a text from end to end: a percent sign any run of characters, a low
line any one character, and any other character itself in either case. -/
def like : List Char → List Char → Bool
  | [], [] => true
  | [], _ :: _ => false
  | p :: ps, [] => p == '%' && like ps []
  | p :: ps, c :: cs =>
    if p = '%' then like ps (c :: cs) || like (p :: ps) cs
    else (p = '_' || sameLetter p c) && like ps cs
termination_by ps cs => ps.length + cs.length

/-- Whether a part of the query that may not be set agrees. -/
def agrees (wanted : Option String) (p : String → Bool) : Bool :=
  match wanted with
  | none => true
  | some w => p w

namespace Query

/-- The number of records that are returned unless the query says otherwise. -/
def defaultLimit : Nat := 100

/-- Whether a record is asked for. -/
def isMet (q : Query) (r : Record) : Bool :=
  agrees q.level (fun w => Text.upper w == r.level.name)
    && agrees q.target (fun w => like ('%' :: w.toList ++ ['%']) r.target.toList)
    && agrees q.userId (fun w => r.userId == some w)
    && agrees q.conversationId (fun w => r.conversationId == some w)
    && agrees q.since (fun w => w ≤ r.timestamp)

end Query

/-- The records that are asked for, the newest first, up to the limit. -/
def Sink.query (sink : Sink) (q : Query) : List Record :=
  (sink.records.reverse.filter q.isMet).take (q.limit.getD Query.defaultLimit)

end CallWatch.Log
