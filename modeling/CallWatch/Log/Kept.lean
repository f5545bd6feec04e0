import CallWatch.Log.Sink
import CallWatch.Wire.Shape

/-! # The kept log as a text

A sink is written with a record to a line, the oldest first, and read back from such a text. -/

namespace CallWatch.Log

open Wire

/-- The written form of a span's number. -/
def spanText (n : Nat) : String := "Id(" ++ n.repr ++ ")"

/-- The number of a span from its written form. -/
def readSpan? (s : String) : Option Nat :=
  match s.toList with
  | 'I' :: 'd' :: '(' :: rest => Text.readNumeral? (String.ofList rest.dropLast)
  | _ => none

namespace Record

/-- The names of the fields, in their order. -/
def fieldNames : List String :=
  ["id", "timestamp", "level", "target", "message", "fields", "span_id", "user_id",
    "conversation_id"]

/-- The written form: a record with every field. -/
def toJson (r : Record) : Json :=
  .object
    [("id", .nat r.id),
      ("timestamp", .string r.timestamp),
      ("level", .string r.level.name),
      ("target", .string r.target),
      ("message", .string r.message),
      ("fields", Json.ofText? r.fields),
      ("span_id", Json.ofOption (fun n => .string (spanText n)) r.span),
      ("user_id", Json.ofText? r.userId),
      ("conversation_id", Json.ofText? r.conversationId)]

/-- A kept event from its record. -/
def decode : Decoder Record := fun r j => do
  let record ← Wire.Record.ofJson? fieldNames j
  let r := r.inside
  let id ← record.required "id" (word64 r)
  let timestamp ← record.required "timestamp" (text r)
  let level ← record.required "level" (choice Level.all Level.name r)
  let target ← record.required "target" (text r)
  let message ← record.required "message" (text r)
  let fields ← record.optional "fields" (nullable text r)
  let span ← record.optional "span_id" (nullable (fun r j => (text r j).bind readSpan?) r)
  let userId ← record.optional "user_id" (nullable text r)
  let conversationId ← record.optional "conversation_id" (nullable text r)
  return { id, timestamp, level, target, message, fields, span, userId, conversationId }

end Record

namespace Sink

/-- The records line by line. -/
def toText (sink : Sink) : String :=
  String.join (sink.records.map fun r => r.toJson.compact ++ "\n")

/-- The sink whose records the lines of a text are. -/
def ofText? (s : String) : Option Sink :=
  (((s.splitOn "\n").filter fun line => !line.isEmpty).mapM fun line =>
    (decodeText Record.decode line).toOption).map Sink.mk

end Sink

end CallWatch.Log
