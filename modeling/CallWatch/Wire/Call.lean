import CallWatch.Call
import CallWatch.Json.Printer
import CallWatch.Wire.Shape

/-! # Written form of calls

Identifiers are written in their display form, and a call as a record. Reading sets the flags of a
call to false and its conversation to one between two people where they are left out. -/

namespace CallWatch

open Wire

namespace Identifier

variable {kind : IdentifierKind}

/-- The written form: the display form. -/
def toJson (id : Identifier kind) : Json := .string id.display

/-- The identifier that a text names. -/
def decode : Decoder (Identifier kind) := fun r j => (text r j).map ofText

end Identifier

namespace CallStatus

/-- The written form: the name. -/
def toJson (s : CallStatus) : Json := .string s.name

/-- A status by its name. -/
def decode : Decoder CallStatus := choice all name

end CallStatus

namespace ConversationType

/-- The written form: the name. -/
def toJson (t : ConversationType) : Json := .string t.name

/-- A kind of conversation by its name. -/
def decode : Decoder ConversationType := choice all name

end ConversationType

namespace Call

/-- The names of the fields, in their order. -/
def fieldNames : List String :=
  ["conversation_id", "status", "is_muted", "is_camera_on", "is_cbr_enabled", "caller_id",
    "conversation_name", "conversation_type", "caller_name", "caller_team_name"]

/-- The written form: a record with every field. -/
def toJson (c : Call) : Json :=
  .object
    [("conversation_id", c.conversationId.toJson),
      ("status", c.status.toJson),
      ("is_muted", .bool c.isMuted),
      ("is_camera_on", .bool c.isCameraOn),
      ("is_cbr_enabled", .bool c.isCbrEnabled),
      ("caller_id", c.callerId.toJson),
      ("conversation_name", Json.ofText? c.conversationName),
      ("conversation_type", c.conversationType.toJson),
      ("caller_name", Json.ofText? c.callerName),
      ("caller_team_name", Json.ofText? c.callerTeamName)]

/-- A call from its record. -/
def decode : Decoder Call := fun r j => do
  let record ← Record.ofJson? fieldNames j
  let r := r.inside
  let conversationId ← record.required "conversation_id" (Identifier.decode r)
  let status ← record.required "status" (CallStatus.decode r)
  let isMuted ← record.withDefault "is_muted" false (flag r)
  let isCameraOn ← record.withDefault "is_camera_on" false (flag r)
  let isCbrEnabled ← record.withDefault "is_cbr_enabled" false (flag r)
  let callerId ← record.required "caller_id" (Identifier.decode r)
  let conversationName ← record.optional "conversation_name" (nullable text r)
  let conversationType ← record.withDefault "conversation_type" default (ConversationType.decode r)
  let callerName ← record.optional "caller_name" (nullable text r)
  let callerTeamName ← record.optional "caller_team_name" (nullable text r)
  return { conversationId, status, isMuted, isCameraOn, isCbrEnabled, callerId, conversationName,
           conversationType, callerName, callerTeamName }

end Call

namespace Notification

/-- The names of the fields, in their order. -/
def fieldNames : List String := ["user_id", "call", "display_name"]

/-- The written form: a record. -/
def toJson (n : Notification) : Json :=
  .object
    [("user_id", n.userId.toJson), ("call", n.call.toJson), ("display_name", .string n.displayName)]

/-- A notification from its record. -/
def decode : Decoder Notification := fun r j => do
  let record ← Record.ofJson? fieldNames j
  let r := r.inside
  let userId ← record.required "user_id" (Identifier.decode r)
  let call ← record.required "call" (Call.decode r)
  let displayName ← record.required "display_name" (text r)
  return { userId, call, displayName }

end Notification

end CallWatch
