import CallWatch.Decision
import CallWatch.Wire.Call

/-! # Written form of actions and decisions

An action is tagged by its type, and a start within it by its kind. A decision has its tag and its
data side by side; the data is held when it comes first. -/

namespace CallWatch

open Wire

namespace StartAction

/-- The tags of the variants. -/
def tags : List String := ["default", "answer_call"]

/-- The members of the written form. -/
def members : StartAction → List (String × Json)
  | .default => [("kind", .string "default")]
  | .answerCall userId conversationId =>
    [("kind", .string "answer_call"), ("user_id", userId.toJson),
      ("conversation_id", conversationId.toJson)]

/-- The written form: tagged by its kind. -/
def toJson (a : StartAction) : Json := .object a.members

/-- A start by its kind. -/
def decode : Decoder StartAction := fun r j => do
  match ← tagged "kind" tags r j with
  | (0, rest) => if noFields rest then some .default else none
  | (_, rest) =>
    let record ← Record.ofJson? ["user_id", "conversation_id"] rest
    let r := r.inside.hold
    let userId ← record.required "user_id" (Identifier.decode r)
    let conversationId ← record.required "conversation_id" (Identifier.decode r)
    return .answerCall userId conversationId

end StartAction

namespace Action

/-- The tags of the variants. -/
def tags : List String := ["start", "stop"]

/-- The written form: tagged by its type, the kind of a start beside it. -/
def toJson : Action → Json
  | .start how => .object (("type", .string "start") :: how.members)
  | .stop => .object [("type", .string "stop")]

/-- An action by its type. -/
def decode : Decoder Action := fun r j => do
  match ← tagged "type" tags r j with
  | (0, rest) => (StartAction.decode r.hold rest).map .start
  | (_, rest) => if noFields rest then some .stop else none

end Action

namespace Ticket

/-- The written form: the number. -/
def toJson (t : Ticket) : Json := .nat t.number

/-- A ticket by its number. -/
def decode : Decoder Ticket := fun r j => (word64 r j).map Ticket.mk

end Ticket

namespace StopReason

/-- The written form: the name. -/
def toJson (s : StopReason) : Json := .string s.name

/-- A reason by its name. -/
def decode : Decoder StopReason := choice all name

end StopReason

namespace ServiceState

/-- The written form: the name. -/
def toJson (s : ServiceState) : Json := .string s.name

/-- A state by its name. -/
def decode : Decoder ServiceState := choice all name

end ServiceState

namespace Decision

/-- The written form: the tag, and the reason or the notification. -/
def toJson : Decision → Json
  | .stop reason => .object [("decision", .string "stop"), ("data", reason.toJson)]
  | .update data => .object [("decision", .string "update"), ("data", data.toJson)]

/-- The tags of the variants. -/
def tags : List String := ["stop", "update"]

/-- A decision from its tag and its data. -/
def decodeParts (tagReading dataReading : Reading) (tag data : Json) : Option Decision := do
  match ← choice tags id tagReading tag with
  | "stop" => (StopReason.decode dataReading data).map .stop
  | _ => (Notification.decode dataReading data).map .update

/-- A decision, its data held if it comes before the tag. -/
def decode : Decoder Decision
  | r, .array [tag, data] => decodeParts r.inside r.inside tag data
  | r, .object members =>
    match members.filter fun m => m.1 == "decision" || m.1 == "data" with
    | [("decision", tag), ("data", data)] => decodeParts r.inside r.inside tag data
    | [("data", data), ("decision", tag)] =>
      if r.held || data.readable (r.room - 1) then
        decodeParts r.inside r.inside.hold tag data
      else none
    | _ => none
  | _, _ => none

end Decision

end CallWatch
