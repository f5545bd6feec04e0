import CallWatch.Session
import CallWatch.Wire.Call

/-! # Written form of sessions and accounts -/

namespace CallWatch

open Wire

namespace LogoutReason

/-- The written form: the name. -/
def toJson (s : LogoutReason) : Json := .string s.name

/-- A reason by its name. -/
def decode : Decoder LogoutReason := choice all name

end LogoutReason

namespace SessionStatus

/-- The tags of the variants. -/
def tags : List String := ["valid", "invalid"]

/-- The written form: tagged by its state. -/
def toJson : SessionStatus → Json
  | .valid => .object [("state", .string "valid")]
  | .invalid reason => .object [("state", .string "invalid"), ("reason", reason.toJson)]

/-- A status by its state. -/
def decode : Decoder SessionStatus := fun r j => do
  match ← tagged "state" tags r j with
  | (0, rest) => if noFields rest then some .valid else none
  | (_, rest) =>
    let record ← Record.ofJson? ["reason"] rest
    let reason ← record.required "reason" (LogoutReason.decode r.inside.hold)
    return .invalid reason

end SessionStatus

namespace Session

/-- The written form: a record. -/
def toJson (s : Session) : Json :=
  .object [("user_id", s.userId.toJson), ("status", s.status.toJson)]

/-- A session from its record. -/
def decode : Decoder Session := fun r j => do
  let record ← Record.ofJson? ["user_id", "status"] j
  let r := r.inside
  let userId ← record.required "user_id" (Identifier.decode r)
  let status ← record.required "status" (SessionStatus.decode r)
  return { userId, status }

end Session

namespace SelfUser

/-- The written form: a record with every field. -/
def toJson (u : SelfUser) : Json :=
  .object [("id", u.id.toJson), ("name", Json.ofText? u.name), ("handle", Json.ofText? u.handle)]

/-- An account from its record. -/
def decode : Decoder SelfUser := fun r j => do
  let record ← Record.ofJson? ["id", "name", "handle"] j
  let r := r.inside
  let id ← record.required "id" (Identifier.decode r)
  let name ← record.optional "name" (nullable text r)
  let handle ← record.optional "handle" (nullable text r)
  return { id, name, handle }

end SelfUser

end CallWatch
