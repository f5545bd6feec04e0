import CallWatch.Decision

/-! # Failures

What can go wrong with the store, the engine and the service, and how it is worded. -/

namespace CallWatch

/-- A failure of the calls' store. -/
inductive CallError where
  | storage (detail : String)
  | sessionNotFound (userId : UserId)
  | streamClosed (detail : String)
  | internal (detail : String)
  deriving DecidableEq, Repr, Inhabited

namespace CallError

/-- The name of the kind of failure. -/
def kind : CallError → String
  | .storage _ => "storage"
  | .sessionNotFound _ => "session_not_found"
  | .streamClosed _ => "stream_closed"
  | .internal _ => "internal"

/-- The wording of the failure. -/
def message : CallError → String
  | .storage detail => "storage error: " ++ detail
  | .sessionNotFound userId => "no session for user " ++ userId.display
  | .streamClosed detail => "stream closed: " ++ detail
  | .internal detail => detail

/-- The failure of a kind, with what is said of it; for a missing session that is the user. -/
def ofKind? (kind detail : String) : Option CallError :=
  match kind with
  | "storage" => some (.storage detail)
  | "session_not_found" => some (.sessionNotFound (.ofText detail))
  | "stream_closed" => some (.streamClosed detail)
  | "internal" => some (.internal detail)
  | _ => none

end CallError

/-- A failure of the engine. -/
inductive EngineError where
  | call (error : CallError)
  | queueClosed
  | alreadyRunning
  | internal (detail : String)
  deriving DecidableEq, Repr, Inhabited

namespace EngineError

/-- The name of the kind of failure. -/
def kind : EngineError → String
  | .call _ => "call"
  | .queueClosed => "queue_closed"
  | .alreadyRunning => "already_running"
  | .internal _ => "internal"

/-- The wording of the failure. -/
def message : EngineError → String
  | .call error => "call error: " ++ error.message
  | .queueClosed => "action queue closed"
  | .alreadyRunning => "engine already running"
  | .internal detail => detail

end EngineError

/-- Why the host is asked to end the service. -/
inductive StopCause where
  | decision (reason : StopReason)
  | failure (error : CallError)
  deriving DecidableEq, Repr, Inhabited

namespace StopCause

/-- The wording of the cause. -/
def message : StopCause → String
  | .decision reason => reason.name
  | .failure error => "failure: " ++ error.message

end StopCause

end CallWatch
