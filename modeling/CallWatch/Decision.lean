import CallWatch.Call

/-! # Actions and decisions

What the service is asked to do, and what it decides to show. -/

namespace CallWatch

/-- How a service starts: to follow the calls, or to answer one of them first. -/
inductive StartAction where
  | default
  | answerCall (userId : UserId) (conversationId : ConversationId)
  deriving DecidableEq, Repr, Inhabited

/-- What the service is asked to do. -/
inductive Action where
  | start (how : StartAction)
  | stop
  deriving DecidableEq, Repr, Inhabited

namespace Action

/-- Answer a call of an account. -/
def answer (userId : UserId) (conversationId : ConversationId) : Action :=
  .start (.answerCall userId conversationId)

/-- The name under which an action is reported. -/
def name : Action → String
  | .start .default => "start"
  | .start (.answerCall ..) => "answer_call"
  | .stop => "stop"

end Action

/-- The number under which an action was accepted. -/
structure Ticket where
  number : Nat
  deriving DecidableEq, Repr, Inhabited

namespace Ticket

/-- The number behind a hash sign. -/
def display (t : Ticket) : String := "#" ++ t.number.repr

instance : LE Ticket := ⟨fun a b => a.number ≤ b.number⟩

instance : LT Ticket := ⟨fun a b => a.number < b.number⟩

instance (a b : Ticket) : Decidable (a ≤ b) := inferInstanceAs (Decidable (a.number ≤ b.number))

instance (a b : Ticket) : Decidable (a < b) := inferInstanceAs (Decidable (a.number < b.number))

end Ticket

/-- Why nothing is to be shown any more. -/
inductive StopReason where
  | noCalls
  | noValidSession
  | actionStopCalled
  deriving DecidableEq, Repr, Inhabited

namespace StopReason

/-- Every reason. -/
def all : List StopReason := [.noCalls, .noValidSession, .actionStopCalled]

/-- The written name of a reason. -/
def name : StopReason → String
  | .noCalls => "no_calls"
  | .noValidSession => "no_valid_session"
  | .actionStopCalled => "action_stop_called"

theorem mem_all (r : StopReason) : r ∈ all := by cases r <;> decide

end StopReason

/-- What the service is to do: end, or show a call. -/
inductive Decision where
  | stop (reason : StopReason)
  | update (data : Notification)
  deriving DecidableEq, Repr, Inhabited

namespace Decision

/-- Whether the service is to end. -/
def isStop : Decision → Bool
  | .stop _ => true
  | .update _ => false

/-- The reason to end. -/
def stopReason? : Decision → Option StopReason
  | .stop reason => some reason
  | .update _ => none

/-- The notification to show. -/
def notification? : Decision → Option Notification
  | .stop _ => none
  | .update data => some data

/-- The decision on the calls at hand: show the first, or end for want of calls. -/
def ofCalls : List Notification → Decision
  | [] => .stop .noCalls
  | n :: _ => .update n

end Decision

/-- How far the hosting process has got. -/
inductive ServiceState where
  | notStarted
  | started
  | foreground
  deriving DecidableEq, Repr

instance : Inhabited ServiceState := ⟨.notStarted⟩

namespace ServiceState

/-- Every state. -/
def all : List ServiceState := [.notStarted, .started, .foreground]

/-- The written name of a state. -/
def name : ServiceState → String
  | .notStarted => "not_started"
  | .started => "started"
  | .foreground => "foreground"

theorem mem_all (s : ServiceState) : s ∈ all := by cases s <;> decide

end ServiceState

end CallWatch
