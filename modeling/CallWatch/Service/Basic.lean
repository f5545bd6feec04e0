import CallWatch.Engine.Basic

/-! # The call service

The service stands between the host process and the engine. It decides nothing: at a start command
it shows a placeholder, submits the action and, once and for all, begins to observe the decisions
for that action and later ones; every decision that is observed is passed on to the host until the
service is destroyed. -/

namespace CallWatch

/-- What the host is told. -/
inductive HostEvent where
  | placeholder
  | update (data : Notification)
  | stop (cause : StopCause)
  deriving DecidableEq, Repr

/-- What the host is told about a decision. -/
def HostEvent.ofResult : DecisionResult → HostEvent
  | .ok (.update data) => .update data
  | .ok (.stop reason) => .stop (.decision reason)
  | .error e => .stop (.failure e)

/-- A task that observes decisions for a service until its scope is cancelled. -/
structure Observer where
  number : Nat
  service : Nat
  stream : DecisionStream
  cancelled : Bool
  deriving DecidableEq, Repr

/-- A service: its number, whether its scope is cancelled, and the observer that it began. -/
structure CallService where
  number : Nat
  cancelled : Bool
  observer : Option Nat
  deriving DecidableEq, Repr

namespace Observer

/-- The error about a failure that ends the service. -/
def failureError (p : Published) (e : CallError) : Log.Event where
  level := .error
  target := "callkeep_service::host"
  fields :=
    [⟨"message", .shown "call pipeline failed, stopping service"⟩,
      ⟨"ticket", .shown p.ticket.display⟩, ⟨"error", .shown e.message⟩, ⟨"kind", .text e.kind⟩]
  spans := []

/-- What is logged about a decision that is passed on. -/
def events (p : Published) : List Log.Event :=
  match p.result with
  | .error e => [failureError p e]
  | .ok _ => []

/-- Whether the observer can go on. -/
def isReady (slot : Slot) (given : Bool) (o : Observer) : Bool :=
  o.cancelled || o.stream.isStale slot || !given

/-- The observer goes on: what becomes of it, and the decision that it passes on. -/
def step (slot : Slot) (given : Bool) (o : Observer) : Option Observer × Option Published :=
  if o.cancelled then (none, none)
  else
    match o.stream.poll slot given with
    | (.item p, stream) => (some { o with stream }, some p)
    | (.ended, _) => (none, none)
    | (.pending, stream) => (some { o with stream }, none)

end Observer

end CallWatch
