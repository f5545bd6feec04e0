import CallWatch.Debounce
import CallWatch.Engine.Calls
import CallWatch.Engine.Decisions

/-! # Pipelines

A pipeline follows the current session. For every valid session it follows the calls of that session
instead of those of the session before, decides on them, and sends the decisions that pass the
debounce. It ends when it is cancelled, when a source fails, or when nothing more can come.

Whatever it waits for, cancellation comes first. While it watches, sessions come before calls, and
both before the debounce. -/

namespace CallWatch

/-- What a pipeline does after it sent a decision. -/
inductive AfterSending where
  | goOn
  | finish
  deriving DecidableEq, Repr

/-- What a pipeline is at. -/
inductive PipelinePhase where
  | spawned
  | watching
  /-- The account of a session is looked up. -/
  | resolving (lookup : Lookup)
  /-- The calls of the session are set up. -/
  | gathering (gathering : Gathering)
  | sending (result : DecisionResult) (next : AfterSending)
  | finished

/-- A pipeline: its generation, the call to be answered, what it follows and what it is at. -/
structure Pipeline where
  generation : Nat
  target : Option AnswerTarget
  window : Nat
  cancelled : Bool
  sessions : Option SessionFeed
  calls : Option (List CallSource)
  debounce : Debounce
  phase : PipelinePhase

/-- Something that a pipeline sends, marked by its generation. -/
structure PipelineOutput where
  generation : Nat
  result : DecisionResult

namespace Pipeline

/-- A pipeline that has not begun. -/
def new (generation : Nat) (target : Option AnswerTarget) (window : Nat) : Pipeline :=
  ⟨generation, target, window, false, none, none, .ofWindow window, .spawned⟩

/-- The span of a pipeline. -/
def span (p : Pipeline) : Log.Span where
  number := 2 * p.generation
  target := "callkeep_engine::pipeline"
  level := .info
  fields := [⟨"generation", .unsigned p.generation⟩]

/-- The warning that a window was cut. The window is told in 64 bits. -/
def clampWarning (p : Pipeline) : Log.Event where
  level := .warn
  target := "callkeep_engine::policy"
  fields :=
    [⟨"message", .shown "stop debounce clamped"⟩,
      ⟨"requested_ms", .unsigned (p.window % UInt64.size)⟩,
      ⟨"max_ms", .unsigned Debounce.maxWindow⟩]
  spans := [p.span]

/-- The accounts that a pipeline holds while it looks one up. -/
def holds (p : Pipeline) : List AccountRef :=
  match p.phase with
  | .resolving lookup => lookup.holds?.toList
  | .gathering g => g.holds
  | _ => []

/-- Whether the pipeline subscribes to the current session. -/
def followsSession (p : Pipeline) : Bool := p.sessions.any Feed.isLive

/-- What a pipeline in this phase waits for. -/
def due? (p : Pipeline) : Option Nat :=
  match p.phase with
  | .watching => p.debounce.deadline
  | .resolving lookup => lookup.wait.due?
  | .gathering g => g.lookup.wait.due?
  | _ => none

/-- Whether the pipeline can go on; sending needs room in the channel. -/
def isReady (s : Surroundings) (held : AccountRef → Bool) (room : Bool) (p : Pipeline) : Bool :=
  match p.phase with
  | .spawned => true
  | .watching =>
    p.cancelled || p.sessions.any (fun f => (f.inbox s.store.sessions).stirs)
      || p.calls.any (CallSource.stirs (s.store.lists held))
      || p.debounce.deadline.any (· ≤ s.now)
  | .resolving lookup => p.cancelled || lookup.wait.isOver s.now
  | .gathering g => p.cancelled || g.lookup.wait.isOver s.now
  | .sending .. => p.cancelled || room
  | .finished => false

/-! ### Steps -/

/-- The pipeline in another phase. -/
def become (p : Pipeline) (phase : PipelinePhase) : Pipeline := { p with phase }

/-- The pipeline is over, and follows nothing any more. -/
def finish (p : Pipeline) : Pipeline :=
  { p with sessions := none, calls := none, phase := .finished }

/-- The pipeline sends a failure and ends. -/
def fail (p : Pipeline) (e : CallError) : Pipeline := p.become (.sending (.error e) .finish)

/-- The pipeline sends what passed the debounce, if anything did. -/
def emit (p : Pipeline) (passed : Debounce × Option Decision) : Pipeline :=
  { p with
    debounce := passed.1
    phase := match passed.2 with
      | some d => .sending (.ok d) .goOn
      | none => .watching }

/-- A decision is offered to the debounce. -/
def offer (p : Pipeline) (d : Decision) (now : Nat) : Pipeline := p.emit (p.debounce.offer d now)

/-- Nothing more can come: what was held back is sent before the end. -/
def complete (p : Pipeline) : Pipeline :=
  match p.debounce.flush with
  | (debounce, some d) => { p with debounce, phase := .sending (.ok d) .finish }
  | (debounce, none) => { p with debounce }.finish

/-- The calls of the session are set up, or that failed. -/
def onGathered (p : Pipeline) : Step Gathering (Except CallError (List CallSource)) → Pipeline
  | .on g => p.become (.gathering g)
  | .done (.ok calls) => { p with calls := some calls, phase := .watching }
  | .done (.error e) => p.fail e

/-- The account of a session is known, or there is none, or that failed. -/
def onResolved (s : Surroundings) (p : Pipeline) : Step Lookup LookupResult → Pipeline
  | .on lookup => p.become (.resolving lookup)
  | .done (.ok (some session)) => p.onGathered (Gathering.start s session p.target)
  | .done (.ok none) => p.offer (.stop .noValidSession) s.now
  | .done (.error e) => p.fail e

/-- What a look at the calls found. -/
def onCalls (s : Surroundings) (p : Pipeline) : Combined → Pipeline
  | .lists all => p.offer (.ofCalls all) s.now
  | .failed e => p.fail e
  | .ended =>
    let p := { p with calls := none }
    if p.sessions.isNone then p.complete else p
  | .pending => p

/-- What a look at the session found. -/
def onSession (s : Surroundings) (p : Pipeline) : SessionItem → Pipeline
  | .ok session => { p with calls := none }.onResolved s (Lookup.ofCurrent s session)
  | .error e => p.fail e

/-- The pipeline looks at its calls, and at the debounce if there is nothing new about them. -/
def watchCalls (s : Surroundings) (held : AccountRef → Bool) (p : Pipeline) : Pipeline :=
  match p.calls with
  | some calls =>
    if CallSource.stirs (s.store.lists held) calls then
      let (found, calls) := CallSource.poll (s.store.lists held) calls
      { p with calls := some calls }.onCalls s found
    else p.emit (p.debounce.fire s.now)
  | none => p.emit (p.debounce.fire s.now)

/-- The pipeline looks at the session, and at its calls if there is nothing new about it. -/
def watch (s : Surroundings) (held : AccountRef → Bool) (p : Pipeline) : Pipeline :=
  match p.sessions with
  | none => p.watchCalls s held
  | some feed =>
    match feed.next s.store.sessions with
    | (.item item, feed) => { p with sessions := some feed }.onSession s item
    | (.ended, _) =>
      let p := { p with sessions := none }
      if p.calls.isNone then p.complete else p
    | (.pending, _) => p.watchCalls s held

/-- The pipeline begins to follow the session. -/
def begin (s : Surroundings) (p : Pipeline) : Pipeline × List Log.Event :=
  ({ p with sessions := some s.arrangement.sessionFeed, phase := .watching },
    if Debounce.maxWindow < p.window then [p.clampWarning] else [])

/-- The pipeline goes on: what becomes of it, what it sends and what it logs. -/
def step (s : Surroundings) (held : AccountRef → Bool) (p : Pipeline) :
    Pipeline × Option PipelineOutput × List Log.Event :=
  match p.phase with
  | .spawned => let (p, events) := p.begin s; (p, none, events)
  | .finished => (p, none, [])
  | phase =>
    if p.cancelled then (p.finish, none, [])
    else
      match phase with
      | .resolving lookup =>
        let result := lookup.step s
        let events := match result with
          | .done r => Lookup.warnings [p.span] r
          | .on _ => []
        (p.onResolved s result, none, events)
      | .gathering g =>
        let (result, events) := g.step s [p.span]
        (p.onGathered result, none, events)
      | .sending result next =>
        (match next with
          | .goOn => p.become .watching
          | .finish => p.finish,
          some ⟨p.generation, result⟩, [])
      | _ => (p.watch s held, none, [])

end Pipeline

end CallWatch
