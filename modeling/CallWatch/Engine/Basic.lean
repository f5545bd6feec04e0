import CallWatch.Engine.Answering
import CallWatch.Engine.Pipeline
import CallWatch.Queue.Buffer

/-! # The engine

A controller takes actions from the queue, one at a time, and owns the current pipeline. Before an
action is handled the previous pipeline is cancelled and waited for, so there is never more than
one. A stop is decided at once. A start forgets the last decision and begins a new pipeline, with an
attempt to answer in front of it if a call is to be answered. What pipelines send is published only
if it comes from the current one; a failure ends that one.

The end of the engine comes before actions, and actions come before what pipelines send. -/

namespace CallWatch

/-- How the engine is tuned. -/
structure EngineConfig where
  queueCapacity : Nat
  /-- The window of the debounce in milliseconds. -/
  stopDebounce : Nat
  bindAnswerToPipeline : Bool
  deriving DecidableEq, Repr

namespace EngineConfig

instance : Inhabited EngineConfig := ⟨ActionQueue.defaultCapacity, 200, false⟩

/-- The longest window there is, in milliseconds. -/
def longestWindow : Nat := (UInt64.size - 1) * 1000 + 999

end EngineConfig

/-- What the controller does once the previous pipeline is gone. -/
inductive Errand where
  | handle (ticket : Ticket) (action : Action)
  | listen
  | leave
  deriving DecidableEq, Repr

/-- What the controller is at. -/
inductive ControllerPhase where
  | unstarted
  | listening
  /-- It waits for the end of the pipeline of a generation. -/
  | retiring (generation : Nat) (errand : Errand)
  | ended
  deriving DecidableEq, Repr

/-- The pipeline that is in charge, and the action that it was started for. -/
structure ActivePipeline where
  generation : Nat
  ticket : Ticket
  deriving DecidableEq, Repr

/-- The state of the engine. -/
structure Engine where
  config : EngineConfig
  queue : ActionQueue
  controller : ControllerPhase
  /-- The engine is told to end. -/
  shutdown : Bool
  /-- Nobody outside holds the engine any more. -/
  released : Bool
  seq : Nat
  generation : Nat
  current : Option ActivePipeline
  /-- Pipelines that have not ended. -/
  pipelines : List Pipeline
  answerings : List Answering
  /-- What pipelines have sent, the oldest first. -/
  channel : List PipelineOutput
  slot : Slot

namespace Engine

/-- How much may wait to be taken from the channel. -/
def channelCapacity : Nat := 16

/-- An engine that was not started. -/
def new (config : EngineConfig) : Engine where
  config
  queue := .empty config.queueCapacity
  controller := .unstarted
  shutdown := false
  released := false
  seq := 0
  generation := 0
  current := none
  pipelines := []
  answerings := []
  channel := []
  slot := .empty

/-! ### From outside -/

/-- The warning that an action came too late. -/
def discardWarning (ticket : Ticket) : Log.Event where
  level := .warn
  target := "callkeep_engine::queue"
  fields :=
    [⟨"message", .shown "action submitted after queue close, discarded"⟩,
      ⟨"ticket", .shown ticket.display⟩]
  spans := []

/-- An action is submitted; after the end it is discarded. -/
def submit (e : Engine) (a : Action) : Ticket × Engine × List Log.Event :=
  let (ticket, queue) := e.queue.enqueue a
  (ticket, { e with queue }, if e.queue.closed then [discardWarning ticket] else [])

/-- An action is submitted unless the engine has ended. -/
def trySubmit (e : Engine) (a : Action) : Except EngineError (Ticket × Engine) :=
  (e.queue.tryEnqueue a).map fun (ticket, queue) => (ticket, { e with queue })

/-- The controller begins to work, which it can do once. -/
def start (e : Engine) : Except EngineError Engine :=
  if e.controller = .unstarted then .ok { e with controller := .listening }
  else .error .alreadyRunning

/-- No more actions are accepted, and the controller is told to end. -/
def stop (e : Engine) : Engine := { e with queue := e.queue.close, shutdown := true }

/-- Nobody outside holds the engine any more, which also ends it. -/
def release (e : Engine) : Engine := { e.stop with released := true }

/-- The controller has ended. -/
def hasEnded (e : Engine) : Bool := e.controller = .ended

/-- The number of pipelines that have not ended. -/
def activePipelines (e : Engine) : Nat := e.pipelines.length

/-- The number of subscriptions of pipelines to the current session. -/
def sessionSubscriptions (e : Engine) : Nat := (e.pipelines.filter (·.followsSession)).length

/-- Whether the slot may still change: someone outside or the controller holds it. -/
def slotGiven (e : Engine) : Bool :=
  !e.released || !(e.controller = .ended || e.controller = .unstarted)

/-- Whether a task is in the middle of something that needs this account. -/
def holds (e : Engine) (ref : AccountRef) : Bool :=
  e.answerings.any (·.holds? == some ref) || e.pipelines.any (·.holds.contains ref)

/-! ### The controller -/

/-- The warning about a published failure. -/
def failureWarning (ticket : Ticket) (error : CallError) : Log.Event where
  level := .warn
  target := "callkeep_engine::lifecycle"
  fields :=
    [⟨"message", .shown "decision: failure"⟩, ⟨"ticket", .shown ticket.display⟩,
      ⟨"error", .shown error.message⟩, ⟨"kind", .text error.kind⟩]
  spans := []

/-- A decision is published for an action. -/
def publish (e : Engine) (ticket : Ticket) (result : DecisionResult) : Engine × List Log.Event :=
  ({ e with seq := e.seq + 1, slot := e.slot.publish ⟨e.seq + 1, ticket, result⟩ },
    match result with
    | .error error => [failureWarning ticket error]
    | .ok _ => [])

/-- The pipeline of a generation is cancelled, and with it the attempt that is bound to it. -/
def cancel (e : Engine) (generation : Nat) : Engine :=
  { e with
    pipelines := e.pipelines.map fun p =>
      if p.generation = generation then { p with cancelled := true } else p
    answerings := e.answerings.map fun a =>
      if a.generation = some generation then { a with cancelled := true } else a }

/-- A new pipeline for a start, and an attempt to answer if a call is to be answered. -/
def begin (e : Engine) (ticket : Ticket) (how : StartAction) : Engine :=
  let generation := e.generation + 1
  let (target, answerings) := match how with
    | .default => (none, e.answerings)
    | .answerCall userId conversationId =>
      (some (AnswerTarget.mk userId conversationId),
        e.answerings ++ [Answering.new e.answerings.length userId conversationId
          e.config.bindAnswerToPipeline (some generation)])
  { e with
    slot := e.slot.clear
    generation
    answerings
    pipelines := e.pipelines ++ [Pipeline.new generation target e.config.stopDebounce]
    current := some ⟨generation, ticket⟩ }

/-- The controller does its errand. -/
def perform (e : Engine) : Errand → Engine × List Log.Event
  | .handle ticket .stop =>
    { e with controller := .listening }.publish ticket (.ok (.stop .actionStopCalled))
  | .handle ticket (.start how) => ({ e with controller := .listening }.begin ticket how, [])
  | .listen => ({ e with controller := .listening }, [])
  | .leave => ({ e with controller := .ended }, [])

/-- The controller cancels the current pipeline and will do its errand when that is gone. -/
def retire (e : Engine) (errand : Errand) : Engine × List Log.Event :=
  match e.current with
  | none => e.perform errand
  | some active =>
    ({ e.cancel active.generation with
        current := none
        controller := .retiring active.generation errand }, [])

/-- The controller takes what a pipeline sent. -/
def receive (e : Engine) (o : PipelineOutput) : Engine × List Log.Event :=
  match e.current with
  | none => (e, [])
  | some active =>
    if active.generation = o.generation then
      let (e, events) := e.publish active.ticket o.result
      match o.result with
      | .ok _ => (e, events)
      | .error _ =>
        let (e, more) := e.retire .listen
        (e, events ++ more)
    else (e, [])

/-- The pipeline of this generation has not ended. -/
def isAlive (e : Engine) (generation : Nat) : Bool :=
  e.pipelines.any (·.generation == generation)

/-- Whether the controller can go on. -/
def controllerReady (e : Engine) : Bool :=
  match e.controller with
  | .unstarted => false
  | .listening =>
    e.shutdown || !e.queue.items.isEmpty || e.queue.closed || !e.channel.isEmpty
  | .retiring generation _ => !e.isAlive generation
  | .ended => false

/-- The controller listens: to the end, then to actions, then to the pipelines. -/
def listen (e : Engine) : Engine × List Log.Event :=
  if e.shutdown then e.retire .leave
  else
    match e.queue.pop with
    | some ((ticket, action), queue) => { e with queue }.retire (.handle ticket action)
    | none =>
      if e.queue.closed then e.retire .leave
      else
        match e.channel with
        | [] => (e, [])
        | o :: rest => { e with channel := rest }.receive o

/-- The controller goes on. -/
def control (e : Engine) : Engine × List Log.Event :=
  match e.controller with
  | .unstarted => (e, [])
  | .listening => e.listen
  | .retiring generation errand => if e.isAlive generation then (e, []) else e.perform errand
  | .ended => (e, [])

/-! ### The tasks beside it -/

/-- The first pipeline of a generation. -/
def pipeline? (e : Engine) (generation : Nat) : Option Pipeline :=
  e.pipelines.find? (·.generation == generation)

/-- The attempt with this number. -/
def answering? (e : Engine) (number : Nat) : Option Answering :=
  e.answerings.find? (·.number == number)

/-- A pipeline in its new state; one that is over is gone. -/
def putPipeline (e : Engine) (p : Pipeline) : Engine :=
  { e with
    pipelines := match p.phase with
      | .finished => e.pipelines.filter (·.generation != p.generation)
      | _ => e.pipelines.map fun q => if q.generation = p.generation then p else q }

/-- An attempt in its new state. -/
def putAnswering (e : Engine) (a : Answering) : Engine :=
  { e with answerings := e.answerings.map fun b => if b.number = a.number then a else b }

/-- There is room in the channel. -/
def hasRoom (e : Engine) : Bool := e.channel.length < channelCapacity

/-- Whether the pipeline of a generation can go on. -/
def pipelineReady (s : Surroundings) (e : Engine) (generation : Nat) : Bool :=
  (e.pipeline? generation).any (·.isReady s e.holds e.hasRoom)

/-- Whether an attempt can go on. -/
def answeringReady (s : Surroundings) (e : Engine) (number : Nat) : Bool :=
  (e.answering? number).any (·.isReady s e.holds)

/-- The pipeline of a generation goes on. -/
def stepPipeline (s : Surroundings) (e : Engine) (generation : Nat) : Engine × List Log.Event :=
  match e.pipeline? generation with
  | none => (e, [])
  | some p =>
    let (p, output, events) := p.step s e.holds
    let e := e.putPipeline p
    (match output with
      | some o => { e with channel := e.channel ++ [o] }
      | none => e, events)

/-- An attempt goes on; it may change the store. -/
def stepAnswering (s : Surroundings) (e : Engine) (number : Nat) :
    Store × Engine × List Log.Event :=
  match e.answering? number with
  | none => (s.store, e, [])
  | some a =>
    let (store, a, events) := a.step s e.holds
    (store, e.putAnswering a, events)

/-! ### The tasks together -/

/-- The tasks of the engine. -/
inductive Task where
  | controller
  | answering (number : Nat)
  | pipeline (generation : Nat)
  deriving DecidableEq, Repr

/-- Every task that has not ended, attempts before the pipelines that were started with them. -/
def tasks (e : Engine) : List Task :=
  .controller :: ((e.answerings.filter (·.outcome?.isNone)).map fun a => .answering a.number)
    ++ e.pipelines.map fun p => .pipeline p.generation

/-- Whether a task can go on. -/
def isReady (s : Surroundings) (e : Engine) : Task → Bool
  | .controller => e.controllerReady
  | .answering number => e.answeringReady s number
  | .pipeline generation => e.pipelineReady s generation

/-- A task goes on. -/
def step (s : Surroundings) (e : Engine) : Task → Store × Engine × List Log.Event
  | .controller => (s.store, e.control)
  | .answering number => e.stepAnswering s number
  | .pipeline generation => (s.store, e.stepPipeline s generation)

/-- The instants that tasks wait for. -/
def dues (e : Engine) : List Nat :=
  (e.answerings.filterMap fun a => a.wait?.bind (·.due?)) ++ e.pipelines.filterMap (·.due?)

end Engine

end CallWatch
