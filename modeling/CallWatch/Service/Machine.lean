import CallWatch.Service.Basic

/-! # The whole at work

The store, the engine and the services on one clock that counts milliseconds. Tasks that can go on
stand in line, first come, first served; the task in front goes on until it has to wait. Nothing
moves the clock but asking for a later instant, and on the way there every task that waits for an
earlier one has its turn at its time. -/

namespace CallWatch

/-- Who takes the actions of the services: the engine, or a stand-in that only notes them. -/
inductive Orchestrator where
  | engine
  | standIn (submitted : List Action)
  deriving DecidableEq, Repr

/-- A task of the engine or of a service. -/
inductive MachineTask where
  | engine (task : Engine.Task)
  | observer (number : Nat)
  deriving DecidableEq, Repr

/-- Everything there is. -/
structure Machine where
  now : Nat
  store : Store
  arrangement : Arrangement
  engine : Engine
  orchestrator : Orchestrator
  /-- The state of the hosting process. -/
  state : ServiceState
  service : Option CallService
  observers : List Observer
  /-- Services and observers that there were. -/
  services : Nat
  /-- What the host was told and when, the latest last. -/
  told : List (Nat × HostEvent)
  /-- What was logged, the latest last. -/
  journal : List Log.Event
  /-- The tasks in line. -/
  line : List MachineTask

namespace Machine

/-- An engine that was not started, over an empty store. -/
def new (config : EngineConfig) (orchestrator : Orchestrator) : Machine where
  now := 0
  store := .empty
  arrangement := .none
  engine := .new config
  orchestrator
  state := .notStarted
  service := none
  observers := []
  services := 0
  told := []
  journal := []
  line := []

/-- What a task finds around it. -/
def surroundings (m : Machine) : Surroundings := ⟨m.now, m.store, m.arrangement⟩

/-! ### Tasks -/

/-- Every task that has not ended. -/
def tasks (m : Machine) : List MachineTask :=
  (m.engine.tasks.map .engine) ++ m.observers.map fun o => .observer o.number

/-- The observer with this number. -/
def observer? (m : Machine) (number : Nat) : Option Observer :=
  m.observers.find? (·.number == number)

/-- Whether a task can go on. -/
def isReady (m : Machine) : MachineTask → Bool
  | .engine task => m.engine.isReady m.surroundings task
  | .observer number => (m.observer? number).any (·.isReady m.engine.slot m.engine.slotGiven)

/-- The tasks that can go on and are not in line yet stand behind the others. -/
def enroll (m : Machine) : Machine :=
  { m with line := m.line ++ m.tasks.filter fun t => m.isReady t && !m.line.contains t }

/-- The host is told something. -/
def tell (m : Machine) (e : HostEvent) : Machine := { m with told := m.told ++ [(m.now, e)] }

/-- Events are logged. -/
def log (m : Machine) (events : List Log.Event) : Machine :=
  { m with journal := m.journal ++ events }

/-- An observer goes on. -/
def stepObserver (m : Machine) (number : Nat) : Machine :=
  match m.observer? number with
  | none => m
  | some o =>
    let (after, found) := o.step m.engine.slot m.engine.slotGiven
    let m := { m with observers := match after with
      | some o' => m.observers.map fun p => if p.number = number then o' else p
      | none => m.observers.filter (·.number != number) }
    match found with
    | some p => (m.tell (.ofResult p.result)).log (Observer.events p)
    | none => m

/-- A task goes on. -/
def step (m : Machine) : MachineTask → Machine
  | .engine task =>
    let (store, engine, events) := m.engine.step m.surroundings task
    { m with store, engine }.log events
  | .observer number => m.stepObserver number

/-- The task in front goes on, or leaves the line if it has to wait. -/
def turn (m : Machine) : Machine :=
  match m.line with
  | [] => m
  | task :: rest => if m.isReady task then (m.step task).enroll else { m with line := rest }

/-- The tasks have their turns until the line is empty, as often as the first argument allows. -/
def run : Nat → Machine → Machine
  | 0, m => m
  | turns + 1, m => if m.line.isEmpty then m else run turns m.turn

/-- The longest prepared list of items. -/
def longestScript (m : Machine) : Nat :=
  (m.arrangement.lists.map fun l => match l.2 with
    | .script items => items.length
    | _ => 0).foldl max 0

/-- More turns than the tasks can take before they all wait. Each action begins a pipeline at most,
each pipeline takes each prepared session once, and each session each prepared list once; an attempt
to answer changes two lists at most. -/
def turnsAhead (m : Machine) : Nat :=
  let actions := m.engine.queue.items.length + m.engine.pipelines.length + m.engine.channel.length
    + m.engine.answerings.length + m.observers.length + m.line.length + 2
  let sessions := (m.arrangement.sessions.map (·.length)).getD 0 + 2
  let lists := 3 * m.longestScript + 2
  32 * actions * actions * sessions * lists

/-- All tasks go on until they wait. -/
def settle (m : Machine) : Machine := let m := m.enroll; run m.turnsAhead m

/-! ### The clock -/

/-- The first instant after now, and not after the given one, that a task waits for. -/
def nextDue? (m : Machine) (limit : Nat) : Option Nat :=
  (m.engine.dues.filter fun t => m.now < t && t < limit).min?

/-- The clock moves on, stopping at every instant before the given one at which a task goes on. At
the given instant itself nobody has had a turn yet. The first argument bounds the stops; there is
one for each millisecond at most. -/
def advance : Nat → Nat → Machine → Machine
  | 0, instant, m => { m with now := instant }.enroll
  | stops + 1, instant, m =>
    match m.nextDue? instant with
    | none => { m with now := instant }.enroll
    | some t => advance stops instant { m with now := t }.settle

/-- The clock moves to a later instant. -/
def moveTo (m : Machine) (instant : Nat) : Machine :=
  if instant ≤ m.now then m else advance (instant - m.now) instant m.settle

/-! ### The orchestrator -/

/-- An action is submitted. -/
def submit (m : Machine) (a : Action) : Ticket × Machine :=
  match m.orchestrator with
  | .engine =>
    let (ticket, engine, events) := m.engine.submit a
    (ticket, { m with engine }.log events)
  | .standIn submitted =>
    (⟨submitted.length + 1⟩, { m with orchestrator := .standIn (submitted ++ [a]) })

/-- The engine is started. -/
def start (m : Machine) : Except EngineError Machine :=
  m.engine.start.map fun engine => { m with engine }

/-- The engine is told to end. -/
def shutdown (m : Machine) : Machine := { m with engine := m.engine.stop }

/-! ### Services -/

/-- The scope of a service is cancelled, and with it its observers. -/
def cancelScope (m : Machine) (service : Nat) : Machine :=
  { m with
    observers := m.observers.map fun o =>
      if o.service = service then { o with cancelled := true } else o }

/-- The service is given up. -/
def dropService (m : Machine) : Machine :=
  match m.service with
  | none => m
  | some s => { m.cancelScope s.number with service := none }

/-- A new service instead of the one that was there. -/
def newService (m : Machine) : Machine :=
  let m := m.dropService
  { m with service := some ⟨m.services, false, none⟩, services := m.services + 1 }

/-- The host created the service. -/
def onCreate (m : Machine) : Machine := { m with state := .started }

/-- A service begins to observe the decisions for an action, unless it did before. -/
def observe (m : Machine) (s : CallService) (ticket : Ticket) : Machine :=
  match s.observer with
  | some _ => m
  | none =>
    { m with
      service := some { s with observer := some m.services }
      observers := m.observers ++ [⟨m.services, s.number, .startingAt ticket, s.cancelled⟩]
      services := m.services + 1 }

/-- The host hands a start command on; without an action it is a plain start. -/
def onStartCommand (m : Machine) (s : CallService) (action : Option Action) : Ticket × Machine :=
  let m := { m.tell .placeholder with state := .foreground }
  let (ticket, m) := m.submit (action.getD (.start .default))
  (ticket, m.observe s ticket)

/-- The host destroys the service, which ends everything that it began. -/
def onDestroy (m : Machine) (s : CallService) : Machine :=
  { m.cancelScope s.number with
    state := .notStarted
    service := some { s with cancelled := true, observer := none } }

/-- Whether the observer of a service is at work. -/
def isObserving (m : Machine) (s : CallService) : Bool :=
  s.observer.any fun number => m.observers.any (·.number == number)

end Machine

end CallWatch
