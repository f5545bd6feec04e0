import CallWatch.Engine.Basic
import Mathlib.Logic.Relation

/-! # Runs of the engine

The engine together with the store and the clock, and everything that can happen to them: actions
are submitted, the store changes, time passes, and the tasks of the engine go on one step at a
time, in any order. A run is any sequence of such moves; a task moves only when it can go on.

A world keeps a chronicle of what happened, each occurrence with its instant. The chronicle is
written from the moves and read by nobody, so it changes nothing. Statements about a whole run, such
as "every decision was published for the action processed last", are statements about it. -/

namespace CallWatch

/-! ### What can happen -/

/-- A change of one account. -/
inductive AccountChange where
  | selfUser (user : SelfUser)
  | valid (valid : Bool)
  | list (name : ListName) (content : Listing)
  | answerFailure (error : Option CallError)
  | answerDelay (delay : Option Nat)
  | answerEstablishes (establishes : Bool)

/-- The account after a change. -/
def AccountChange.apply (a : Account) : AccountChange → Account
  | .selfUser user => { a with selfUser := user }
  | .valid holds => { a with valid := holds }
  | .list name content => a.setList name content
  | .answerFailure error => { a with answerFailure := error }
  | .answerDelay delay => { a with answerDelay := delay }
  | .answerEstablishes establishes => { a with answerEstablishes := establishes }

/-- A change of the store. -/
inductive StoreChange where
  | session (item : SessionItem)
  | register (user : SelfUser)
  | account (ref : AccountRef) (change : AccountChange)

/-- The store after a change. -/
def StoreChange.apply (s : Store) : StoreChange → Store
  | .session item => s.setSession item
  | .register user => s.register user
  | .account ref change => s.modify ref change.apply

/-- A move: something comes from outside, or a task of the engine goes on. -/
inductive Move where
  | submit (action : Action)
  | trySubmit (action : Action)
  | start
  | stop
  | release
  | store (change : StoreChange)
  | arrange (arrangement : Arrangement)
  /-- Time passes, in milliseconds. -/
  | pass (ms : Nat)
  | go (task : Engine.Task)

/-- Whether a move is made by whoever uses the engine. -/
def Move.isRequest : Move → Bool
  | .submit _ | .trySubmit _ | .start | .stop | .release => true
  | _ => false

/-- Something that happened. -/
inductive Occurrence where
  /-- An action was accepted by the queue. -/
  | accepted (ticket : Ticket) (action : Action)
  /-- The controller took an action from the queue. -/
  | processed (ticket : Ticket) (action : Action)
  /-- A pipeline was begun for an action. -/
  | began (generation : Nat) (ticket : Ticket)
  /-- A pipeline took an item about the session, with the store as it was then. -/
  | consumed (generation : Nat) (item : SessionItem) (store : Store)
  /-- A pipeline came to a decision and offers it to its debounce. -/
  | decided (generation : Nat) (decision : Decision)
  /-- A pipeline sent a result. -/
  | emitted (generation : Nat) (result : DecisionResult)
  /-- A result was published, and the pipeline that it came from, if any. -/
  | published (publication : Published) (source : Option Nat)

/-! ### What the tasks are about to do -/

namespace Engine

/-- The action that the controller takes next. -/
def taken? (e : Engine) : Option (Ticket × Action) :=
  if e.controller = .listening ∧ e.shutdown = false then e.queue.items.head? else none

/-- The result that the controller takes from the channel next, if there is nothing else to do. -/
def received? (e : Engine) : Option PipelineOutput :=
  if e.controller = .listening ∧ e.shutdown = false ∧ e.queue.items = [] ∧ e.queue.closed = false
  then e.channel.head? else none

/-- What was published between two states that are one step apart: a publication is a change of the
slot's version. -/
def publishedTill (e e' : Engine) : List Published :=
  if e'.slot.version = e.slot.version then [] else e'.slot.value.toList

/-- The pipeline that was begun between two states that are one step apart. -/
def begunTill (e e' : Engine) : List ActivePipeline :=
  if e'.generation = e.generation then [] else e'.current.toList

/-- What happens when the controller goes on. -/
def controllerOccurrences (e : Engine) : List Occurrence :=
  let after := e.control.1
  (e.taken?.toList.map fun item => .processed item.1 item.2)
    ++ ((e.begunTill after).map fun active => .began active.generation active.ticket)
    ++ (e.publishedTill after).map fun p => .published p (e.received?.map (·.generation))

end Engine

namespace Pipeline

/-- The item about the session that a pipeline takes next. -/
def taken? (s : Surroundings) (p : Pipeline) : Option SessionItem :=
  match p.cancelled, p.phase, p.sessions with
  | false, .watching, some feed =>
    match (feed.next s.store.sessions).1 with
    | .item item => some item
    | _ => none
  | _, _, _ => none

/-- The decision on the calls that a pipeline comes to next, if a look at them finds lists. -/
def decidedOnCalls? (s : Surroundings) (held : AccountRef → Bool) (p : Pipeline) :
    Option Decision :=
  match p.calls with
  | some calls =>
    if CallSource.stirs (s.store.lists held) calls then
      match (CallSource.poll (s.store.lists held) calls).1 with
      | .lists all => some (.ofCalls all)
      | _ => none
    else none
  | none => none

/-- The decision of a lookup that finds no valid session. -/
def decidedOnLookup? : Step Lookup LookupResult → Option Decision
  | .done (.ok none) => some (.stop .noValidSession)
  | _ => none

/-- The decision that a pipeline comes to next, whether or not its debounce lets it pass. -/
def decided? (s : Surroundings) (held : AccountRef → Bool) (p : Pipeline) : Option Decision :=
  match p.cancelled, p.phase with
  | false, .resolving lookup => decidedOnLookup? (lookup.step s)
  | false, .watching =>
    match p.sessions with
    | none => p.decidedOnCalls? s held
    | some feed =>
      match (feed.next s.store.sessions).1 with
      | .item (.ok session) => decidedOnLookup? (Lookup.ofCurrent s session)
      | .item (.error _) => none
      | .ended => none
      | .pending => p.decidedOnCalls? s held
  | _, _ => none

/-- What happens when a pipeline goes on. -/
def occurrences (s : Surroundings) (held : AccountRef → Bool) (p : Pipeline) : List Occurrence :=
  ((p.taken? s).toList.map fun item => .consumed p.generation item s.store)
    ++ ((p.decided? s held).toList.map fun d => .decided p.generation d)
    ++ (p.step s held).2.1.toList.map fun o => .emitted o.generation o.result

end Pipeline

/-! ### Worlds -/

/-- What happened, with its instant, the latest last. -/
abbrev Chronicle := List (Nat × Occurrence)

/-- The engine and everything around it, and what happened so far. -/
structure World where
  now : Nat
  store : Store
  arrangement : Arrangement
  engine : Engine
  chronicle : Chronicle

namespace World

/-- An engine that was not started, over an empty store. -/
def new (config : EngineConfig) : World := ⟨0, .empty, .none, .new config, []⟩

/-- What a task finds around it. -/
def surroundings (w : World) : Surroundings := ⟨w.now, w.store, w.arrangement⟩

/-- Whether a move is possible: a task has to be able to go on. -/
def allows (w : World) : Move → Bool
  | .go task => w.engine.isReady w.surroundings task
  | _ => true

/-- The world after a move, with the chronicle as it was. -/
def move (w : World) : Move → World
  | .submit a => { w with engine := (w.engine.submit a).2.1 }
  | .trySubmit a =>
    match w.engine.trySubmit a with
    | .ok (_, engine) => { w with engine }
    | .error _ => w
  | .start =>
    match w.engine.start with
    | .ok engine => { w with engine }
    | .error _ => w
  | .stop => { w with engine := w.engine.stop }
  | .release => { w with engine := w.engine.release }
  | .store change => { w with store := change.apply w.store }
  | .arrange arrangement => { w with arrangement }
  | .pass ms => { w with now := w.now + ms }
  | .go task =>
    let (store, engine, _) := w.engine.step w.surroundings task
    { w with store, engine }

/-- What happens in a move. -/
def occurrences (w : World) : Move → List Occurrence
  | .submit a | .trySubmit a =>
    if w.engine.queue.closed then [] else [.accepted w.engine.queue.ticket a]
  | .go .controller => w.engine.controllerOccurrences
  | .go (.pipeline generation) =>
    match w.engine.pipeline? generation with
    | some p => p.occurrences w.surroundings w.engine.holds
    | none => []
  | _ => []

/-- The world after a move. -/
def after (w : World) (m : Move) : World :=
  { w.move m with chronicle := w.chronicle ++ (w.occurrences m).map (w.now, ·) }

/-- One move leads from a world to another, among those moves that are admitted there. -/
def Step (admitted : World → Move → Prop) (w w' : World) : Prop :=
  ∃ m, admitted w m ∧ w.allows m = true ∧ w' = w.after m

/-- Admitted moves lead from a world to another. -/
def Leads (admitted : World → Move → Prop) : World → World → Prop :=
  Relation.ReflTransGen (Step admitted)

/-- Every move is admitted. -/
def anyMove (_ : World) (_ : Move) : Prop := True

/-- Some run of an engine with this tuning leads to the world. -/
def Reached (config : EngineConfig) (w : World) : Prop := Leads anyMove (new config) w

/-- The world after several moves, one after the other. -/
def run (w : World) (moves : List Move) : World := moves.foldl after w

/-- Whether several moves are possible, one after the other. -/
def allowsRun (w : World) : List Move → Bool
  | [] => true
  | m :: rest => w.allows m && (w.after m).allowsRun rest

/-- Nobody can go on. -/
def AtRest (w : World) : Prop := ∀ task ∈ w.engine.tasks, w.engine.isReady w.surroundings task = false

theorem leads_run {admitted : World → Move → Prop} {w : World} {moves : List Move}
    (hm : ∀ v, ∀ m ∈ moves, admitted v m) (h : w.allowsRun moves = true) :
    Leads admitted w (w.run moves) := by
  induction moves generalizing w with
  | nil => exact .refl
  | cons m rest ih =>
    rw [allowsRun, Bool.and_eq_true] at h
    exact .head ⟨m, hm w m List.mem_cons_self, h.1, rfl⟩
      (ih (fun v m' h' => hm v m' (List.mem_cons_of_mem _ h')) h.2)

/-- A run that is possible reaches its last world. -/
theorem reached_run {config : EngineConfig} {moves : List Move}
    (h : (new config).allowsRun moves = true) : Reached config ((new config).run moves) :=
  leads_run (fun _ _ _ => trivial) h

end World

end CallWatch
