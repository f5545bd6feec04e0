import CallWatch.Proofs.Engine.Slot
import CallWatch.Service.Machine

/-! # Runs of the services

One engine and any number of services that share it, one after the other or side by side. The host
builds services, calls them and drops them; it makes one call at a time. A start command takes three
steps: the placeholder, the submission of the action, and the subscription to its decisions. Between
any two steps the engine may go on, and so may the observers.

What the services do to the host is recorded, each occurrence under the number of the service. The
record is written from the moves and read by nobody. -/

namespace CallWatch

namespace Machine

/-- The engine and everything around it, without the services. -/
def world (m : Machine) (c : Chronicle) : World := ⟨m.now, m.store, m.arrangement, m.engine, c⟩

/-- The same services beside another world. -/
def beside (m : Machine) (w : World) : Machine :=
  { m with now := w.now, store := w.store, arrangement := w.arrangement, engine := w.engine }

/-- The placeholder is shown, which is the first step of a start command. -/
def showPlaceholder (m : Machine) : Machine := { m.tell .placeholder with state := .foreground }

/-- Every action that is submitted gets the next ticket, whether or not the queue is still open. -/
theorem submit_of_engine {m : Machine} (h : m.orchestrator = .engine) (a : Action) :
    m.submit a = (m.engine.queue.ticket,
      { m with engine := (m.engine.submit a).2.1 }.log (m.engine.submit a).2.2) := by
  have hticket : (m.engine.submit a).1 = m.engine.queue.ticket := by
    rcases hcl : m.engine.queue.closed with _ | _
    · simp [Engine.submit, ActionQueue.enqueue, ActionQueue.tryEnqueue_of_open hcl]
    · simp [Engine.submit, ActionQueue.enqueue, ActionQueue.tryEnqueue_of_closed hcl]
  rw [submit, h, ← hticket]

end Machine

/-! ### What happens to the host -/

/-- Something that a service did. -/
inductive HostOccurrence where
  /-- A service showed the placeholder of a start command. -/
  | shown (number : Nat)
  /-- A service submitted the action of a start command. -/
  | submitted (number : Nat) (ticket : Ticket)
  /-- An observer passed a decision on for its service. -/
  | mirrored (number : Nat) (publication : Published)
  /-- A service was destroyed or dropped. -/
  | ended (number : Nat)

namespace HostOccurrence

/-- The service that did it. -/
def number : HostOccurrence → Nat
  | .shown k | .submitted k _ | .mirrored k _ | .ended k => k

/-- What the host is told by it. -/
def event? : HostOccurrence → Option HostEvent
  | .shown _ => some .placeholder
  | .mirrored _ p => some (.ofResult p.result)
  | _ => none

/-- Whether it is a step of a start command. -/
def ofCommand : HostOccurrence → Bool
  | .shown _ | .submitted _ _ => true
  | _ => false

end HostOccurrence

/-- What the services did, the latest last. -/
abbrev HostRecord := List HostOccurrence

namespace HostRecord

/-- The services that submitted an action and its ticket, in order. -/
def submissions (r : HostRecord) : List (Nat × Ticket) :=
  r.filterMap fun x => match x with
    | .submitted k t => some (k, t)
    | _ => none

/-- The ticket of the first start command of a service. -/
def firstTicket (r : HostRecord) (k : Nat) : Option Ticket :=
  (r.submissions.find? (·.1 = k)).map (·.2)

/-- The decisions that were passed on for a service, in order. -/
def mirroredFor (r : HostRecord) (k : Nat) : List Published :=
  r.filterMap fun x => match x with
    | .mirrored j p => if j = k then some p else none
    | _ => none

@[simp] theorem submissions_append (r r' : HostRecord) :
    submissions (r ++ r') = submissions r ++ submissions r' := List.filterMap_append

@[simp] theorem mirroredFor_append (r r' : HostRecord) (k : Nat) :
    mirroredFor (r ++ r') k = mirroredFor r k ++ mirroredFor r' k := List.filterMap_append

theorem firstTicket_append (r r' : HostRecord) (k : Nat) :
    firstTicket (r ++ r') k = (firstTicket r k).or (firstTicket r' k) := by
  simp [firstTicket, List.find?_append, Option.map_or]

/-- Where no action is submitted the first tickets stay as they are. -/
theorem firstTicket_append_of_submissions_eq_nil (r : HostRecord) {r' : HostRecord}
    (h : submissions r' = []) (k : Nat) : firstTicket (r ++ r') k = firstTicket r k := by
  rw [firstTicket, submissions_append, h, List.append_nil, firstTicket]

theorem firstTicket_append_submitted (r : HostRecord) (j : Nat) (t : Ticket) (k : Nat) :
    firstTicket (r ++ [.submitted j t]) k =
      (firstTicket r k).or (if j = k then some t else none) := by
  rw [firstTicket_append]
  by_cases hj : j = k <;> simp [firstTicket, submissions, hj]

/-- Of a service that did nothing nothing is recorded. -/
theorem eq_none_of_number_ne {r : HostRecord} {k : Nat} (h : ∀ x ∈ r, x.number ≠ k) :
    firstTicket r k = none ∧ mirroredFor r k = [] := by
  constructor
  · refine Option.map_eq_none_iff.mpr (List.find?_eq_none.mpr ?_)
    rintro ⟨j, t⟩ ht hj
    obtain ⟨x, hx, hxt⟩ := List.mem_filterMap.mp ht
    cases x with
    | submitted j' t' =>
      cases hxt
      exact h _ hx (of_decide_eq_true hj)
    | _ => cases hxt
  · refine List.filterMap_eq_nil_iff.mpr fun x hx => ?_
    have hne := h x hx
    cases x with
    | mirrored j p => exact if_neg hne
    | _ => rfl

theorem mem_mirroredFor {r : HostRecord} {k : Nat} {p : Published} :
    p ∈ r.mirroredFor k ↔ .mirrored k p ∈ r := by
  refine ⟨fun h => ?_, fun h => List.mem_filterMap.mpr ⟨_, h, by simp⟩⟩
  obtain ⟨x, hx, hp⟩ := List.mem_filterMap.mp h
  cases x with
  | mirrored j q =>
    obtain ⟨rfl, rfl⟩ : j = k ∧ q = p := by simpa using hp
    exact hx
  | _ => simp at hp

end HostRecord

/-! ### The host and its services -/

/-- The start command that a service is at. -/
inductive StartCommand where
  /-- The placeholder is shown. -/
  | shown (number : Nat) (action : Option Action)
  /-- The action is submitted, too. -/
  | submitted (number : Nat) (ticket : Ticket)

namespace StartCommand

/-- The ticket that a service got and does not observe yet, unless it observes already. -/
def ticketOf? (k : Nat) : StartCommand → Option Ticket
  | .submitted j t => if j = k then some t else none
  | .shown .. => none

/-- The placeholder for which no action is submitted yet. -/
def open? : StartCommand → HostRecord
  | .shown k _ => [.shown k]
  | .submitted .. => []

end StartCommand

/-- The services of one engine: the machine that they share, what happened in the engine, the
services that were built and not dropped, the start command that one of them is at, and what they
did to the host. -/
structure Hosting where
  machine : Machine
  chronicle : Chronicle
  instances : List CallService
  command : Option StartCommand
  record : HostRecord

/-- What can happen next. -/
inductive HostMove where
  /-- The engine moves, or the store, or the clock. -/
  | around (move : Move)
  /-- A service is built. -/
  | build
  | create (number : Nat)
  /-- The placeholder of a start command is shown. -/
  | begin (number : Nat) (action : Option Action)
  /-- The action of the start command is submitted. -/
  | submit
  /-- The service observes the decisions for the action, unless it observes already. -/
  | subscribe
  | destroy (number : Nat)
  /-- A service is dropped. -/
  | discard (number : Nat)
  /-- An observer looks. -/
  | poll (observer : Nat)

/-- A service instead of the one with a number; none if it is dropped. -/
def CallService.put (k : Nat) (after : Option CallService) (all : List CallService) :
    List CallService :=
  match after with
  | some s => all.map fun x => if x.number = k then s else x
  | none => all.filter (·.number != k)

namespace Hosting

/-- No service yet, and an engine that was not started. -/
def new (config : EngineConfig) : Hosting := ⟨.new config .engine, [], [], none, []⟩

/-- The engine and everything around it. -/
def world (h : Hosting) : World := h.machine.world h.chronicle

/-- The service with a number. -/
def instance? (h : Hosting) (k : Nat) : Option CallService := h.instances.find? (·.number == k)

/-- A service is called, if it is there. -/
def call (h : Hosting) (k : Nat) (f : CallService → Machine → Machine)
    (command : Option StartCommand) (happened : HostRecord) : Hosting :=
  match h.instance? k with
  | none => h
  | some s =>
    let m := f s { h.machine with service := some s }
    { h with
      machine := m
      instances := CallService.put k m.service h.instances
      command
      record := h.record ++ happened }

/-- What an observer passes on when it looks. -/
def passedOn (h : Hosting) (n : Nat) : HostRecord :=
  match h.machine.observer? n with
  | none => []
  | some o =>
    (o.step h.machine.engine.slot h.machine.engine.slotGiven).2.toList.map (.mirrored o.service ·)

/-- Whether something can happen: calls of the host come one after the other, and the engine is not
given up while there is a service that holds it. -/
def allows (h : Hosting) : HostMove → Bool
  | .around .release => h.instances.isEmpty
  | .around m => h.world.allows m
  | .build => h.command.isNone && !h.machine.engine.released
  | .create _ | .begin _ _ | .destroy _ | .discard _ => h.command.isNone
  | .submit | .subscribe | .poll _ => true

/-- What becomes of the services. -/
def move (h : Hosting) : HostMove → Hosting
  | .around m =>
    let w := h.world.after m
    { h with machine := h.machine.beside w, chronicle := w.chronicle }
  | .build =>
    let m := { h.machine with service := none }.newService
    { h with machine := m, instances := h.instances ++ m.service.toList }
  | .create k => h.call k (fun _ m => m.onCreate) none []
  | .begin k action =>
    h.call k (fun _ m => m.showPlaceholder) (some (.shown k action)) [.shown k]
  | .submit =>
    match h.command with
    | some (.shown k action) =>
      let a := action.getD (.start .default)
      let (ticket, m) := h.machine.submit a
      { h with
        machine := m
        chronicle := (h.world.after (.submit a)).chronicle
        command := some (.submitted k ticket)
        record := h.record ++ [.submitted k ticket] }
    | _ => h
  | .subscribe =>
    match h.command with
    | some (.submitted k ticket) => h.call k (fun s m => m.observe s ticket) none []
    | _ => h
  | .destroy k => h.call k (fun s m => m.onDestroy s) none [.ended k]
  | .discard k => h.call k (fun _ m => m.dropService) none [.ended k]
  | .poll n =>
    { h with machine := h.machine.stepObserver n, record := h.record ++ h.passedOn n }

/-- Something that is possible leads from one state of the services to another. -/
def Step (h h' : Hosting) : Prop := ∃ m, h.allows m = true ∧ h' = h.move m

/-- Some run of services on an engine with this tuning leads here. -/
def Reached (config : EngineConfig) : Hosting → Prop :=
  Relation.ReflTransGen Step (new config)

/-- The services after several moves, one after the other. -/
def run (h : Hosting) (moves : List HostMove) : Hosting := moves.foldl move h

/-- Whether several moves are possible, one after the other. -/
def allowsRun (h : Hosting) : List HostMove → Bool
  | [] => true
  | m :: rest => h.allows m && (h.move m).allowsRun rest

theorem reached_run {config : EngineConfig} {h : Hosting} (hr : Reached config h)
    {moves : List HostMove} (ha : h.allowsRun moves = true) : Reached config (h.run moves) := by
  induction moves generalizing h with
  | nil => exact hr
  | cons m rest ih =>
    rw [allowsRun, Bool.and_eq_true] at ha
    exact ih (hr.tail ⟨m, ha.1, rfl⟩) ha.2

theorem call_of_some {h : Hosting} {k : Nat} {s : CallService} (hs : h.instance? k = some s)
    (f : CallService → Machine → Machine) (command : Option StartCommand) (happened : HostRecord) :
    h.call k f command happened = { h with
      machine := f s { h.machine with service := some s }
      instances := CallService.put k (f s { h.machine with service := some s }).service h.instances
      command
      record := h.record ++ happened } := by
  rw [call, hs]

/-- **The three steps of a start command, one directly after the other, are the start command.** -/
theorem machine_command {h : Hosting} {k : Nat} {s : CallService} (hs : h.instance? k = some s)
    (action : Option Action) :
    (h.run [.begin k action, .submit, .subscribe]).machine =
      ({ h.machine with service := some s }.onStartCommand s action).2 := by
  obtain ⟨-, hk⟩ := mem_of_found hs
  have hthere : (h.move (.begin k action)).instance? k = some s := by
    rw [move, call_of_some hs]
    exact found_replaced hs hk
  have hcommand : (h.move (.begin k action)).command = some (.shown k action) := by
    rw [move, call_of_some hs]
  have hmachine : (h.move (.begin k action)).machine =
      { h.machine with service := some s }.showPlaceholder := by
    rw [move, call_of_some hs]
  rw [run, List.foldl_cons, List.foldl_cons, List.foldl_cons, List.foldl_nil]
  generalize h.move (.begin k action) = h' at hthere hcommand hmachine
  have hsubmitted : (h'.move .submit).command =
      some (.submitted k (h'.machine.submit (action.getD (.start .default))).1) := by
    simp only [move, hcommand]
  have hthere' : (h'.move .submit).instance? k = some s := by
    simp only [move, hcommand]
    exact hthere
  have hmachine' : (h'.move .submit).machine =
      (h'.machine.submit (action.getD (.start .default))).2 := by
    simp only [move, hcommand]
  generalize h'.move .submit = h'' at hsubmitted hthere' hmachine'
  rw [move, hsubmitted]
  simp only [call_of_some hthere', hmachine', hmachine]
  have hservice (m : Machine) (hm : m.service = some s) (a : Action) :
      { (m.submit a).2 with service := some s } = (m.submit a).2 := by
    rw [← hm, Machine.submit]
    split <;> rfl
  rw [hservice _ rfl]
  rfl

end Hosting

end CallWatch
