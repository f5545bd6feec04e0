import CallWatch.Queue.Buffer

/-! # Waiting for an action

Receivers that wait for the queue, and how they are woken. A wake-up for one goes to the receiver
that has waited longest, or is saved if nobody waits; a saved one serves the next receiver that
comes. A wake-up for all goes to everybody who waits and is not saved. A receiver that is given up
after it was woken alone hands its wake-up on.

A woken receiver looks at the buffer again and may go back to waiting. -/

namespace CallWatch

/-- Whether a waiting receiver was woken: not yet, alone, or with all others. -/
inductive Signal where
  | none
  | one
  | all
  deriving DecidableEq, Repr

/-- A receiver that waits. -/
structure Waiter where
  name : Nat
  signal : Signal
  deriving DecidableEq, Repr

/-- What a receiver finds. -/
inductive Received where
  | action (ticket : Ticket) (action : Action)
  | closed
  | pending
  deriving DecidableEq, Repr

/-- The queue with its waiting receivers, the longest waiting first. One receiver may be kept from
one look to the next. -/
structure Mailbox where
  queue : ActionQueue
  saved : Bool
  waiters : List Waiter
  kept : Option Nat
  nextName : Nat
  deriving DecidableEq, Repr

namespace Mailbox

/-- An empty queue for which nobody waits. -/
def empty (capacity : Nat) : Mailbox := ⟨.empty capacity, false, [], none, 0⟩

/-! ### Wake-ups -/

/-- The list with its first sleeping receiver woken, if there is one. -/
def wakeFirst : List Waiter → Option (List Waiter)
  | [] => none
  | w :: rest =>
    if w.signal = .none then some ({ w with signal := .one } :: rest)
    else (wakeFirst rest).map (w :: ·)

/-- Wake the receiver that has waited longest, or save the wake-up. -/
def wakeOne (m : Mailbox) : Mailbox :=
  match wakeFirst m.waiters with
  | some waiters => { m with waiters }
  | none => { m with saved := true }

/-- Wake everybody who waits. -/
def wakeAll (m : Mailbox) : Mailbox :=
  { m with
    waiters := m.waiters.map fun w => if w.signal = .none then { w with signal := .all } else w }

/-- The signal of a waiting receiver. -/
def signal? (m : Mailbox) (name : Nat) : Option Signal :=
  (m.waiters.find? (·.name == name)).map (·.signal)

/-- The waiting receivers without one of them. -/
def remove (m : Mailbox) (name : Nat) : Mailbox :=
  { m with waiters := m.waiters.filter (·.name != name) }

/-- A receiver is given up; a wake-up that was for it alone is handed on. -/
def giveUp (m : Mailbox) (name : Nat) : Mailbox :=
  match m.signal? name with
  | some .one => (m.remove name).wakeOne
  | _ => m.remove name

/-! ### Submitting and closing -/

/-- Accept an action or use a ticket up on it. -/
def enqueue (m : Mailbox) (a : Action) : Ticket × Mailbox :=
  match m.queue.tryEnqueue a with
  | .ok (ticket, queue) => (ticket, wakeOne { m with queue })
  | .error _ => (m.queue.ticket, { m with queue := m.queue.issue })

/-- Accept an action unless the queue is closed. -/
def tryEnqueue (m : Mailbox) (a : Action) : Except EngineError (Ticket × Mailbox) :=
  match m.queue.tryEnqueue a with
  | .ok (ticket, queue) => .ok (ticket, wakeOne { m with queue })
  | .error e => .error e

/-- Accept nothing from now on. -/
def close (m : Mailbox) : Mailbox := wakeOne (wakeAll { m with queue := m.queue.close })

/-! ### Receiving -/

/-- A receiver without a wake-up looks at the buffer, and waits if it finds nothing. -/
def look (m : Mailbox) (name : Nat) : Received × Mailbox :=
  match m.queue.pop with
  | some ((ticket, action), queue) => (.action ticket action, { m with queue })
  | none =>
    if m.queue.closed then (.closed, m)
    else (.pending, { m with saved := false, waiters := m.waiters ++ [⟨name, .none⟩] })

/-- A receiver comes: it takes a saved wake-up, then looks at the buffer. -/
def receive (m : Mailbox) (name : Nat) : Received × Mailbox := look { m with saved := false } name

/-- The kept receiver looks again, which only a wake-up lets it do; it goes when it found
something. -/
def poll (m : Mailbox) : Option Received × Mailbox :=
  match m.kept with
  | none => (none, m)
  | some name =>
    match m.signal? name with
    | some .none => (some .pending, m)
    | _ =>
      let (found, m) := (m.remove name).receive name
      (some found, if found = .pending then m else { m with kept := none })

/-- A receiver comes, looks once and goes. -/
def receiveOnce (m : Mailbox) : Received × Mailbox :=
  let (found, m') := m.receive m.nextName
  (found, { m'.giveUp m.nextName with nextName := m.nextName + 1 })

/-- The kept receiver is given up. -/
def forget (m : Mailbox) : Mailbox :=
  match m.kept with
  | none => m
  | some name => { m.giveUp name with kept := none }

/-- A receiver comes, looks once and is kept while it waits. The one that was kept before is given
up afterwards, if this one waits. -/
def wait (m : Mailbox) : Received × Mailbox :=
  let (found, m') := m.receive m.nextName
  if found = .pending then
    (found, { m'.forget with kept := some m.nextName, nextName := m.nextName + 1 })
  else (found, { m' with nextName := m.nextName + 1 })

/-- Receivers come and go until one finds nothing: everything that is buffered, in order. -/
def drain (m : Mailbox) : List (Ticket × Action) × Mailbox :=
  (m.queue.items, { m with saved := false, queue := { m.queue with items := [] } })

end Mailbox

end CallWatch
