import CallWatch.Failure

/-! # The action queue

A bounded buffer of actions. Submitting never waits: when the buffer is full the oldest action makes
room, so the newest directive always survives. Every accepted action gets the next ticket; an action
submitted after the end is discarded, but uses a ticket up all the same. -/

namespace CallWatch

/-- Buffered actions with their tickets, the oldest first. -/
structure ActionQueue where
  capacity : Nat
  items : List (Ticket × Action)
  closed : Bool
  nextTicket : Nat
  deriving DecidableEq, Repr

namespace ActionQueue

/-- The capacity unless another is asked for. -/
def defaultCapacity : Nat := 16

/-- An empty queue. It has room for one action at least. -/
def empty (capacity : Nat) : ActionQueue := ⟨max capacity 1, [], false, 1⟩

/-- The ticket that is issued next. -/
def ticket (q : ActionQueue) : Ticket := ⟨q.nextTicket⟩

/-- The queue after its next ticket was used up. -/
def issue (q : ActionQueue) : ActionQueue := { q with nextTicket := q.nextTicket + 1 }

/-- The buffer with one action more, the oldest one gone if there was no room. -/
def buffer (q : ActionQueue) (item : Ticket × Action) : ActionQueue :=
  { q with items := (if q.capacity ≤ q.items.length then q.items.drop 1 else q.items) ++ [item] }

/-- Accept an action, unless the queue is closed. -/
def tryEnqueue (q : ActionQueue) (a : Action) : Except EngineError (Ticket × ActionQueue) :=
  if q.closed then .error .queueClosed else .ok (q.ticket, (q.buffer (q.ticket, a)).issue)

/-- Accept an action, or use a ticket up on it. -/
def enqueue (q : ActionQueue) (a : Action) : Ticket × ActionQueue :=
  match q.tryEnqueue a with
  | .ok accepted => accepted
  | .error _ => (q.ticket, q.issue)

/-- The oldest action and the queue without it. -/
def pop (q : ActionQueue) : Option ((Ticket × Action) × ActionQueue) :=
  match q.items with
  | [] => none
  | item :: rest => some (item, { q with items := rest })

/-- Accept nothing from now on. What is buffered stays. -/
def close (q : ActionQueue) : ActionQueue := { q with closed := true }

theorem tryEnqueue_of_open {q : ActionQueue} (h : q.closed = false) (a : Action) :
    q.tryEnqueue a = .ok (q.ticket, (q.buffer (q.ticket, a)).issue) := by
  simp [tryEnqueue, h]

theorem tryEnqueue_of_closed {q : ActionQueue} (h : q.closed = true) (a : Action) :
    q.tryEnqueue a = .error .queueClosed := by
  simp [tryEnqueue, h]

@[simp] theorem items_empty (capacity : Nat) : (empty capacity).items = [] := rfl

@[simp] theorem items_close (q : ActionQueue) : q.close.items = q.items := rfl

theorem length_buffer_le {q : ActionQueue} (item : Ticket × Action) (hc : 1 ≤ q.capacity)
    (h : q.items.length ≤ q.capacity) : (q.buffer item).items.length ≤ q.capacity := by
  simp only [buffer, List.length_append, List.length_cons, List.length_nil]
  split
  · rw [List.length_drop]; omega
  · omega

end ActionQueue

end CallWatch
