/-! # What a stream holds ready

A stream is looked at from time to time. What a look can take is its inbox: the items that are
there, the oldest first, and whether nothing comes behind them. -/

namespace CallWatch

/-- The items that can be taken from a stream, and whether it ends behind them. -/
structure Inbox (α : Type) where
  ready : List α
  closed : Bool
  deriving DecidableEq, Repr

/-- What one look at a stream finds. -/
inductive Look (α : Type) where
  | item (a : α)
  | ended
  | pending
  deriving DecidableEq, Repr

namespace Inbox

variable {α β : Type}

/-- A stream with nothing in it yet. -/
def empty : Inbox α := ⟨[], false⟩

/-- The inbox with one item more behind the others. A closed one takes no more. -/
def push (b : Inbox α) (a : α) : Inbox α :=
  if b.closed then b else { b with ready := b.ready ++ [a] }

/-- Nothing comes behind the items that are there. -/
def close (b : Inbox α) : Inbox α := { b with closed := true }

/-- The inbox with every item changed. -/
def map (f : α → β) (b : Inbox α) : Inbox β := ⟨b.ready.map f, b.closed⟩

/-- One look: the oldest item, or the end, or nothing yet. -/
def look (b : Inbox α) : Look α :=
  match b.ready with
  | a :: _ => .item a
  | [] => if b.closed then .ended else .pending

/-- A look would find something. -/
def stirs (b : Inbox α) : Bool := !b.ready.isEmpty || b.closed

end Inbox

end CallWatch
