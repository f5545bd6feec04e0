import CallWatch.Stream.Inbox

/-! # Live values

A value that changes over time and is followed by subscribers. Each change counts, also one to an
equal value. A subscriber first finds the value as it is, and later the newest value if it changed
since the last look; what came in between is gone. A subscription ends when the value is given up,
after the last change was seen.

A *feed* is any source of items: a subscription, a prepared list, or silence. -/

namespace CallWatch

/-- A value and the number of its changes. -/
structure Live (α : Type) where
  value : α
  version : Nat
  deriving DecidableEq, Repr

namespace Live

variable {α : Type}

/-- A value that has not changed yet. -/
def start (value : α) : Live α := ⟨value, 0⟩

/-- The value changes. -/
def set (l : Live α) (value : α) : Live α := ⟨value, l.version + 1⟩

/-- The value is replaced and nobody is told. -/
def replace (l : Live α) (value : α) : Live α := { l with value }

/-- What a subscriber can take that last saw this version, if any. -/
def inbox (l : Live α) (seen : Option Nat) (given : Bool) : Inbox α :=
  ⟨if seen = some l.version then [] else [l.value], !given⟩

@[simp] theorem value_set (l : Live α) (v : α) : (l.set v).value = v := rfl

end Live

/-- A source of items. -/
inductive Feed (σ α : Type) where
  /-- A subscription to the live value at a place, and the version that was seen last. -/
  | live (place : σ) (seen : Option Nat)
  /-- These items and then the end. -/
  | script (items : List α)
  /-- Nothing, ever. -/
  | silent
  deriving DecidableEq, Repr

/-- Where live values are found: the value at a place, and whether it is still given. -/
structure Board (σ α : Type) where
  value : σ → Live α
  given : σ → Bool

namespace Feed

variable {σ α : Type}

/-- What can be taken from a feed. -/
def inbox (board : Board σ α) : Feed σ α → Inbox α
  | .live place seen => (board.value place).inbox seen (board.given place)
  | .script items => ⟨items, true⟩
  | .silent => .empty

/-- The feed after all but the last `left` items were taken. -/
def leave (board : Board σ α) (left : Nat) : Feed σ α → Feed σ α
  | .live place seen => if left = 0 then .live place (some (board.value place).version)
    else .live place seen
  | .script items => .script (items.drop (items.length - left))
  | .silent => .silent

/-- One look at a feed, and the feed afterwards. -/
def next (board : Board σ α) (feed : Feed σ α) : Look α × Feed σ α :=
  let b := feed.inbox board
  (b.look, feed.leave board (b.ready.length - 1))

/-- A subscription that has not looked yet. -/
def subscribe (place : σ) : Feed σ α := .live place none

/-- Whether the feed is a subscription to a live value. -/
def isLive : Feed σ α → Bool
  | .live .. => true
  | _ => false

end Feed

end CallWatch
