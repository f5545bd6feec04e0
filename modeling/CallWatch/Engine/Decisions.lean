import CallWatch.Failure
import CallWatch.Stream.Live

/-! # Published decisions

The latest decision stands in a slot that observers follow. Publishing counts as a change and wakes
them; clearing does not. A stream of decisions shows the decision in the slot, then every later one
that was not replaced before it was seen, and leaves out those for actions older than it cares
for. -/

namespace CallWatch

/-- A decision, or the failure to come to one. -/
abbrev DecisionResult := Except CallError Decision

/-- A published decision: its number, the action that it is for, and what was decided. -/
structure Published where
  seq : Nat
  ticket : Ticket
  result : DecisionResult

/-- The place of the latest decision. -/
abbrev Slot := Live (Option Published)

namespace Slot

/-- No decision yet. -/
def empty : Slot := .start none

/-- A decision is published. -/
def publish (s : Slot) (p : Published) : Slot := s.set (some p)

/-- The decision is forgotten, and nobody is told. -/
def clear (s : Slot) : Slot := s.replace none

@[simp] theorem value_clear (s : Slot) : s.clear.value = none := rfl

@[simp] theorem version_clear (s : Slot) : s.clear.version = s.version := rfl

@[simp] theorem value_publish (s : Slot) (p : Published) : (s.publish p).value = some p := rfl

end Slot

/-- A subscriber: what it cares for, and the version of the slot that it saw last. -/
structure DecisionStream where
  since : Ticket
  seen : Option Nat
  deriving DecidableEq, Repr

namespace DecisionStream

/-- A subscriber that has not looked yet. -/
def startingAt (since : Ticket) : DecisionStream := ⟨since, none⟩

/-- The slot changed since the last look. -/
def isStale (d : DecisionStream) (slot : Slot) : Bool := d.seen != some slot.version

/-- The decision in the slot, if the subscriber cares for it. -/
def wanted (d : DecisionStream) (slot : Slot) : Option Published :=
  slot.value.filter fun p => d.since ≤ p.ticket

/-- One look: a decision that was not seen, the end if the slot is given up, or nothing yet. -/
def poll (d : DecisionStream) (slot : Slot) (given : Bool) : Look Published × DecisionStream :=
  if d.isStale slot then
    match d.wanted slot with
    | some p => (.item p, { d with seen := some slot.version })
    | none => (if given then .pending else .ended, { d with seen := some slot.version })
  else (if given then .pending else .ended, d)

/-- Looks until one finds nothing new: the decisions that were found, and the subscriber unless its
stream ended. There is one decision at most, because the slot holds one. -/
def drain (d : DecisionStream) (slot : Slot) (given : Bool) :
    List Published × Option DecisionStream :=
  match d.poll slot given with
  | (.item p, d) => ([p], if given then some d else none)
  | (.ended, _) => ([], none)
  | (.pending, d) => ([], some d)

end DecisionStream

end CallWatch
