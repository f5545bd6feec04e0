import CallWatch.Decision

/-! # Holding stops back

Decisions pass a filter on their way out. An update passes at once and cancels a stop that is held
back. A stop is held back for the length of the window and passes only if nothing newer came. What
equals the last decision that came in, or the last one that passed, is dropped. -/

namespace CallWatch

/-- A filter of decisions with the stop that it holds back and the instant at which that is due. -/
structure Debounce where
  window : Nat
  lastOffered : Option Decision
  pending : Option (Decision × Nat)
  lastForwarded : Option Decision
  deriving DecidableEq, Repr

namespace Debounce

/-- The longest window in milliseconds, a day; longer ones are cut to it. -/
def maxWindow : Nat := 24 * 60 * 60 * 1000

/-- A filter with this window, or with the longest one. -/
def ofWindow (window : Nat) : Debounce := ⟨min window maxWindow, none, none, none⟩

/-- The decision passes, unless it equals the last one that did. -/
def forward (p : Debounce) (d : Decision) : Debounce × Option Decision :=
  if p.lastForwarded = some d then (p, none) else ({ p with lastForwarded := some d }, some d)

/-- A decision comes in at an instant; what passes at once comes out. -/
def offer (p : Debounce) (d : Decision) (now : Nat) : Debounce × Option Decision :=
  if p.lastOffered = some d then (p, none)
  else
    let p := { p with lastOffered := some d }
    if d.isStop && p.window != 0 then ({ p with pending := some (d, now + p.window) }, none)
    else forward { p with pending := none } d

/-- When the stop that is held back is due. -/
def deadline (p : Debounce) : Option Nat := p.pending.map (·.2)

/-- The stop that is held back passes if it is due. -/
def fire (p : Debounce) (now : Nat) : Debounce × Option Decision :=
  match p.pending with
  | some (d, due) => if due ≤ now then forward { p with pending := none } d else (p, none)
  | none => (p, none)

/-- The stop that is held back passes at once, because nothing more will come. -/
def flush (p : Debounce) : Debounce × Option Decision :=
  match p.pending with
  | some (d, _) => forward { p with pending := none } d
  | none => (p, none)

end Debounce

end CallWatch
