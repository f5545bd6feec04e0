import CallWatch.Proofs.Debounce
import Mathlib.Data.List.Chain

/-! # The debounce loses nothing and repeats nothing

Decisions are offered to a debounce, it is asked for the stop that it holds back, and it is told that
nothing more will come, in any order and at any instants, also with a clock that goes back. What was
offered and what passed are two lists (`offered`, `serveAll`), and every request keeps what the
debounce remembers in agreement with their ends (`Recalls`).

* `Recalls.serve`: the step, one request; `Recalls.serveAll`: a whole run.
* `neither_loses_nor_repeats`: what is told from the two lists alone. -/

namespace CallWatch

/-- What is asked of a debounce. -/
inductive DebounceRequest where
  | offer (d : Decision) (now : Nat)
  | fire (now : Nat)
  | flush
  deriving DecidableEq, Repr

namespace Debounce

open DebounceRequest

/-- A request is answered with what passes. -/
def serve (p : Debounce) : DebounceRequest → Debounce × Option Decision
  | .offer d now => p.offer d now
  | .fire now => p.fire now
  | .flush => p.flush

/-- Requests are answered one after the other with what passes, in order. -/
def serveAll (p : Debounce) : List DebounceRequest → Debounce × List Decision
  | [] => (p, [])
  | r :: rest =>
    let (p', passed) := (p.serve r).1.serveAll rest
    (p', (p.serve r).2.toList ++ passed)

/-- The decision that a request brings. -/
def offered? : DebounceRequest → Option Decision
  | .offer d _ => some d
  | _ => none

/-- The decisions that requests bring, in order. -/
def offered (requests : List DebounceRequest) : List Decision := requests.filterMap offered?

variable {p : Debounce}

/-! ### One request -/

theorem ne_of_forward {d d' : Decision} (h : (p.forward d).2 = some d') :
    p.lastForwarded ≠ some d' := by
  rcases p.forward_cases d with ⟨-, hf⟩ | ⟨hne, hf⟩ <;> rw [hf] at h <;> cases h
  exact hne

/-- Whatever is asked, either nothing passes and what passed last is as before, or a decision is let
through. -/
theorem serve_forwards (p : Debounce) (r : DebounceRequest) :
    (p.serve r).2 = none ∧ (p.serve r).1.lastForwarded = p.lastForwarded ∨
      ∃ (q : Debounce) (d : Decision), q.lastForwarded = p.lastForwarded ∧
        p.serve r = q.forward d := by
  cases r with
  | offer d now =>
    rcases p.offer_cases d now with ⟨-, heq⟩ | ⟨-, -, -, heq⟩ | ⟨-, -, heq⟩
    · exact .inl ⟨congrArg (·.2) heq, congrArg (·.1.lastForwarded) heq⟩
    · exact .inl ⟨congrArg (·.2) heq, congrArg (·.1.lastForwarded) heq⟩
    · exact .inr ⟨{ p with lastOffered := some d, pending := none }, d, rfl, heq⟩
  | fire now =>
    rcases p.fire_cases now with ⟨heq, -⟩ | ⟨d, due, -, -, heq⟩
    · exact .inl ⟨congrArg (·.2) heq, congrArg (·.1.lastForwarded) heq⟩
    · exact .inr ⟨{ p with pending := none }, d, rfl, heq⟩
  | flush =>
    rcases p.flush_cases with ⟨-, heq⟩ | ⟨d, due, -, heq⟩
    · exact .inl ⟨congrArg (·.2) heq, congrArg (·.1.lastForwarded) heq⟩
    · exact .inr ⟨{ p with pending := none }, d, rfl, heq⟩

/-- What passes is remembered, and was not what passed before it. -/
theorem serve_passes (p : Debounce) (r : DebounceRequest) :
    (p.serve r).1.lastForwarded = (p.serve r).2.or p.lastForwarded ∧
      ∀ d, (p.serve r).2 = some d → p.lastForwarded ≠ some d := by
  rcases p.serve_forwards r with ⟨hnone, hlast⟩ | ⟨q, d, hq, heq⟩
  · simp [hnone, hlast]
  · rw [heq, forward_passes, ← hq]
    exact ⟨rfl, fun d' => ne_of_forward⟩

theorem Sound.serve (h : p.Sound) (r : DebounceRequest) : (p.serve r).1.Sound := by
  cases r with
  | offer d now => exact h.offer d now
  | fire now => exact h.fire now
  | flush => exact h.flush

/-- What was offered last is remembered. -/
theorem lastOffered_serve (p : Debounce) (r : DebounceRequest) :
    (p.serve r).1.lastOffered = (offered? r).or p.lastOffered := by
  cases r with
  | offer d now => exact p.lastOffered_offer d now
  | fire now => exact p.lastOffered_fire now
  | flush =>
    rcases p.flush_cases with ⟨-, heq⟩ | ⟨d, due, -, heq⟩
    · exact congrArg (·.1.lastOffered) heq
    · exact (congrArg (·.1.lastOffered) heq).trans (lastOffered_forward _ d)

@[simp] theorem window_serve (p : Debounce) (r : DebounceRequest) :
    (p.serve r).1.window = p.window := by
  cases r with
  | offer d now => exact p.window_offer d now
  | fire now => exact p.window_fire now
  | flush =>
    rcases p.flush_cases with ⟨-, heq⟩ | ⟨d, due, -, heq⟩
    · exact congrArg (·.1.window) heq
    · exact (congrArg (·.1.window) heq).trans (window_forward _ d)

/-- Nothing is held back after the end. -/
@[simp] theorem pending_flush (p : Debounce) : p.flush.1.pending = none := by
  rcases p.flush_cases with ⟨hnone, heq⟩ | ⟨d, due, -, heq⟩
  · rw [heq, hnone]
  · rw [heq, pending_forward]

/-- Without a window nothing is held back. -/
theorem pending_serve_of_window (hp : p.window = 0) (hnone : p.pending = none)
    (r : DebounceRequest) : (p.serve r).1.pending = none := by
  cases r with
  | offer d now =>
    rcases p.offer_cases d now with ⟨-, heq⟩ | ⟨-, -, hw, -⟩ | ⟨-, -, heq⟩
    · exact (congrArg (·.1.pending) heq).trans hnone
    · exact absurd hp hw
    · exact (congrArg (·.1.pending) heq).trans (pending_forward _ d)
  | fire now =>
    rcases p.fire_cases now with ⟨heq, -⟩ | ⟨d, due, hpending, -⟩
    · exact (congrArg (·.1.pending) heq).trans hnone
    · simp [hnone] at hpending
  | flush => exact p.pending_flush

/-- The stop that is held back passes when it is due, and not before. -/
theorem deadline_le_of_fire {now : Nat} {d : Decision} (h : (p.fire now).2 = some d) :
    ∃ due, p.deadline = some due ∧ due ≤ now := by
  rcases p.fire_cases now with ⟨heq, -⟩ | ⟨d', due, hpending, hdue, -⟩
  · rw [heq] at h
    cases h
  · exact ⟨due, by simp [deadline, hpending], hdue⟩

/-! ### A run -/

/-- The debounce recalls how what was offered to it and what passed ended. -/
structure Recalls (p : Debounce) (offered passed : List Decision) : Prop where
  sound : p.Sound
  unheld : p.window = 0 → p.pending = none
  lastOffered : p.lastOffered = offered.getLast?
  lastForwarded : p.lastForwarded = passed.getLast?
  apart : passed.IsChain (· ≠ ·)

theorem Recalls.ofWindow (window : Nat) : (ofWindow window).Recalls [] [] :=
  ⟨.ofWindow window, fun _ => rfl, rfl, rfl, .nil⟩

theorem getLast?_append_toList {α : Type} (l : List α) (o : Option α) :
    (l ++ o.toList).getLast? = o.or l.getLast? := by
  cases o <;> simp

/-- **Every request keeps the recollection.** -/
theorem Recalls.serve {offered passed : List Decision} (h : p.Recalls offered passed)
    (r : DebounceRequest) :
    (p.serve r).1.Recalls (offered ++ (offered? r).toList) (passed ++ (p.serve r).2.toList) := by
  obtain ⟨hpasses, hne⟩ := p.serve_passes r
  constructor
  case sound => exact h.sound.serve r
  case unheld =>
    intro hw
    rw [window_serve] at hw
    exact pending_serve_of_window hw (h.unheld hw) r
  case lastOffered => rw [lastOffered_serve, getLast?_append_toList, h.lastOffered]
  case lastForwarded => rw [hpasses, getLast?_append_toList, h.lastForwarded]
  case apart =>
    rw [List.isChain_append]
    refine ⟨h.apart, by cases (p.serve r).2 <;> simp, fun x hx y hy => ?_⟩
    -- What passes now differs from what passed last.
    have hy : (p.serve r).2 = some y := by simpa using hy
    have hlast := hne y hy
    rw [h.lastForwarded, Option.mem_def.mp hx] at hlast
    simpa using hlast

theorem Recalls.serveAll {offered passed : List Decision} (h : p.Recalls offered passed)
    (requests : List DebounceRequest) :
    (p.serveAll requests).1.Recalls (offered ++ Debounce.offered requests)
      (passed ++ (p.serveAll requests).2) := by
  induction requests generalizing p offered passed with
  | nil => simpa [Debounce.serveAll, Debounce.offered] using h
  | cons r rest ih =>
    have hrest := ih (h.serve r)
    rw [List.append_assoc, List.append_assoc] at hrest
    have hoffered : Debounce.offered (r :: rest) = (offered? r).toList ++ Debounce.offered rest := by
      rw [Debounce.offered, List.filterMap_cons]
      cases offered? r <;> rfl
    rw [hoffered]
    exact hrest

theorem window_serveAll (p : Debounce) (requests : List DebounceRequest) :
    (p.serveAll requests).1.window = p.window := by
  induction requests generalizing p with
  | nil => rfl
  | cons r rest ih => exact (ih _).trans (p.window_serve r)

/-- **The debounce neither loses nor repeats a decision.** Whatever the window is and whatever was
asked, at whatever instants:

* if nothing is held back, what passed last is what was offered last;
* what is held back is a stop, it was offered last, and there is a window;
* no decision passes twice in a row;
* a stop that is held back passes when it is asked for at its deadline or later, and not before;
* once the debounce is told that nothing more will come, what passed last is what was offered last. -/
theorem neither_loses_nor_repeats (window : Nat) (requests : List DebounceRequest) :
    let p := ((ofWindow window).serveAll requests).1
    let passed := ((ofWindow window).serveAll requests).2
    (p.pending = none → passed.getLast? = (offered requests).getLast?) ∧
    (∀ d due, p.pending = some (d, due) →
      d.isStop = true ∧ (offered requests).getLast? = some d ∧ window ≠ 0) ∧
    passed.IsChain (· ≠ ·) ∧
    (∀ now d, (p.fire now).2 = some d → ∃ due, p.deadline = some due ∧ due ≤ now) ∧
    p.flush.1.pending = none ∧
    (passed ++ p.flush.2.toList).getLast? = (offered requests).getLast? := by
  intro p passed
  have h : p.Recalls (offered requests) passed := (Recalls.ofWindow window).serveAll requests
  refine ⟨fun hnone => ?_, fun d due hpending => ?_, h.apart, fun now d => deadline_le_of_fire,
    p.pending_flush, ?_⟩
  · rw [← h.lastForwarded, ← h.lastOffered, h.sound.passed hnone]
  · obtain ⟨hlast, hstop⟩ := h.sound.held d due hpending
    refine ⟨hstop, h.lastOffered ▸ hlast, fun hw => ?_⟩
    have hzero : p.window = 0 := (window_serveAll _ requests).trans (by simp [ofWindow, hw])
    simp [h.unheld hzero] at hpending
  · have hflush := h.serve .flush
    rw [show offered? .flush = none from rfl, Option.toList_none, List.append_nil] at hflush
    exact hflush.lastForwarded.symm.trans
      ((hflush.sound.passed p.pending_flush).trans hflush.lastOffered)

end Debounce

end CallWatch
