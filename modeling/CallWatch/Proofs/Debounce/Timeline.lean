import CallWatch.Proofs.Debounce
import Mathlib.Data.List.Destutter

/-! # The timeline of a debounce

Decisions come in one after the other, none before the one in front of it. A stop that is held back
passes at its deadline if nothing comes in up to that instant, and at the very end otherwise. What
passes, and when, is `Debounce.follow`. The same is told without any state (`reference`): of the
decisions that came in, take those that changed something, leave out the stops that did not last,
give what is left its instant, and take again those that change something.

* `outlook`: what the reference still has to tell in the middle of a run, from what the debounce
  remembers.
* `Follows`: the stop that is held back is the one that the reference has not decided on.
* `Follows.expire`, `Follows.offer`: what passes next is what the outlook begins with.
* `follow_eq_reference`: the two timelines are the same. -/

namespace CallWatch

namespace Debounce

/-! ### What passes, and when -/

/-- The stop that is held back passes at its deadline, if that is before an instant. -/
def expire (p : Debounce) (now : ℕ) : Debounce × List (Decision × ℕ) :=
  match p.deadline with
  | some due => if due < now then ((p.fire due).1, (p.fire due).2.toList.map (·, due)) else (p, [])
  | none => (p, [])

/-- What passes of decisions that come in at their instants, with the instants at which it passes.
What is held back at the end passes then. -/
def follow (p : Debounce) (atEnd : ℕ) : List (Decision × ℕ) → List (Decision × ℕ)
  | [] => p.flush.2.toList.map (·, atEnd)
  | (d, now) :: rest =>
    (p.expire now).2 ++ ((p.expire now).1.offer d now).2.toList.map (·, now) ++
      ((p.expire now).1.offer d now).1.follow atEnd rest

/-! ### The same without state -/

/-- The decisions that differ from the one before. -/
def changes (l : List (Decision × ℕ)) : List (Decision × ℕ) := l.destutter fun x y => x.1 ≠ y.1

/-- All but the stops that another decision follows within the window. -/
def lasting (window : ℕ) : List (Decision × ℕ) → List (Decision × ℕ)
  | [] => []
  | [x] => [x]
  | x :: y :: rest =>
    if x.1.isStop = true ∧ y.2 ≤ x.2 + window then lasting window (y :: rest)
    else x :: lasting window (y :: rest)

/-- An update is shown when it comes in. A stop is shown when the window is over, or at the end if
nothing comes in later than that. -/
def shown (window atEnd : ℕ) (offers : List (Decision × ℕ)) (x : Decision × ℕ) : Decision × ℕ :=
  if x.1.isStop = true then
    (x.1, if ∃ y ∈ offers, x.2 + window < y.2 then x.2 + window else atEnd)
  else x

/-- What is to be shown of decisions that come in, and when. -/
def reference (window atEnd : ℕ) (offers : List (Decision × ℕ)) : List (Decision × ℕ) :=
  changes ((lasting window (changes offers)).map (shown window atEnd offers))

/-! ### Changes behind a decision -/

/-- The decisions that differ from the one before, if this one came before all of them. -/
def changesFrom (last : Option Decision) : List (Decision × ℕ) → List (Decision × ℕ)
  | [] => []
  | x :: rest =>
    if last = some x.1 then changesFrom last rest else x :: changesFrom (some x.1) rest

theorem destutter'_eq (x : Decision × ℕ) (l : List (Decision × ℕ)) :
    l.destutter' (fun x y => x.1 ≠ y.1) x = x :: changesFrom (some x.1) l := by
  induction l generalizing x with
  | nil => rfl
  | cons y rest ih =>
    by_cases h : x.1 = y.1
    · rw [List.destutter'_cons_neg _ (not_not.mpr h), ih x, changesFrom, if_pos (congrArg some h)]
    · rw [List.destutter'_cons_pos _ h, ih y, changesFrom, if_neg (by simpa using h)]

theorem changesFrom_none (l : List (Decision × ℕ)) : changesFrom none l = changes l := by
  cases l with
  | nil => rfl
  | cons x rest =>
    rw [changes, List.destutter_cons', destutter'_eq]
    simp [changesFrom]

theorem changesFrom_repeat {d : Decision} (now : ℕ) (l : List (Decision × ℕ)) :
    changesFrom (some d) ((d, now) :: l) = changesFrom (some d) l := by
  simp [changesFrom]

theorem changesFrom_new {last : Option Decision} {d : Decision} (h : last ≠ some d) (now : ℕ)
    (l : List (Decision × ℕ)) :
    changesFrom last ((d, now) :: l) = (d, now) :: changesFrom (some d) l := by
  simp [changesFrom, h]

theorem mem_of_mem_changesFrom {last : Option Decision} {l : List (Decision × ℕ)}
    {x : Decision × ℕ} (h : x ∈ changesFrom last l) : x ∈ l := by
  induction l generalizing last with
  | nil => exact h
  | cons y rest ih =>
    rw [changesFrom] at h
    split at h
    · exact .tail _ (ih h)
    · rcases List.mem_cons.mp h with rfl | h
      · exact .head _
      · exact .tail _ (ih h)

/-- A decision that is let through is shown if it is a change. -/
theorem forward_changes (p : Debounce) (d : Decision) (now : ℕ) (l : List (Decision × ℕ)) :
    (p.forward d).2.toList.map (·, now) ++ changesFrom (p.forward d).1.lastForwarded l =
      changesFrom p.lastForwarded ((d, now) :: l) := by
  rcases p.forward_cases d with ⟨hlast, hf⟩ | ⟨hlast, hf⟩ <;> rw [hf]
  · rw [hlast, changesFrom_repeat]
    rfl
  · rw [changesFrom_new hlast]
    rfl

/-! ### Stops that last -/

/-- An update stays, and a stop stays if what comes behind it is late. -/
theorem lasting_stays {window : ℕ} {x : Decision × ℕ} {l : List (Decision × ℕ)}
    (h : x.1.isStop = false ∨ ∀ y ∈ l, x.2 + window < y.2) :
    lasting window (x :: l) = x :: lasting window l := by
  cases l with
  | nil => rfl
  | cons y rest =>
    rw [lasting, if_neg]
    rintro ⟨hstop, hle⟩
    rcases h with h | h
    · simp [h] at hstop
    · have := h y (.head _)
      omega

theorem lasting_goes {window : ℕ} {x y : Decision × ℕ} (l : List (Decision × ℕ))
    (hx : x.1.isStop = true) (h : y.2 ≤ x.2 + window) :
    lasting window (x :: y :: l) = lasting window (y :: l) := by
  rw [lasting, if_pos ⟨hx, h⟩]

/-! ### In the middle of a run -/

/-- What is still to be shown in the middle of a run: of the stop that is held back, with the instant
at which it came in, and of what comes in from now on. -/
def outlook (p : Debounce) (atEnd : ℕ) (offers : List (Decision × ℕ))
    (held : Option (Decision × ℕ)) (rest : List (Decision × ℕ)) : List (Decision × ℕ) :=
  changesFrom p.lastForwarded
    ((lasting p.window (held.toList ++ changesFrom p.lastOffered rest)).map
      (shown p.window atEnd offers))

/-- A debounce in the middle of a run. It holds back this stop since the instant at which it came in,
and nothing came in since that is later than its window. -/
structure Follows (p : Debounce) (held : Option (Decision × ℕ))
    (past rest : List (Decision × ℕ)) : Prop where
  sound : p.Sound
  opened : p.window ≠ 0
  pending : p.pending = held.map fun x => (x.1, x.2 + p.window)
  within : ∀ x ∈ held, ∀ y ∈ past, y.2 ≤ x.2 + p.window
  ordered : (past ++ rest).Pairwise fun x y => x.2 ≤ y.2

namespace Follows

variable {p : Debounce} {atEnd now : ℕ} {held : Option (Decision × ℕ)} {d : Decision}
  {past rest : List (Decision × ℕ)}

theorem held_of_some {x : Decision × ℕ} (h : p.Follows (some x) past rest) :
    p.lastOffered = some x.1 ∧ x.1.isStop = true := h.sound.held _ _ h.pending

/-- What came in is not later than what comes in. -/
theorem past_le (h : p.Follows held past ((d, now) :: rest)) {y : Decision × ℕ} (hy : y ∈ past) :
    y.2 ≤ now :=
  (List.pairwise_append.mp h.ordered).2.2 y hy (d, now) (.head _)

theorem le_rest (h : p.Follows held past ((d, now) :: rest)) {y : Decision × ℕ}
    (hy : y ∈ (d, now) :: rest) : now ≤ y.2 := by
  have hrest := (List.pairwise_append.mp h.ordered).2.1
  rcases List.mem_cons.mp hy with rfl | hy
  · exact Nat.le_refl _
  · exact (List.pairwise_cons.mp hrest).1 y hy

/-- At the end, what is held back passes. -/
theorem finish (h : p.Follows held past []) :
    p.follow atEnd [] = p.outlook atEnd past held [] := by
  cases held with
  | none =>
    have hpending : p.pending = none := h.pending
    simp [follow, flush, hpending, outlook, changesFrom, lasting]
  | some x =>
    -- Nothing came in later than the window.
    have hlate : ¬ ∃ y ∈ past, x.2 + p.window < y.2 := by
      rintro ⟨y, hy, hlt⟩
      have := h.within x rfl y hy
      omega
    have hpending : p.pending = some (x.1, x.2 + p.window) := h.pending
    have hflush : p.flush = { p with pending := none }.forward x.1 := by simp [flush, hpending]
    have hshown : shown p.window atEnd past x = (x.1, atEnd) := by
      simp [shown, h.held_of_some.2, hlate]
    rw [follow, hflush, outlook, Option.toList_some, changesFrom, List.append_nil, lasting,
      List.map_singleton, hshown, ← forward_changes { p with pending := none } x.1 atEnd []]
    simp [changesFrom]

/-- Before a decision comes in, a stop passes that was due earlier. What is held back then is not due
before the decision. -/
theorem expire (h : p.Follows held past ((d, now) :: rest)) (atEnd : ℕ) :
    ∃ held', (p.expire now).1.Follows held' past ((d, now) :: rest) ∧
      (∀ x ∈ held', now ≤ x.2 + (p.expire now).1.window) ∧
      p.outlook atEnd (past ++ (d, now) :: rest) held ((d, now) :: rest) =
        (p.expire now).2 ++
          (p.expire now).1.outlook atEnd (past ++ (d, now) :: rest) held' ((d, now) :: rest) := by
  cases held with
  | none =>
    have hpending : p.pending = none := h.pending
    have hexpire : p.expire now = (p, []) := by simp [Debounce.expire, deadline, hpending]
    rw [hexpire]
    exact ⟨none, h, by simp, rfl⟩
  | some x =>
    have hpending : p.pending = some (x.1, x.2 + p.window) := h.pending
    have hdeadline : p.deadline = some (x.2 + p.window) := by simp [deadline, hpending]
    obtain ⟨hlast, hstop⟩ := h.held_of_some
    by_cases hdue : x.2 + p.window < now
    · have hfire : p.fire (x.2 + p.window) = { p with pending := none }.forward x.1 := by
        simp [fire, hpending]
      have hexpire : p.expire now = (({ p with pending := none }.forward x.1).1,
          ({ p with pending := none }.forward x.1).2.toList.map (·, x.2 + p.window)) := by
        simp only [Debounce.expire, hdeadline, if_pos hdue, hfire]
      rw [hexpire]
      refine ⟨none, ⟨.forward rfl hlast, ?_, ?_, by simp, h.ordered⟩, by simp, ?_⟩
      · rw [window_forward]
        exact h.opened
      · rw [pending_forward]
        rfl
      -- The stop lasts, since everything behind it is late, and is shown after its window.
      · have hlate : ∀ y ∈ changesFrom p.lastOffered ((d, now) :: rest), x.2 + p.window < y.2 :=
          fun y hy => Nat.lt_of_lt_of_le hdue (h.le_rest (mem_of_mem_changesFrom hy))
        have hshown : shown p.window atEnd (past ++ (d, now) :: rest) x =
            (x.1, x.2 + p.window) := by
          rw [shown, if_pos hstop, if_pos ⟨(d, now), by simp, hdue⟩]
        simp only [outlook, window_forward, lastOffered_forward, Option.toList_some,
          Option.toList_none, List.singleton_append, List.nil_append]
        rw [lasting_stays (.inr hlate), List.map_cons, hshown, forward_changes]
    · have hexpire : p.expire now = (p, []) := by
        simp only [Debounce.expire, hdeadline, if_neg hdue]
      rw [hexpire]
      refine ⟨some x, h, fun y hy => ?_, rfl⟩
      cases hy
      exact Nat.not_lt.mp hdue

/-- A decision comes in, and nothing that is held back was due before it. What passes at once is what
is to be shown next. -/
theorem offer (h : p.Follows held past ((d, now) :: rest))
    (hdue : ∀ x ∈ held, now ≤ x.2 + p.window) (atEnd : ℕ) (offers : List (Decision × ℕ)) :
    ∃ held', (p.offer d now).1.Follows held' (past ++ [(d, now)]) rest ∧
      p.outlook atEnd offers held ((d, now) :: rest) =
        (p.offer d now).2.toList.map (·, now) ++
          (p.offer d now).1.outlook atEnd offers held' rest := by
  have hordered : (past ++ [(d, now)] ++ rest).Pairwise fun x y => x.2 ≤ y.2 := by
    simpa using h.ordered
  have hpast : ∀ y ∈ past ++ [(d, now)], y.2 ≤ now := by
    intro y hy
    rcases List.mem_append.mp hy with hy | hy
    · exact h.past_le hy
    · rw [List.mem_singleton.mp hy]
  -- A stop that was held back up to now does not last behind a decision that is new.
  have hgone (l : List (Decision × ℕ)) : lasting p.window (held.toList ++ (d, now) :: l) =
      lasting p.window ((d, now) :: l) := by
    cases held with
    | none => rfl
    | some x => exact lasting_goes l h.held_of_some.2 (hdue x rfl)
  rcases p.offer_cases d now with ⟨hlast, heq⟩ | ⟨hnew, hstop, hw, heq⟩ | ⟨hnew, hpass, heq⟩
  · rw [heq]
    refine ⟨held, ⟨h.sound, h.opened, h.pending, fun x hx y hy => ?_, hordered⟩, ?_⟩
    · exact Nat.le_trans (hpast y hy) (hdue x hx)
    · simp only [outlook, hlast, changesFrom_repeat]
      rfl
  · refine ⟨some (d, now), ⟨h.sound.offer d now, ?_, ?_, fun x hx y hy => ?_, hordered⟩, ?_⟩
    · rw [window_offer]
      exact h.opened
    · rw [heq]
      rfl
    · cases hx
      exact Nat.le_add_right_of_le (hpast y hy)
    · rw [heq]
      simp only [outlook, changesFrom_new hnew, hgone]
      rfl
  · have hupdate : d.isStop = false := hpass.resolve_right h.opened
    refine ⟨none, ⟨h.sound.offer d now, ?_, ?_, by simp, hordered⟩, ?_⟩
    · rw [window_offer]
      exact h.opened
    · rw [heq, pending_forward]
      rfl
    · have hshown : shown p.window atEnd offers (d, now) = (d, now) := by simp [shown, hupdate]
      rw [heq]
      simp only [outlook, changesFrom_new hnew, hgone, window_forward, lastOffered_forward,
        Option.toList_none, List.nil_append]
      rw [lasting_stays (.inl hupdate), List.map_cons, hshown, forward_changes]

/-- **What passes from now on is the outlook.** -/
theorem follow_eq (h : p.Follows held past rest) :
    p.follow atEnd rest = p.outlook atEnd (past ++ rest) held rest := by
  induction rest generalizing p held past with
  | nil =>
    rw [List.append_nil]
    exact h.finish
  | cons x rest ih =>
    obtain ⟨d, now⟩ := x
    obtain ⟨held₁, h₁, hdue, hexpire⟩ := h.expire atEnd
    obtain ⟨held₂, h₂, hoffer⟩ := h₁.offer hdue atEnd (past ++ (d, now) :: rest)
    have hrest := ih h₂
    rw [List.append_assoc, List.singleton_append] at hrest
    rw [hexpire, hoffer, ← hrest, follow, List.append_assoc]

end Follows

/-- **The debounce has the timeline that is told without state.** For every window but the empty one,
cut to a day, and all decisions that come in in the order of their instants: what passes, and when,
is what is left of the decisions that changed something without the stops that another decision
followed within the window, an update at its own instant, a stop when its window is over or at the
end, and of these the ones that changed something. -/
theorem follow_eq_reference (window atEnd : ℕ) (offers : List (Decision × ℕ)) (hw : 0 < window)
    (hordered : offers.Pairwise fun x y => x.2 ≤ y.2) :
    (ofWindow window).follow atEnd offers = reference (min window maxWindow) atEnd offers := by
  have hopened : (ofWindow window).window ≠ 0 := by
    simp only [ofWindow, maxWindow]
    omega
  have h : (ofWindow window).Follows none [] offers :=
    ⟨.ofWindow window, hopened, rfl, by simp, hordered⟩
  rw [h.follow_eq, List.nil_append, reference, ← changesFrom_none, ← changesFrom_none]
  rfl

/-- A call is shown. It goes and is back just when the window is over; it goes and stays away for
longer, which is told twice; then two reasons to stop follow each other closely. -/
def flickers : List (Decision × ℕ) :=
  [(.update default, 0), (.stop .noCalls, 5), (.update default, 15), (.stop .noCalls, 20),
    (.stop .noCalls, 40), (.stop .noValidSession, 45), (.stop .noCalls, 50),
    (.stop .noValidSession, 55)]

theorem follow_eq_reference_flickers :
    0 < 10 ∧ (flickers.Pairwise fun x y => x.2 ≤ y.2) ∧
      (ofWindow 10).follow 100 flickers = reference 10 100 flickers ∧
      reference 10 100 flickers =
        [(.update default, 0), (.stop .noCalls, 30), (.stop .noValidSession, 100)] :=
  ⟨by decide, by decide, follow_eq_reference 10 100 flickers (by decide) (by decide), by decide⟩

end Debounce

end CallWatch
