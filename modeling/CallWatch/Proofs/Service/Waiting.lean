import CallWatch.Scenario
import Mathlib.Logic.Relation

/-! # Machines that are left alone

A machine waits when nobody submits, starts or ends anything: its tasks go on and its clock moves,
but never past an instant that a task waits for. Asking for a later instant is such a wait, and it
ends exactly there. -/

namespace CallWatch

namespace Machine

/-- One step of a machine that is left alone. -/
inductive Idles (m : Machine) : Machine → Prop
  /-- A task goes on. -/
  | task (t) (hready : m.isReady t = true) : Idles m (m.step t)
  /-- Tasks line up or leave the line. -/
  | queue (line) : Idles m { m with line }
  /-- The clock moves on, as far as nobody waits for an instant before. -/
  | clock (instant) (hlater : m.now ≤ instant)
      (hdue : ∀ d ∈ m.engine.dues, m.now < d → instant ≤ d) : Idles m { m with now := instant }

/-- A machine comes from another one that was left alone. -/
abbrev Waits : Machine → Machine → Prop := Relation.ReflTransGen Idles

variable {m m' : Machine} {instant : Nat}

theorem waits_enroll (m : Machine) : m.Waits m.enroll := .single (.queue _)

theorem now_step (m : Machine) (t : MachineTask) : (m.step t).now = m.now := by
  cases t with
  | engine task => rfl
  | observer n =>
    rw [step, stepObserver]
    split
    · rfl
    · dsimp only
      split <;> rfl

theorem waits_turn (m : Machine) : m.Waits m.turn ∧ m.turn.now = m.now := by
  unfold turn
  split
  · exact ⟨.refl, rfl⟩
  · split
    · next t _ _ hready =>
      exact ⟨.trans (.single (.task _ hready)) (waits_enroll _), m.now_step t⟩
    · exact ⟨.single (.queue _), rfl⟩

theorem waits_run (turns : Nat) (m : Machine) :
    m.Waits (run turns m) ∧ (run turns m).now = m.now := by
  induction turns generalizing m with
  | zero => exact ⟨.refl, rfl⟩
  | succ turns ih =>
    unfold run
    split
    · exact ⟨.refl, rfl⟩
    · exact ⟨m.waits_turn.1.trans (ih m.turn).1, (ih m.turn).2.trans m.waits_turn.2⟩

theorem waits_settle (m : Machine) : m.Waits m.settle ∧ m.settle.now = m.now :=
  ⟨m.waits_enroll.trans (waits_run _ _).1, (waits_run _ _).2⟩

/-- The next stop is not later than anything that is waited for. -/
theorem due_of_nextDue? (instant : Nat) {d : Nat} (hd : d ∈ m.engine.dues) (hlater : m.now < d) :
    (m.nextDue? instant).getD instant ≤ d := by
  unfold nextDue?
  by_cases hlimit : d < instant
  · have hmem : d ∈ m.engine.dues.filter fun t => m.now < t && t < instant := by
      simp [hd, hlater, hlimit]
    cases hmin : (m.engine.dues.filter fun t => m.now < t && t < instant).min? with
    | none => simp [List.min?_eq_none_iff.1 hmin] at hmem
    | some t => exact (List.min?_eq_some_iff.1 hmin).2 d hmem
  · cases hmin : (m.engine.dues.filter fun t => m.now < t && t < instant).min? with
    | none => exact Nat.le_of_not_lt hlimit
    | some t =>
      have hmem := (List.min?_eq_some_iff.1 hmin).1
      simp only [List.mem_filter, Bool.and_eq_true, decide_eq_true_eq] at hmem
      exact Nat.le_trans (Nat.le_of_lt hmem.2.2) (Nat.le_of_not_lt hlimit)

/-- There are stops enough: each is at least a millisecond after the one before. -/
theorem waits_advance {stops : Nat} (hnow : m.now ≤ instant) (hstops : instant ≤ m.now + stops) :
    m.Waits (advance stops instant m) ∧ (advance stops instant m).now = instant := by
  induction stops generalizing m with
  | zero =>
    have hdue : ∀ d ∈ m.engine.dues, m.now < d → instant ≤ d := fun d _ hd => by omega
    exact ⟨.trans (.single (.clock instant hnow hdue)) (waits_enroll _), rfl⟩
  | succ stops ih =>
    have hdue (d : Nat) (hd : d ∈ m.engine.dues) (hlater : m.now < d) :=
      due_of_nextDue? instant hd hlater
    unfold advance
    split
    · next hnone =>
      rw [hnone] at hdue
      exact ⟨.trans (.single (.clock instant hnow hdue)) (waits_enroll _), rfl⟩
    · next t hnext =>
      rw [hnext] at hdue
      have hmem := (List.min?_eq_some_iff.1 hnext).1
      simp only [List.mem_filter, Bool.and_eq_true, decide_eq_true_eq] at hmem
      obtain ⟨-, hafter, hbefore⟩ := hmem
      obtain ⟨hsettle, hsettled⟩ := waits_settle { m with now := t }
      replace hsettled : ({ m with now := t } : Machine).settle.now = t := hsettled
      have hrest := ih (m := { m with now := t }.settle) (by omega) (by omega)
      exact ⟨.trans (.single (.clock t (by omega) hdue)) (hsettle.trans hrest.1), hrest.2⟩

theorem moveTo_of_le (h : instant ≤ m.now) : m.moveTo instant = m := if_pos h

/-- **Asking for an instant is waiting for it.** -/
theorem waits_moveTo (h : m.now ≤ instant) :
    m.Waits (m.moveTo instant) ∧ (m.moveTo instant).now = instant := by
  rcases Nat.lt_or_eq_of_le h with hlt | heq
  · obtain ⟨hsettle, hnow⟩ := m.waits_settle
    have hmove : m.moveTo instant = advance (instant - m.now) instant m.settle :=
      if_neg (Nat.not_le.2 hlt)
    obtain ⟨hadvance, hend⟩ : m.settle.Waits (advance (instant - m.now) instant m.settle) ∧
        (advance (instant - m.now) instant m.settle).now = instant :=
      waits_advance (by omega) (by omega)
    rw [hmove]
    exact ⟨hsettle.trans hadvance, hend⟩
  · rw [moveTo_of_le (Nat.le_of_eq heq.symm)]
    exact ⟨.refl, heq⟩

end Machine

end CallWatch
