import CallWatch.Scenario
import Mathlib.Logic.Relation

/-! # How a scenario runs

A scenario runs a machine step by step: tasks that can go on do so, actions are submitted, and in the
end the engine is told to end. All the rest, from the clock to the services and the line of tasks,
leaves the engine and the journal as they are. Whatever each of these steps keeps is kept by the run
of every scenario. -/

namespace CallWatch

namespace Machine

/-- One step of a machine. -/
inductive Goes (m : Machine) : Machine → Prop
  /-- A task goes on. -/
  | task (t : MachineTask) (hready : m.isReady t = true) : Goes m (m.step t)
  /-- An action is submitted. -/
  | submit (a : Action) : Goes m (m.submit a).2
  /-- The engine is told to end. -/
  | shutdown : Goes m m.shutdown
  /-- Something happens around the engine. -/
  | around (m' : Machine) (hengine : m'.engine = m.engine) (hjournal : m'.journal = m.journal) :
      Goes m m'

/-- A machine comes from another one step by step. -/
abbrev GoesOn : Machine → Machine → Prop := Relation.ReflTransGen Goes

variable {m m' m'' : Machine}

theorem GoesOn.around (hengine : m'.engine = m.engine) (hjournal : m'.journal = m.journal) :
    m.GoesOn m' := .single (.around m' hengine hjournal)

/-- What every step keeps is kept all along. -/
theorem GoesOn.keeps {I : Machine → Prop} (h : m.GoesOn m') (hm : I m)
    (hstep : ∀ m m', I m → m.Goes m' → I m') : I m' := by
  induction h with
  | refl => exact hm
  | tail _ hgo ih => exact hstep _ _ ih hgo

/-! ### Turns and time -/

theorem goesOn_enroll (m : Machine) : m.GoesOn m.enroll := .around rfl rfl

theorem goesOn_turn (m : Machine) : m.GoesOn m.turn := by
  unfold turn
  split
  · exact .refl
  · split
    · next hready => exact .trans (.single (.task _ hready)) (goesOn_enroll _)
    · exact .around rfl rfl

theorem goesOn_run (turns : Nat) (m : Machine) : m.GoesOn (m.run turns) := by
  induction turns generalizing m with
  | zero => exact .refl
  | succ turns ih =>
    unfold run
    split
    · exact .refl
    · exact m.goesOn_turn.trans (ih m.turn)

theorem goesOn_settle (m : Machine) : m.GoesOn m.settle :=
  m.goesOn_enroll.trans (goesOn_run _ _)

theorem goesOn_advance (stops instant : Nat) (m : Machine) : m.GoesOn (advance stops instant m) := by
  have hclock (m : Machine) (t : Nat) : m.GoesOn { m with now := t } := .around rfl rfl
  induction stops generalizing m with
  | zero => exact (hclock m instant).trans (goesOn_enroll _)
  | succ stops ih =>
    unfold advance
    split
    · exact (hclock m instant).trans (goesOn_enroll _)
    · next t hdue => exact ((hclock m t).trans (goesOn_settle _)).trans (ih _)

theorem goesOn_moveTo (m : Machine) (instant : Nat) : m.GoesOn (m.moveTo instant) := by
  unfold moveTo
  split
  · exact .refl
  · exact m.goesOn_settle.trans (goesOn_advance _ _ _)

/-! ### Services -/

theorem goesOn_dropService (m : Machine) : m.GoesOn m.dropService := by
  unfold dropService
  split
  · exact .refl
  · exact .around rfl rfl

theorem goesOn_newService (m : Machine) : m.GoesOn m.newService :=
  m.goesOn_dropService.trans (GoesOn.around rfl rfl)

theorem goesOn_onStartCommand (m : Machine) (s : CallService) (action : Option Action) :
    m.GoesOn (m.onStartCommand s action).2 := by
  let shown := { m.tell .placeholder with state := .foreground }
  have hshown : m.GoesOn shown := .around rfl rfl
  have hsubmit : shown.GoesOn (shown.submit (action.getD (.start .default))).2 :=
    .single (.submit _)
  have hobserve (m : Machine) (ticket : Ticket) : m.GoesOn (m.observe s ticket) := by
    unfold observe
    split
    · exact .refl
    · exact .around rfl rfl
  exact (hshown.trans hsubmit).trans (hobserve _ _)

theorem goesOn_destroy (m : Machine) (s : CallService) :
    m.GoesOn (m.onDestroy s).dropService := by
  have hdestroy : m.GoesOn (m.onDestroy s) := .around rfl rfl
  exact hdestroy.trans (goesOn_dropService _)

/-! ### Scenarios -/

theorem goesOn_onAccount {user : UserId} {f : Account → Account}
    (h : m.onAccount user f = .ok m') : m.GoesOn m' := by
  unfold onAccount at h
  split at h
  · cases h
    exact .around rfl rfl
  · cases h

theorem goesOn_take {step : ScenarioStep} (h : m.take step = .ok m') : m.GoesOn m' := by
  cases step with
  | session s =>
    cases h
    exact .around rfl rfl
  | failSession message =>
    cases h
    exact .around rfl rfl
  | selfUser user => exact goesOn_onAccount h
  | valid user valid => exact goesOn_onAccount h
  | list name user calls => exact goesOn_onAccount h
  | failEstablished user message => exact goesOn_onAccount h
  | answerBehavior user establishes delay fail => exact goesOn_onAccount h
  | command action =>
    have hservice : m.GoesOn (if m.service.isSome then m else m.newService.onCreate) := by
      split
      · exact .refl
      · exact m.goesOn_newService.trans (GoesOn.around rfl rfl)
    unfold take at h
    dsimp only at h
    split at h
    · cases h
      exact hservice.trans (goesOn_onStartCommand _ _ action)
    · cases h
      exact hservice
  | destroy =>
    unfold take at h
    dsimp only at h
    split at h
    · cases h
      exact goesOn_destroy m _
    · cases h
      exact .refl

theorem goesOn_takeAll (m : Machine) (steps : List TimedStep) : m.GoesOn (m.takeAll steps).1 := by
  induction steps generalizing m with
  | nil => exact .refl
  | cons t rest ih =>
    have hmove := m.goesOn_moveTo t.instant
    unfold takeAll
    dsimp only
    split
    · next m' htake =>
      exact ((hmove.trans (goesOn_take htake)).trans m'.goesOn_enroll).trans (ih _)
    · exact hmove

theorem goesOn_close (m : Machine) : m.GoesOn m.close := by
  have hend (m : Machine) : m.GoesOn m.shutdown.settle :=
    .trans (.single .shutdown) (goesOn_settle _)
  unfold close
  dsimp only
  split
  · exact (goesOn_destroy m _).trans (hend _)
  · exact hend m

end Machine

/-- **A scenario runs its machine step by step.** -/
theorem Scenario.goesOn_run (s : Scenario) (config : EngineConfig) :
    (s.machine config).GoesOn (s.run config).1 := by
  have htake := (s.machine config).goesOn_takeAll s.ordered
  unfold run
  split
  · next m user heq =>
    rw [heq] at htake
    exact htake
  · next m heq =>
    rw [heq] at htake
    exact (htake.trans (m.goesOn_moveTo _)).trans (Machine.goesOn_close _)

end CallWatch
