import CallWatch.Proofs.Growth
import CallWatch.Proofs.Service.Duty

/-! # How steps of scenarios are taken

A step takes no time, registers nobody, and is refused exactly if it names somebody without an
account. Steps in the order of their instants are taken at these instants; in between the machine is
left alone. -/

namespace CallWatch

/-! ### Who has an account -/

/-- The user whose account a step changes. -/
def ScenarioStep.account? : ScenarioStep → Option UserId
  | .selfUser user => some user.id
  | .valid user _ => some user
  | .list _ user _ => some user
  | .failEstablished user _ => some user
  | .answerBehavior user _ _ _ => some user
  | .session _ | .failSession _ | .command _ | .destroy => none

namespace Store

theorem find?_congr {s s' : Store} (h : s'.directory = s.directory) (user : UserId) :
    s'.find? user = s.find? user := by
  rw [find?, find?, h]

theorem isSome_find?_registered (users : List SelfUser) (s : Store) (user : UserId) :
    ((users.foldl register s).find? user).isSome ↔
      user ∈ users.map (·.id) ∨ (s.find? user).isSome := by
  induction users generalizing s with
  | nil => simp
  | cons u users ih =>
    have hhead : ((s.register u).find? user).isSome ↔ user = u.id ∨ (s.find? user).isSome := by
      by_cases hu : user = u.id
      · simp [hu, find?_register]
      · rw [find?, register, List.lookup_cons, beq_false_of_ne hu, lookup_filter_ne hu, ← find?]
        simp [hu]
    rw [List.foldl_cons, ih, hhead, List.map_cons, List.mem_cons, or_assoc, or_left_comm]

end Store

namespace Machine

variable {m m' : Machine}

/-- Steps of tasks register nobody, and time passes without them. -/
theorem directory_idles (h : m.Idles m') : m'.store.directory = m.store.directory := by
  cases h with
  | queue line => rfl
  | clock instant hlater hdue => rfl
  | task t hready =>
    cases t with
    | observer n =>
      rw [step, stepObserver]
      split
      · rfl
      · dsimp only
        split <;> rfl
    | engine task =>
      cases task with
      | controller => rfl
      | pipeline g => rfl
      | answering n =>
        rcases ha : m.engine.answering? n with _ | a
        · simp [step, Engine.step, Engine.stepAnswering, ha, log, surroundings]
        · have hstore : (m.step (.engine (.answering n))).store =
              (a.step m.surroundings m.engine.holds).1 := by
            simp [step, Engine.step, Engine.stepAnswering, ha, log]
          rw [hstore]
          rcases a.store_step m.surroundings m.engine.holds with h | ⟨ref, h⟩ <;> rw [h] <;> rfl

theorem directory_waits (h : m.Waits m') : m'.store.directory = m.store.directory := by
  induction h with
  | refl => rfl
  | tail _ hidle ih => exact (directory_idles hidle).trans ih

/-! ### Taking steps -/

/-- Neither the time nor who has an account is another. -/
structure Frames (m m' : Machine) : Prop where
  now : m'.now = m.now
  directory : m'.store.directory = m.store.directory

theorem frames_startCommand (m : Machine) (s : CallService) (action : Option Action) :
    m.Frames (m.onStartCommand s action).2 := by
  have hsubmit (m : Machine) (a : Action) : m.Frames (m.submit a).2 := by
    unfold submit
    split <;> exact ⟨rfl, rfl⟩
  have hobserve (m : Machine) (ticket : Ticket) : m.Frames (m.observe s ticket) := by
    unfold observe
    split <;> exact ⟨rfl, rfl⟩
  let shown : Machine := { m.tell .placeholder with state := .foreground }
  have hsubmitted := hsubmit shown (action.getD (.start .default))
  have hobserved := hobserve (shown.submit (action.getD (.start .default))).2
    (shown.submit (action.getD (.start .default))).1
  exact ⟨hobserved.now.trans hsubmitted.now, hobserved.directory.trans hsubmitted.directory⟩

theorem frames_dropService (m : Machine) : m.Frames m.dropService := by
  unfold dropService
  split <;> exact ⟨rfl, rfl⟩

theorem frames_onAccount {user : UserId} {f : Account → Account}
    (h : m.onAccount user f = .ok m') : m.Frames m' := by
  unfold onAccount at h
  split at h
  · cases h
    exact ⟨rfl, rfl⟩
  · cases h

/-- **A step takes no time and registers nobody.** -/
theorem frames_take {step : ScenarioStep} (h : m.take step = .ok m') : m.Frames m' := by
  cases step with
  | session s =>
    cases h
    exact ⟨rfl, rfl⟩
  | failSession message =>
    cases h
    exact ⟨rfl, rfl⟩
  | selfUser user => exact frames_onAccount h
  | valid user valid => exact frames_onAccount h
  | list name user calls => exact frames_onAccount h
  | failEstablished user message => exact frames_onAccount h
  | answerBehavior user establishes delay fail => exact frames_onAccount h
  | command action =>
    have hservice : m.Frames (if m.service.isSome then m else m.newService.onCreate) := by
      split
      · exact ⟨rfl, rfl⟩
      · exact ⟨m.frames_dropService.now, m.frames_dropService.directory⟩
    unfold take at h
    dsimp only at h
    split at h
    · cases h
      have hcommand := frames_startCommand (if m.service.isSome then m else m.newService.onCreate)
        ‹_› action
      exact ⟨hcommand.now.trans hservice.now, hcommand.directory.trans hservice.directory⟩
    · cases h
      exact hservice
  | destroy =>
    unfold take at h
    dsimp only at h
    split at h
    · next s _ =>
      cases h
      exact ⟨(m.onDestroy s).frames_dropService.now, (m.onDestroy s).frames_dropService.directory⟩
    · cases h
      exact ⟨rfl, rfl⟩

theorem take_of_known {step : ScenarioStep}
    (h : ∀ user, step.account? = some user → (m.store.find? user).isSome) :
    ∃ m', m.take step = .ok m' := by
  have haccount {user : UserId} (huser : step.account? = some user) (f : Account → Account) :
      ∃ m', m.onAccount user f = .ok m' := by
    obtain ⟨ref, href⟩ := Option.isSome_iff_exists.1 (h user huser)
    rw [onAccount, href]
    exact ⟨_, rfl⟩
  cases step with
  | session s => exact ⟨_, rfl⟩
  | failSession message => exact ⟨_, rfl⟩
  | selfUser user => exact haccount rfl _
  | valid user valid => exact haccount rfl _
  | list name user calls => exact haccount rfl _
  | failEstablished user message => exact haccount rfl _
  | answerBehavior user establishes delay fail => exact haccount rfl _
  | command action =>
    unfold take
    dsimp only
    split <;> exact ⟨_, rfl⟩
  | destroy =>
    unfold take
    dsimp only
    split <;> exact ⟨_, rfl⟩

/-- A step for somebody without an account is refused. -/
theorem take_of_unknown {step : ScenarioStep} {user : UserId} (huser : step.account? = some user)
    (h : m.store.find? user = none) : m.take step = .error user := by
  have hrefused (f : Account → Account) : m.onAccount user f = .error user := by
    rw [onAccount, h]
  cases step <;> cases huser <;> exact hrefused _

/-- Steps are taken one after another, each at its instant. Up to there the machine is left alone,
and after the step whoever can go on is in line. -/
inductive Takes : Machine → List TimedStep → Machine → Prop
  | done (m : Machine) : Takes m [] m
  | step {m m₁ m₂ m' : Machine} {t : TimedStep} {rest : List TimedStep}
      (hwait : m.Waits m₁) (hnow : m₁.now = t.instant) (htake : m₁.take t.step = .ok m₂)
      (hrest : Takes m₂.enroll rest m') : Takes m (t :: rest) m'

theorem Takes.onDuty {steps : List TimedStep} (h : m.Takes steps m') (hm : m.OnDuty) :
    m'.OnDuty := by
  induction h with
  | done => exact hm
  | step hwait _ htake _ ih => exact ih (((hm.waits hwait).take htake).idles (.queue _))

/-- **Steps in the order of their instants are taken at their instants.** -/
theorem takes_takeAll {before : List TimedStep} (rest : List TimedStep)
    (hsorted : before.Pairwise fun a b => a.instant ≤ b.instant)
    (hnow : ∀ t ∈ before, m.now ≤ t.instant)
    (hknown : ∀ t ∈ before, ∀ user, t.step.account? = some user → (m.store.find? user).isSome) :
    ∃ last, m.Takes before last ∧ m.takeAll (before ++ rest) = last.takeAll rest ∧
      last.now = (before.getLast?.map (·.instant)).getD m.now ∧
      last.store.directory = m.store.directory := by
  induction before generalizing m with
  | nil => exact ⟨m, .done m, rfl, rfl, rfl⟩
  | cons t before ih =>
    obtain ⟨hlater, hsorted⟩ := List.pairwise_cons.1 hsorted
    obtain ⟨hwait, hinstant⟩ := waits_moveTo (hnow t List.mem_cons_self)
    have hdirectory := directory_waits hwait
    obtain ⟨m₂, htake⟩ := take_of_known (m := m.moveTo t.instant) fun user huser => by
      rw [Store.find?_congr hdirectory]
      exact hknown t List.mem_cons_self user huser
    have hframes := frames_take htake
    have hnow₂ : m₂.enroll.now = t.instant := hframes.now.trans hinstant
    have hdirectory₂ : m₂.enroll.store.directory = m.store.directory :=
      hframes.directory.trans hdirectory
    obtain ⟨last, htakes, hall, hlast, hkept⟩ := ih (m := m₂.enroll) hsorted
      (fun b hb => hnow₂ ▸ hlater b hb) fun b hb user huser => by
        rw [Store.find?_congr hdirectory₂]
        exact hknown b (List.mem_cons_of_mem _ hb) user huser
    refine ⟨last, .step hwait hinstant htake htakes, ?_, ?_, hkept.trans hdirectory₂⟩
    · rw [List.cons_append, takeAll, htake]
      exact hall
    · rw [hlast, hnow₂, List.getLast?_cons]
      cases before.getLast? <;> rfl

/-- To end takes no time. -/
theorem now_close (m : Machine) : m.close.now = m.now := by
  unfold close
  dsimp only
  split
  · next s _ => exact (waits_settle _).2.trans (m.onDestroy s).frames_dropService.now
  · exact (waits_settle _).2

end Machine

end CallWatch
