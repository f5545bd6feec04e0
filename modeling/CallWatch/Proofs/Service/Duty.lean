import CallWatch.Proofs.Engine.Delivery
import CallWatch.Proofs.Service.Staff
import CallWatch.Proofs.Service.Waiting

/-! # Engine and service on duty

While a machine waits its engine keeps running, and the service that there is, if any, keeps its
observer. The steps of a scenario leave it so as well: a command gives a new service its observer at
once, and a service that ends is no longer there. -/

namespace CallWatch

/-! ### Running engines -/

namespace Engine

/-- The engine was started and not told to end, it takes actions, and somebody outside holds it. -/
structure IsRunning (e : Engine) : Prop where
  working : e.IsWorking
  started : e.controller ≠ .unstarted
  accepts : e.queue.closed = false
  held : e.released = false

variable {e e' : Engine}

theorem IsRunning.of_eq (h : e.IsRunning) (hs : e'.shutdown = e.shutdown)
    (hc : e'.controller = e.controller) (hq : e'.queue.closed = e.queue.closed)
    (hr : e'.released = e.released) : e'.IsRunning :=
  ⟨h.working.of_eq hs hc, hc ▸ h.started, hq.trans h.accepts, hr.trans h.held⟩

/-- With the controller listening, or doing an errand other than to leave. -/
theorem IsRunning.of_controller (h : e.IsRunning) (hs : e'.shutdown = e.shutdown)
    (hc : e'.controller = .listening ∨ ∃ g errand, errand ≠ .leave ∧
      e'.controller = .retiring g errand) (hq : e'.queue.closed = e.queue.closed)
    (hr : e'.released = e.released) : e'.IsRunning := by
  refine ⟨⟨hs.trans h.working.shutdown, ?_, ?_⟩, ?_, hq.trans h.accepts, hr.trans h.held⟩
  all_goals
    rcases hc with hc | ⟨g, errand, herrand, hc⟩
    · simp [hc]
    · simp [hc, herrand]

theorem IsRunning.slotGiven (h : e.IsRunning) : e.slotGiven = true := by
  simp [Engine.slotGiven, h.held]

theorem IsRunning.controls {happened : List Occurrence} (h : e.IsRunning)
    (hcontrols : e.Controls e' happened) : e'.IsRunning := by
  have hbegin (e : Engine) (t : Ticket) (how : StartAction) :
      (e.begin t how).queue = e.queue ∧ (e.begin t how).released = e.released := by
    cases how <;> exact ⟨rfl, rfl⟩
  have hopen : ¬ (e.shutdown = true ∨ e.queue.items = [] ∧ e.queue.closed = true) := by
    simp [h.working.shutdown, h.accepts]
  cases hcontrols with
  | idle => exact h
  | drop => exact h.of_eq rfl rfl rfl rfl
  | pass => exact h.of_eq rfl rfl rfl rfl
  | fail => exact h.of_controller rfl (.inr ⟨_, _, by simp, rfl⟩) rfl rfl
  | leave _ _ hend => exact absurd hend hopen
  | quit _ hend => exact absurd hend hopen
  | take => exact h.of_controller rfl (.inr ⟨_, _, by simp, rfl⟩) rfl rfl
  | takeStop _ _ hc => exact h.of_controller rfl (.inl hc) rfl rfl
  | takeStart t how rest hc =>
    refine h.of_controller (by simp [withoutFirst]) (.inl (by simp [withoutFirst, hc])) ?_ ?_
    · rw [(hbegin _ t how).1]
      rfl
    · rw [(hbegin _ t how).2]
      rfl
  | handleStop => exact h.of_controller rfl (.inl rfl) rfl rfl
  | handleStart g t how =>
    refine h.of_controller (by simp [listening]) (.inl (by simp [listening])) ?_ ?_
    · rw [(hbegin _ t how).1]
      rfl
    · rw [(hbegin _ t how).2]
      rfl
  | resume => exact h.of_controller rfl (.inl rfl) rfl rfl
  | finish g hc => exact absurd hc (h.working.leaving g)

/-- **A task of a running engine leaves it running.** -/
theorem IsRunning.step (h : e.IsRunning) (s : Surroundings) (task : Task) :
    (e.step s task).2.1.IsRunning := by
  cases task with
  | controller => exact h.controls e.controls
  | answering n =>
    rw [Engine.step, stepAnswering]
    split
    · exact h
    · exact h.of_eq rfl rfl rfl rfl
  | pipeline g =>
    rcases hp : e.pipeline? g with _ | p
    · simpa [Engine.step, stepPipeline, hp] using h
    · have hstep : (e.step s (.pipeline g)).2.1 = (e.stepPipeline s g).1 := rfl
      rw [hstep, stepPipeline_eq hp]
      exact h.of_eq rfl rfl rfl rfl

theorem IsRunning.submit (h : e.IsRunning) (a : Action) : (e.submit a).2.1.IsRunning := by
  refine h.of_eq rfl rfl ?_ rfl
  rw [Engine.submit, ActionQueue.enqueue, ActionQueue.tryEnqueue_of_open h.accepts]
  rfl

end Engine

namespace Machine

variable {m m' : Machine}

/-! ### Services that observe -/

/-- The service that there is, and all observers. -/
def staff (m : Machine) : Staff := ⟨m.service.toList, m.observers, m.services⟩

/-- The engine runs, and the service that there is, if any, was not cancelled and has an observer
that was not either. -/
structure IsAtWork (m : Machine) : Prop where
  engine : m.engine.IsRunning
  service : ∀ s, m.service = some s → s.cancelled = false ∧
    ∃ o ∈ m.observers, s.observer = some o.number ∧ o.service = s.number ∧ o.cancelled = false

/-- What keeps engine and service at work: the staff is in order, and the service that there is has
begun to observe. -/
structure OnDuty (m : Machine) : Prop where
  engine : m.engine.IsRunning
  orderly : m.staff.Orderly
  serving : ∀ s ∈ m.service, s.cancelled = false ∧ s.observer.isSome

namespace OnDuty

theorem of_eq (h : m.OnDuty) (he : m'.engine.IsRunning) (hstaff : m'.staff = m.staff)
    (hservice : m'.service = m.service) : m'.OnDuty :=
  ⟨he, hstaff ▸ h.orderly, hservice ▸ h.serving⟩

/-- **Who is on duty is at work.** -/
theorem isAtWork (h : m.OnDuty) : m.IsAtWork := by
  refine ⟨h.engine, fun s hs => ?_⟩
  obtain ⟨hc, hobserver⟩ := h.serving s hs
  obtain ⟨n, hn⟩ := Option.isSome_iff_exists.1 hobserver
  have hmem : s ∈ m.staff.instances := Option.mem_toList.2 hs
  obtain ⟨o, ho, rfl, hserved⟩ := h.orderly.attended s hmem hc n hn
  exact ⟨hc, o, ho, hn, hserved, (h.orderly.loyal o ho s hmem hserved.symm).1.trans hc⟩

/-- **An observer of a service that was not cancelled goes on observing.** -/
theorem stepObserver (h : m.OnDuty) (n : Nat) : (m.stepObserver n).OnDuty := by
  rcases ho : m.observer? n with _ | o
  · simpa [Machine.stepObserver, ho] using h
  obtain ⟨hmem, rfl⟩ := mem_of_found ho
  rcases hstep : o.step m.engine.slot m.engine.slotGiven with ⟨after, found⟩
  have hafter : (m.stepObserver o.number).engine = m.engine ∧
      (m.stepObserver o.number).service = m.service ∧
      (m.stepObserver o.number).staff = m.staff.putObserver o.number after := by
    simp only [Machine.stepObserver, ho, hstep]
    cases found <;> cases after <;> exact ⟨rfl, rfl, rfl⟩
  obtain ⟨hengine, hservice, hstaff⟩ := hafter
  refine ⟨hengine ▸ h.engine, hstaff ▸ ?_, hservice ▸ h.serving⟩
  unfold Observer.step at hstep
  split at hstep
  · next hcancelled =>
    obtain rfl : none = after := congrArg Prod.fst hstep
    exact h.orderly.leave hmem (.inl hcancelled)
  · split at hstep
    · obtain rfl : some _ = after := congrArg Prod.fst hstep
      exact h.orderly.look hmem rfl rfl rfl
    · next hended =>
      -- the slot of a running engine is given, so no stream of it ends
      have hgiven := DecisionStream.given_of_ended (congrArg Prod.fst hended)
      rw [h.engine.slotGiven] at hgiven
      cases hgiven
    · obtain rfl : some _ = after := congrArg Prod.fst hstep
      exact h.orderly.look hmem rfl rfl rfl

theorem idles (h : m.OnDuty) (hidle : m.Idles m') : m'.OnDuty := by
  cases hidle with
  | task t hready =>
    cases t with
    | engine task => exact h.of_eq (h.engine.step _ task) rfl rfl
    | observer n => exact h.stepObserver n
  | queue line => exact h.of_eq h.engine rfl rfl
  | clock instant hlater hdue => exact h.of_eq h.engine rfl rfl

/-- **Engine and service stay on duty for as long as the machine waits.** -/
theorem waits (h : m.OnDuty) (hwait : m.Waits m') : m'.OnDuty := by
  induction hwait with
  | refl => exact h
  | tail _ hidle ih => exact ih.idles hidle

/-! ### Steps of scenarios -/

/-- To submit an action is no matter of the services. -/
theorem submits (h : m.engine.IsRunning) (a : Action) : (m.submit a).2.engine.IsRunning ∧
    (m.submit a).2.staff = m.staff ∧ (m.submit a).2.service = m.service := by
  unfold Machine.submit
  split
  · exact ⟨h.submit a, rfl, rfl⟩
  · exact ⟨h, rfl, rfl⟩

/-- A service that is destroyed is gone, and its observers with it. -/
theorem destroy (h : m.OnDuty) {s : CallService} (hs : m.service = some s) :
    (m.onDestroy s).dropService.OnDuty := by
  have hstaff : (m.onDestroy s).dropService.staff = m.staff.dismiss s.number none := by
    have htwice : ∀ o : Observer,
        (if (if o.service = s.number then { o with cancelled := true } else o).service = s.number
          then { (if o.service = s.number then { o with cancelled := true } else o) with
            cancelled := true }
          else (if o.service = s.number then { o with cancelled := true } else o)) =
        if o.service = s.number then { o with cancelled := true } else o := by
      intro o
      by_cases ho : o.service = s.number <;> simp [ho]
    simp [onDestroy, dropService, cancelScope, staff, Staff.dismiss, CallService.put, hs, htwice]
  have hmem : s ∈ m.staff.instances := Option.mem_toList.2 hs
  exact ⟨h.engine, hstaff ▸ h.orderly.dismiss hmem (by simp), by simp [onDestroy, dropService]⟩

/-- A start command leaves a service that observes already, and another one begins to. -/
theorem startCommand {m₀ : Machine} {s : CallService} (hengine : m₀.engine.IsRunning)
    (horderly : m₀.staff.Orderly) (hs : m₀.service = some s) (hc : s.cancelled = false)
    (action : Option Action) : (m₀.onStartCommand s action).2.OnDuty := by
  let shown : Machine := { m₀.tell .placeholder with state := .foreground }
  obtain ⟨hrunning, hstaff, hservice⟩ :=
    submits (m := shown) hengine (action.getD (.start .default))
  have hmem : s ∈ m₀.staff.instances := Option.mem_toList.2 hs
  rcases hobserver : s.observer with _ | n
  · have hobserve (m : Machine) (ticket : Ticket) (hm : m.staff = m₀.staff)
        (hms : m.service = some s) (he : m.engine.IsRunning) : (m.observe s ticket).OnDuty := by
      have hafter : m.observe s ticket =
          { m with
            service := some { s with observer := some m.services }
            observers := m.observers ++ [⟨m.services, s.number, .startingAt ticket, s.cancelled⟩]
            services := m.services + 1 } := by
        rw [Machine.observe, hobserver]
      have hsubscribe : (m.observe s ticket).staff = m.staff.subscribe s ticket := by
        simp [hafter, staff, Staff.subscribe, hms, CallService.put]
      refine ⟨hafter ▸ he, hsubscribe ▸ hm ▸ horderly.subscribe hmem hobserver ticket, ?_⟩
      rw [hafter]
      simp [hc]
    exact hobserve _ _ hstaff (hservice.trans hs) hrunning
  · have hsame (m : Machine) (ticket : Ticket) : m.observe s ticket = m := by
      rw [Machine.observe, hobserver]
    have hresult : (m₀.onStartCommand s action).2 =
        (shown.submit (action.getD (.start .default))).2 := hsame _ _
    rw [hresult]
    refine ⟨hrunning, hstaff ▸ horderly, ?_⟩
    rw [hservice, show shown.service = some s from hs]
    simp [hc, hobserver]

/-- A service observes from its first command on. -/
theorem command (h : m.OnDuty) (action : Option Action) {m₀ : Machine} {s : CallService}
    (hm₀ : m₀ = if m.service.isSome then m else m.newService.onCreate) (hs : m₀.service = some s) :
    (m₀.onStartCommand s action).2.OnDuty := by
  rcases hservice : m.service with _ | s'
  · have hnew : m₀ = { m with
        service := some ⟨m.services, false, none⟩, services := m.services + 1, state := .started } := by
      simp [hm₀, hservice, newService, dropService, onCreate]
    have hhire : m₀.staff = m.staff.hire := by
      simp [hnew, staff, Staff.hire, hservice]
    obtain rfl : ⟨m.services, false, none⟩ = s := by simpa [hnew] using hs
    exact startCommand (hnew ▸ h.engine) (hhire ▸ h.orderly.hire) hs rfl action
  · obtain rfl : m₀ = m := by simpa [hservice] using hm₀
    exact startCommand h.engine h.orderly hs (h.serving s hs).1 action

theorem onAccount (h : m.OnDuty) {user : UserId} {f : Account → Account}
    (htake : m.onAccount user f = .ok m') : m'.OnDuty := by
  unfold Machine.onAccount at htake
  split at htake
  · cases htake
    exact h.of_eq h.engine rfl rfl
  · cases htake

/-- **No step of a scenario takes engine or service off their duty.** -/
theorem take (h : m.OnDuty) {step : ScenarioStep} (htake : m.take step = .ok m') : m'.OnDuty := by
  cases step with
  | session s =>
    cases htake
    exact h.of_eq h.engine rfl rfl
  | failSession message =>
    cases htake
    exact h.of_eq h.engine rfl rfl
  | selfUser user => exact h.onAccount htake
  | valid user valid => exact h.onAccount htake
  | list name user calls => exact h.onAccount htake
  | failEstablished user message => exact h.onAccount htake
  | answerBehavior user establishes delay fail => exact h.onAccount htake
  | command action =>
    unfold Machine.take at htake
    dsimp only at htake
    split at htake
    · next s hs =>
      cases htake
      exact h.command action rfl hs
    · next hnone =>
      -- there is a service when a command is handed on
      split at hnone
      · next hsome => simp [hnone] at hsome
      · cases hnone
  | destroy =>
    unfold Machine.take at htake
    dsimp only at htake
    split at htake
    · next s hs =>
      cases htake
      exact h.destroy hs
    · cases htake
      exact h

end OnDuty

end Machine

end CallWatch
