import CallWatch.Proofs.World

/-! # What the controller can do

`Controls e e' happened` lists everything that the controller can do in one step: the state that it
leaves and what happens on the way. The cases are those in which the controller differs for an
observer; whatever else is proved of the controller is proved case by case over them. -/

namespace CallWatch

/-- The call that a start is to answer. -/
def StartAction.target? : StartAction → Option AnswerTarget
  | .default => none
  | .answerCall userId conversationId => some ⟨userId, conversationId⟩

namespace Engine

/-! ### The parts of a state -/

/-- The engine after an action was taken from the queue. -/
def withoutFirst (e : Engine) (rest : List (Ticket × Action)) : Engine :=
  { e with queue := { e.queue with items := rest } }

/-- The engine after a result was taken from the channel. -/
def withChannel (e : Engine) (rest : List PipelineOutput) : Engine := { e with channel := rest }

/-- The engine with a result published. -/
def announce (e : Engine) (ticket : Ticket) (result : DecisionResult) : Engine :=
  (e.publish ticket result).1

/-- The publication that an engine makes next. -/
def nextPublication (e : Engine) (ticket : Ticket) (result : DecisionResult) : Published :=
  ⟨e.seq + 1, ticket, result⟩

/-- The engine after the current pipeline was cancelled; the controller waits for its end. -/
def dismiss (e : Engine) (active : ActivePipeline) (errand : Errand) : Engine :=
  { e.cancel active.generation with
    current := none
    controller := .retiring active.generation errand }

/-- The engine with its controller listening. -/
def listening (e : Engine) : Engine := { e with controller := .listening }

@[simp] theorem publish_fst (e : Engine) (t : Ticket) (r : DecisionResult) :
    (e.publish t r).1 = e.announce t r := rfl

@[simp] theorem slot_begin (e : Engine) (t : Ticket) (how : StartAction) :
    (e.begin t how).slot = e.slot.clear := by cases how <;> rfl

@[simp] theorem generation_begin (e : Engine) (t : Ticket) (how : StartAction) :
    (e.begin t how).generation = e.generation + 1 := by cases how <;> rfl

@[simp] theorem controller_begin (e : Engine) (t : Ticket) (how : StartAction) :
    (e.begin t how).controller = e.controller := by cases how <;> rfl

@[simp] theorem shutdown_begin (e : Engine) (t : Ticket) (how : StartAction) :
    (e.begin t how).shutdown = e.shutdown := by cases how <;> rfl

@[simp] theorem channel_begin (e : Engine) (t : Ticket) (how : StartAction) :
    (e.begin t how).channel = e.channel := by cases how <;> rfl

@[simp] theorem current_begin (e : Engine) (t : Ticket) (how : StartAction) :
    (e.begin t how).current = some ⟨e.generation + 1, t⟩ := by cases how <;> rfl

/-! ### The cases -/

/-- Everything that the controller can do in one step, and what happens then. -/
inductive Controls (e : Engine) : Engine → List Occurrence → Prop
  /-- There is nothing to do. -/
  | idle (hready : e.controllerReady = false) : Controls e e []
  /-- A result of a pipeline that is not the current one is thrown away. -/
  | drop (o rest) (hc : e.controller = .listening) (hs : e.shutdown = false)
      (hq : e.queue.items = []) (hch : e.channel = o :: rest)
      (hcur : ∀ active, e.current = some active → active.generation ≠ o.generation) :
      Controls e (e.withChannel rest) []
  /-- A decision of the current pipeline is published. -/
  | pass (o rest active d) (hc : e.controller = .listening) (hs : e.shutdown = false)
      (hq : e.queue.items = []) (hch : e.channel = o :: rest) (hcur : e.current = some active)
      (hg : active.generation = o.generation) (hr : o.result = .ok d) :
      Controls e ((e.withChannel rest).announce active.ticket (.ok d))
        [.published (e.nextPublication active.ticket (.ok d)) (some active.generation)]
  /-- A failure of the current pipeline is published, which ends that pipeline. -/
  | fail (o rest active error) (hc : e.controller = .listening) (hs : e.shutdown = false)
      (hq : e.queue.items = []) (hch : e.channel = o :: rest) (hcur : e.current = some active)
      (hg : active.generation = o.generation) (hr : o.result = .error error) :
      Controls e (((e.withChannel rest).announce active.ticket (.error error)).dismiss active .listen)
        [.published (e.nextPublication active.ticket (.error error)) (some active.generation)]
  /-- The controller is told to end while there is a pipeline. -/
  | leave (active) (hc : e.controller = .listening)
      (hend : e.shutdown = true ∨ e.queue.items = [] ∧ e.queue.closed = true)
      (hcur : e.current = some active) : Controls e (e.dismiss active .leave) []
  /-- The controller is told to end while there is none. -/
  | quit (hc : e.controller = .listening)
      (hend : e.shutdown = true ∨ e.queue.items = [] ∧ e.queue.closed = true)
      (hcur : e.current = none) : Controls e { e with controller := .ended } []
  /-- An action is taken while there is a pipeline. -/
  | take (active t a rest) (hc : e.controller = .listening) (hs : e.shutdown = false)
      (hq : e.queue.items = (t, a) :: rest) (hcur : e.current = some active) :
      Controls e ((e.withoutFirst rest).dismiss active (.handle t a)) [.processed t a]
  /-- A stop is taken and decided while there is no pipeline. -/
  | takeStop (t rest) (hc : e.controller = .listening) (hs : e.shutdown = false)
      (hq : e.queue.items = (t, .stop) :: rest) (hcur : e.current = none) :
      Controls e ((e.withoutFirst rest).announce t (.ok (.stop .actionStopCalled)))
        [.processed t .stop, .published (e.nextPublication t (.ok (.stop .actionStopCalled))) none]
  /-- A start is taken while there is no pipeline, and a new one begins. -/
  | takeStart (t how rest) (hc : e.controller = .listening) (hs : e.shutdown = false)
      (hq : e.queue.items = (t, .start how) :: rest) (hcur : e.current = none) :
      Controls e ((e.withoutFirst rest).begin t how)
        [.processed t (.start how), .began (e.generation + 1) t]
  /-- The previous pipeline is gone and a stop is decided. -/
  | handleStop (g t) (hc : e.controller = .retiring g (.handle t .stop)) (hg : e.isAlive g = false) :
      Controls e (e.listening.announce t (.ok (.stop .actionStopCalled)))
        [.published (e.nextPublication t (.ok (.stop .actionStopCalled))) none]
  /-- The previous pipeline is gone and a new one begins. -/
  | handleStart (g t how) (hc : e.controller = .retiring g (.handle t (.start how)))
      (hg : e.isAlive g = false) :
      Controls e (e.listening.begin t how) [.began (e.generation + 1) t]
  /-- The pipeline that failed is gone. -/
  | resume (g) (hc : e.controller = .retiring g .listen) (hg : e.isAlive g = false) :
      Controls e e.listening []
  /-- The last pipeline is gone. -/
  | finish (g) (hc : e.controller = .retiring g .leave) (hg : e.isAlive g = false) :
      Controls e { e with controller := .ended } []

/-! ### They are all -/

theorem publishedTill_of_slot {e e' : Engine} (h : e'.slot = e.slot) : e.publishedTill e' = [] := by
  simp [publishedTill, h]

theorem publishedTill_clear {e e' : Engine} (h : e'.slot = e.slot.clear) :
    e.publishedTill e' = [] := by
  simp [publishedTill, h]

theorem publishedTill_publish {e e' : Engine} {p : Published} (h : e'.slot = e.slot.publish p) :
    e.publishedTill e' = [p] := by
  simp [publishedTill, h, Slot.publish, Live.set]

theorem begunTill_of_generation {e e' : Engine} (h : e'.generation = e.generation) :
    e.begunTill e' = [] := by
  simp [begunTill, h]

theorem begunTill_begin {e e' : Engine} {t : Ticket} (hg : e'.generation = e.generation + 1)
    (hc : e'.current = some ⟨e.generation + 1, t⟩) :
    e.begunTill e' = [⟨e.generation + 1, t⟩] := by
  simp [begunTill, hg, hc]

/-- A step is one of the cases once it is known what it takes, begins and publishes. -/
theorem controls_of {e e' : Engine} {taken : Option (Ticket × Action)} {begun : List ActivePipeline}
    {ps : List Published} {received : Option PipelineOutput} (h : e.control.1 = e')
    (ht : e.taken? = taken) (hr : e.received? = received) (hb : e.begunTill e' = begun)
    (hp : e.publishedTill e' = ps)
    (hcase : e.Controls e' ((taken.toList.map fun item => .processed item.1 item.2)
      ++ (begun.map fun active => .began active.generation active.ticket)
      ++ ps.map fun p => .published p (received.map (·.generation)))) :
    e.Controls e.control.1 e.controllerOccurrences := by
  rw [controllerOccurrences, h, ht, hr, hb, hp]
  exact hcase

theorem taken?_eq {e : Engine} {item : Ticket × Action} {rest : List (Ticket × Action)}
    (hc : e.controller = .listening) (hs : e.shutdown = false) (hq : e.queue.items = item :: rest) :
    e.taken? = some item := by
  simp [taken?, hc, hs, hq]

theorem taken?_eq_none {e : Engine}
    (h : e.controller ≠ .listening ∨ e.shutdown = true ∨ e.queue.items = []) :
    e.taken? = none := by
  rcases h with h | h | h <;> simp [taken?, h]

theorem received?_eq {e : Engine} {o : PipelineOutput} {rest : List PipelineOutput}
    (hc : e.controller = .listening) (hs : e.shutdown = false) (hq : e.queue.items = [])
    (hcl : e.queue.closed = false) (hch : e.channel = o :: rest) : e.received? = some o := by
  simp [received?, hc, hs, hq, hcl, hch]

theorem received?_eq_none {e : Engine}
    (h : e.controller ≠ .listening ∨ e.shutdown = true ∨ e.queue.items ≠ []) :
    e.received? = none := by
  rcases h with h | h | h <;> simp [received?, h]

/-- Giving the current pipeline up and doing an errand afterwards. -/
theorem retire_of_some {e : Engine} {active : ActivePipeline} (h : e.current = some active)
    (errand : Errand) : (e.retire errand).1 = e.dismiss active errand := by
  simp [retire, h, dismiss]

theorem retire_of_none {e : Engine} (h : e.current = none) (errand : Errand) :
    e.retire errand = e.perform errand := by
  simp [retire, h]

/-- The controller performs an errand once no pipeline is in its way. -/
theorem controls_perform {e : Engine} {g : Nat} {errand : Errand}
    (hc : e.controller = .retiring g errand) (hg : e.isAlive g = false) :
    e.Controls e.control.1 e.controllerOccurrences := by
  have hstep : e.control.1 = (e.perform errand).1 := by simp [control, hc, hg]
  have ht : e.taken? = none := taken?_eq_none (.inl (by simp [hc]))
  have hr : e.received? = none := received?_eq_none (.inl (by simp [hc]))
  rcases errand with ⟨t, how | _⟩ | _ | _
  · exact controls_of hstep ht hr
      (begunTill_begin (t := t) (by simp [perform]) (by simp [perform]))
      (publishedTill_clear (by simp [perform])) (.handleStart g t how hc hg)
  · exact controls_of hstep ht hr (begunTill_of_generation rfl) (publishedTill_publish rfl)
      (.handleStop g t hc hg)
  · exact controls_of hstep ht hr (begunTill_of_generation rfl) (publishedTill_of_slot rfl)
      (.resume g hc hg)
  · exact controls_of hstep ht hr (begunTill_of_generation rfl) (publishedTill_of_slot rfl)
      (.finish g hc hg)

/-- The controller ends, or waits for the last pipeline before it does. -/
theorem controls_leave {e : Engine} (hc : e.controller = .listening)
    (hend : e.shutdown = true ∨ e.queue.items = [] ∧ e.queue.closed = true)
    (hstep : e.control.1 = (e.retire .leave).1) : e.Controls e.control.1 e.controllerOccurrences := by
  have ht : e.taken? = none := taken?_eq_none (.inr (hend.imp_right And.left))
  rcases hcur : e.current with _ | active
  · rw [retire_of_none hcur] at hstep
    exact controls_of hstep ht rfl (begunTill_of_generation rfl) (publishedTill_of_slot rfl)
      (.quit hc hend hcur)
  · rw [retire_of_some hcur] at hstep
    exact controls_of hstep ht rfl (begunTill_of_generation rfl) (publishedTill_of_slot rfl)
      (.leave active hc hend hcur)

/-- The controller takes an action. -/
theorem controls_take {e : Engine} (hc : e.controller = .listening) (hs : e.shutdown = false)
    {t : Ticket} {a : Action} {rest : List (Ticket × Action)} (hq : e.queue.items = (t, a) :: rest) :
    e.Controls e.control.1 e.controllerOccurrences := by
  have hstep : e.control.1 = ((e.withoutFirst rest).retire (.handle t a)).1 := by
    simp [control, listen, hc, hs, ActionQueue.pop, hq, withoutFirst]
  have ht := taken?_eq hc hs hq
  have hr : e.received? = none := received?_eq_none (.inr (.inr (by simp [hq])))
  rcases hcur : e.current with _ | active
  · have hl : (e.withoutFirst rest).listening = e.withoutFirst rest := by
      simp [listening, withoutFirst, ← hc]
    rw [retire_of_none (by exact hcur)] at hstep
    rcases a with how | _
    · replace hstep : e.control.1 = (e.withoutFirst rest).begin t how := by
        rw [hstep, ← hl]; rfl
      exact controls_of hstep ht hr (begunTill_begin (t := t) (by simp [withoutFirst])
        (by simp [withoutFirst])) (publishedTill_clear (by simp [withoutFirst]))
        (.takeStart t how rest hc hs hq hcur)
    · replace hstep : e.control.1 =
          (e.withoutFirst rest).announce t (.ok (.stop .actionStopCalled)) := by
        rw [hstep, ← hl]; rfl
      exact controls_of hstep ht hr (begunTill_of_generation rfl) (publishedTill_publish rfl)
        (.takeStop t rest hc hs hq hcur)
  · rw [retire_of_some (by exact hcur)] at hstep
    exact controls_of hstep ht hr (begunTill_of_generation rfl) (publishedTill_of_slot rfl)
      (.take active t a rest hc hs hq hcur)

/-- The controller takes what a pipeline sent. -/
theorem controls_receive {e : Engine} (hc : e.controller = .listening) (hs : e.shutdown = false)
    (hq : e.queue.items = []) (hcl : e.queue.closed = false) {o : PipelineOutput}
    {rest : List PipelineOutput} (hch : e.channel = o :: rest) :
    e.Controls e.control.1 e.controllerOccurrences := by
  have hstep : e.control.1 = ((e.withChannel rest).receive o).1 := by
    simp [control, listen, hc, hs, ActionQueue.pop, hq, hcl, hch, withChannel]
  have ht : e.taken? = none := taken?_eq_none (.inr (.inr hq))
  have hr := received?_eq hc hs hq hcl hch
  have hcur' : (e.withChannel rest).current = e.current := rfl
  by_cases hcur : ∃ active, e.current = some active ∧ active.generation = o.generation
  · obtain ⟨active, hcur, hg⟩ := hcur
    have hsource : some active.generation = (some o).map (·.generation) := by simp [hg]
    rcases ho : o.result with error | d
    · replace hstep : e.control.1 =
          ((e.withChannel rest).announce active.ticket (.error error)).dismiss active .listen := by
        rw [hstep, receive, hcur', hcur]
        simp only [hg, if_true, ho]
        exact retire_of_some (by exact hcur) .listen
      have hcase := Controls.fail o rest active error hc hs hq hch hcur hg ho
      rw [hsource] at hcase
      exact controls_of hstep ht hr (begunTill_of_generation rfl) (publishedTill_publish rfl) hcase
    · replace hstep : e.control.1 = (e.withChannel rest).announce active.ticket (.ok d) := by
        rw [hstep, receive, hcur', hcur]
        simp only [hg, if_true, ho, publish_fst]
      have hcase := Controls.pass o rest active d hc hs hq hch hcur hg ho
      rw [hsource] at hcase
      exact controls_of hstep ht hr (begunTill_of_generation rfl) (publishedTill_publish rfl) hcase
  · have hne : ∀ active, e.current = some active → active.generation ≠ o.generation :=
      fun active h hg => hcur ⟨active, h, hg⟩
    replace hstep : e.control.1 = e.withChannel rest := by
      rw [hstep, receive, hcur']
      rcases h : e.current with _ | active
      · rfl
      · simp [hne active h]
    exact controls_of hstep ht hr (begunTill_of_generation rfl) (publishedTill_of_slot rfl)
      (.drop o rest hc hs hq hch hne)

/-- **Every step of the controller is one of the cases.** -/
theorem controls (e : Engine) : e.Controls e.control.1 e.controllerOccurrences := by
  have idle (hready : e.controllerReady = false) (hstep : e.control.1 = e) (ht : e.taken? = none) :
      e.Controls e.control.1 e.controllerOccurrences :=
    controls_of hstep ht rfl (begunTill_of_generation rfl) (publishedTill_of_slot rfl) (.idle hready)
  rcases hc : e.controller with _ | _ | ⟨g, errand⟩ | _
  · exact idle (by simp [controllerReady, hc]) (by simp [control, hc])
      (taken?_eq_none (.inl (by simp [hc])))
  · rcases hs : e.shutdown with _ | _
    · rcases hq : e.queue.items with _ | ⟨⟨t, a⟩, rest⟩
      · rcases hcl : e.queue.closed with _ | _
        · rcases hch : e.channel with _ | ⟨o, rest⟩
          · exact idle (by simp [controllerReady, hc, hs, hq, hcl, hch])
              (by simp [control, listen, hc, hs, ActionQueue.pop, hq, hcl, hch])
              (taken?_eq_none (.inr (.inr hq)))
          · exact controls_receive hc hs hq hcl hch
        · exact controls_leave hc (.inr ⟨hq, hcl⟩)
            (by simp [control, listen, hc, hs, ActionQueue.pop, hq, hcl])
      · exact controls_take hc hs hq
    · exact controls_leave hc (.inl hs) (by simp [control, listen, hc, hs])
  · rcases hg : e.isAlive g with _ | _
    · exact controls_perform hc hg
    · exact idle (by simp [controllerReady, hc, hg]) (by simp [control, hc, hg])
        (taken?_eq_none (.inl (by simp [hc])))
  · exact idle (by simp [controllerReady, hc]) (by simp [control, hc])
      (taken?_eq_none (.inl (by simp [hc])))

end Engine

end CallWatch
