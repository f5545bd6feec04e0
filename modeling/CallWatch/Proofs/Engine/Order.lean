import CallWatch.Proofs.Moves
import CallWatch.Proofs.Numbered

/-! # One pipeline at a time

`Orderly` is what the controller keeps true of the pipelines: there is one at most, it is the newest,
it is cancelled exactly while the controller waits for its end, and there is none when the controller
has no business with one. -/

namespace CallWatch

namespace Engine

/-- What the controller keeps true of the pipelines. -/
structure Orderly (e : Engine) : Prop where
  single : e.pipelines.length ≤ 1
  newest : ∀ p ∈ e.pipelines, p.generation = e.generation
  unfinished : ∀ p ∈ e.pipelines, p.phase ≠ .finished
  away : e.controller = .unstarted ∨ e.controller = .ended → e.current = none ∧ e.pipelines = []
  free : e.controller = .listening → e.current = none → e.pipelines = []
  current : ∀ active, e.current = some active → e.controller = .listening ∧
    active.generation = e.generation ∧ ∀ p ∈ e.pipelines, p.cancelled = false
  retiring : ∀ g errand, e.controller = .retiring g errand → e.current = none ∧
    g = e.generation ∧ ∀ p ∈ e.pipelines, p.cancelled = true

theorem Orderly.new (config : EngineConfig) : (Engine.new config).Orderly where
  single := Nat.zero_le _
  newest := by simp [Engine.new]
  unfinished := by simp [Engine.new]
  away := by simp [Engine.new]
  free := by simp [Engine.new]
  current := by simp [Engine.new]
  retiring := by simp [Engine.new]

/-! ### The pipelines after a change -/

theorem mem_pipelines_cancel {e : Engine} {g : Nat} {q : Pipeline}
    (h : q ∈ (e.cancel g).pipelines) :
    ∃ p ∈ e.pipelines, q = if p.generation = g then { p with cancelled := true } else p := by
  obtain ⟨p, hp, rfl⟩ := List.mem_map.mp h
  exact ⟨p, hp, rfl⟩

theorem pipelines_begin (e : Engine) (t : Ticket) (how : StartAction) :
    (e.begin t how).pipelines =
      e.pipelines ++ [.new (e.generation + 1) how.target? e.config.stopDebounce] := by
  cases how <;> rfl

theorem mem_putPipeline {e : Engine} {p q : Pipeline} (h : q ∈ (e.putPipeline p).pipelines) :
    q ∈ e.pipelines ∧ q.generation ≠ p.generation ∨ q = p ∧ p.phase ≠ .finished := by
  simp only [putPipeline] at h
  split at h
  · simp only [List.mem_filter, bne_iff_ne] at h
    exact .inl h
  · next hp => exact (mem_replaced h).symm.imp_right fun hq => ⟨hq, hp⟩

/-- A pipeline that has not ended takes the place of the one that it was. -/
theorem mem_putPipeline_self {e : Engine} {p p' : Pipeline} (hp : p ∈ e.pipelines)
    (hgen : p'.generation = p.generation) (halive : p'.phase ≠ .finished) :
    p' ∈ (e.putPipeline p').pipelines := by
  simp only [putPipeline]
  exact List.mem_map.mpr ⟨p, hp, by rw [if_pos hgen.symm]⟩

theorem length_putPipeline_le (e : Engine) (p : Pipeline) :
    (e.putPipeline p).pipelines.length ≤ e.pipelines.length := by
  simp only [putPipeline]
  split
  · exact List.length_filter_le _ _
  · exact Nat.le_of_eq (List.length_map _)

theorem pipeline?_mem {e : Engine} {g : Nat} {p : Pipeline} (h : e.pipeline? g = some p) :
    p ∈ e.pipelines ∧ p.generation = g := mem_of_found h

/-! ### What a step of the controller leaves alone -/

/-- The controller leaves a pipeline as it is, cancels it, or begins a new one. -/
theorem Controls.mem_pipelines {e e' : Engine} {happened : List Occurrence}
    (h : e.Controls e' happened) {q : Pipeline} (hq : q ∈ e'.pipelines) :
    (∃ p ∈ e.pipelines, ∃ b, q = { p with cancelled := b }) ∨
      ∃ g target, q = .new g target e.config.stopDebounce := by
  have same (hq : q ∈ e.pipelines) : ∃ p ∈ e.pipelines, ∃ b, q = { p with cancelled := b } :=
    ⟨q, hq, q.cancelled, rfl⟩
  have cancelled {g : Nat} (hq : q ∈ (e.cancel g).pipelines) :
      ∃ p ∈ e.pipelines, ∃ b, q = { p with cancelled := b } := by
    obtain ⟨p, hp, rfl⟩ := mem_pipelines_cancel hq
    split
    · exact ⟨p, hp, true, rfl⟩
    · exact ⟨p, hp, p.cancelled, rfl⟩
  have begun (f : Engine) (hps : f.pipelines = e.pipelines) (hconfig : f.config = e.config)
      {t : Ticket} {how : StartAction} (hq : q ∈ (f.begin t how).pipelines) :
      (∃ p ∈ e.pipelines, ∃ b, q = { p with cancelled := b }) ∨
        ∃ g target, q = .new g target e.config.stopDebounce := by
    rw [pipelines_begin, hps, hconfig] at hq
    rcases List.mem_append.mp hq with hq | hq
    · exact .inl (same hq)
    · exact .inr ⟨_, _, List.mem_singleton.mp hq⟩
  cases h with
  | fail => exact .inl (cancelled hq)
  | leave => exact .inl (cancelled hq)
  | take => exact .inl (cancelled hq)
  | takeStart t how rest => exact begun (e.withoutFirst rest) rfl rfl hq
  | handleStart g t how => exact begun e.listening rfl rfl hq
  | _ => exact .inl (same hq)

/-- The controller only takes from the channel. -/
theorem Controls.mem_channel {e e' : Engine} {happened : List Occurrence}
    (h : e.Controls e' happened) {o : PipelineOutput} (ho : o ∈ e'.channel) : o ∈ e.channel := by
  cases h with
  | drop _ _ _ _ _ hch => rw [hch]; exact List.mem_cons_of_mem _ ho
  | pass _ _ _ _ _ _ _ hch => rw [hch]; exact List.mem_cons_of_mem _ ho
  | fail _ _ _ _ _ _ _ hch => rw [hch]; exact List.mem_cons_of_mem _ ho
  | takeStart t how => cases how <;> exact ho
  | handleStart g t how => cases how <;> exact ho
  | _ => exact ho

/-- What the controller publishes for a pipeline is the first in the channel. -/
theorem Controls.published {e e' : Engine} {happened : List Occurrence}
    (h : e.Controls e' happened) {p : Published} {g : Nat}
    (hp : .published p (some g) ∈ happened) :
    e.controller = .listening ∧ ∃ o ∈ e.channel, o.generation = g ∧ o.result = p.result := by
  cases h with
  | pass o rest active d hc hs hq hch hcur hg hr =>
    cases List.mem_singleton.mp hp
    exact ⟨hc, o, hch ▸ List.mem_cons_self, hg.symm, hr⟩
  | fail o rest active error hc hs hq hch hcur hg hr =>
    cases List.mem_singleton.mp hp
    exact ⟨hc, o, hch ▸ List.mem_cons_self, hg.symm, hr⟩
  | _ => simp at hp

/-- The controller comes to no decision of a pipeline. -/
theorem Controls.not_decided {e e' : Engine} {happened : List Occurrence}
    (h : e.Controls e' happened) (g : Nat) (d : Decision) : .decided g d ∉ happened := by
  cases h <;> simp

/-- A controller that has ended, or that has not begun, stays where it is. -/
theorem Controls.eq_of_away {e e' : Engine} {happened : List Occurrence}
    (h : e.Controls e' happened) (hc : e.controller = .unstarted ∨ e.controller = .ended) :
    e' = e := by
  cases h <;> first | rfl | simp_all

/-- The controller never comes back to where it had not begun. -/
theorem Controls.eq_of_unstarted {e e' : Engine} {happened : List Occurrence}
    (h : e.Controls e' happened) (hc : e'.controller = .unstarted) : e' = e := by
  cases h with
  | idle => rfl
  | drop _ _ hc' => cases hc'.symm.trans hc
  | pass _ _ _ _ hc' => cases hc'.symm.trans hc
  | takeStop _ _ hc' => cases hc'.symm.trans hc
  | takeStart t how rest hc' => cases how <;> cases hc'.symm.trans hc
  | handleStart g t how => cases how <;> cases hc
  | _ => cases hc

/-! ### The order is kept -/

theorem Orderly.pipelines_eq_nil {e : Engine} (h : e.Orderly) {g : Nat} {errand : Errand}
    (hc : e.controller = .retiring g errand) (hg : e.isAlive g = false) : e.pipelines = [] := by
  refine List.eq_nil_iff_forall_not_mem.mpr fun p hp => ?_
  have hgen := (h.retiring g errand hc).2.1
  simp only [isAlive, List.any_eq_false, beq_iff_eq] at hg
  exact hg p hp (by rw [h.newest p hp, hgen])

/-- What does not touch the pipelines and what the controller is at keeps the order. -/
theorem Orderly.of_eq {e e' : Engine} (h : e.Orderly) (hp : e'.pipelines = e.pipelines)
    (hg : e'.generation = e.generation) (hc : e'.controller = e.controller)
    (hcur : e'.current = e.current) : e'.Orderly := by
  constructor
  case single =>
    rw [hp]
    exact h.single
  case newest =>
    rw [hp, hg]
    exact h.newest
  case unfinished =>
    rw [hp]
    exact h.unfinished
  case away =>
    rw [hc, hcur, hp]
    exact h.away
  case free =>
    rw [hc, hcur, hp]
    exact h.free
  case current =>
    rw [hc, hcur, hp, hg]
    exact h.current
  case retiring =>
    rw [hc, hcur, hp, hg]
    exact h.retiring

/-- With no pipeline left the controller can be at anything that needs none. -/
theorem Orderly.of_nil {e : Engine} (hp : e.pipelines = []) (hcur : e.current = none)
    (hc : ∀ g errand, e.controller ≠ .retiring g errand) : e.Orderly := by
  constructor
  case single =>
    simp [hp]
  case newest =>
    simp [hp]
  case unfinished =>
    simp [hp]
  case away =>
    exact fun _ => ⟨hcur, hp⟩
  case free =>
    exact fun _ _ => hp
  case current =>
    intro active h
    rw [hcur] at h
    cases h
  case retiring =>
    exact fun g errand h => absurd h (hc g errand)

/-- A new pipeline where there is none keeps the order. -/
theorem Orderly.begin {e : Engine} (hp : e.pipelines = []) (hc : e.controller = .listening)
    (t : Ticket) (how : StartAction) : (e.begin t how).Orderly := by
  have hb := e.pipelines_begin t how
  rw [hp, List.nil_append] at hb
  have hc' : (e.begin t how).controller = .listening := (controller_begin e t how).trans hc
  constructor
  case single =>
    simp [hb]
  case newest =>
    simp [hb, Pipeline.new]
  case unfinished =>
    simp [hb, Pipeline.new]
  case away =>
    simp [hc]
  case free =>
    simp
  case current =>
    intro active h
    rw [current_begin] at h
    cases h
    exact ⟨hc', by simp, by simp [hb, Pipeline.new]⟩
  case retiring =>
    simp [hc]

/-- Giving the current pipeline up keeps the order. -/
theorem Orderly.dismiss {e : Engine} (h : e.Orderly) {active : ActivePipeline}
    (hcur : e.current = some active) (errand : Errand) : (e.dismiss active errand).Orderly := by
  obtain ⟨-, hg, -⟩ := h.current active hcur
  have hmem (q) (hq : q ∈ (e.dismiss active errand).pipelines) :
      ∃ p ∈ e.pipelines, q = { p with cancelled := true } := by
    obtain ⟨p, hp, rfl⟩ := mem_pipelines_cancel (g := active.generation) hq
    exact ⟨p, hp, by rw [if_pos (by rw [h.newest p hp, hg])]⟩
  constructor
  case single =>
    exact Nat.le_trans (Nat.le_of_eq (List.length_map _)) h.single
  case newest =>
    intro q hq
    obtain ⟨p, hp, rfl⟩ := hmem q hq
    exact h.newest p hp
  case unfinished =>
    intro q hq
    obtain ⟨p, hp, rfl⟩ := hmem q hq
    exact h.unfinished p hp
  case away =>
    simp [Engine.dismiss]
  case free =>
    simp [Engine.dismiss]
  case current =>
    simp [Engine.dismiss]
  case retiring =>
    intro g errand' hc
    simp only [Engine.dismiss, ControllerPhase.retiring.injEq] at hc
    refine ⟨rfl, hc.1 ▸ hg, fun q hq => ?_⟩
    obtain ⟨p, hp, rfl⟩ := hmem q hq
    rfl

theorem Orderly.controls {e e' : Engine} {happened : List Occurrence} (h : e.Orderly)
    (hstep : e.Controls e' happened) : e'.Orderly := by
  cases hstep with
  | idle => exact h
  | drop => exact h.of_eq rfl rfl rfl rfl
  | pass => exact h.of_eq rfl rfl rfl rfl
  | fail o rest active error hc hs hq hch hcur =>
    have h' : ((e.withChannel rest).announce active.ticket (.error error)).Orderly :=
      h.of_eq rfl rfl rfl rfl
    exact h'.dismiss hcur .listen
  | leave active hc hend hcur => exact h.dismiss hcur .leave
  | quit hc hend hcur => exact .of_nil (h.free hc hcur) hcur (by simp)
  | take active t a rest hc hs hq hcur =>
    have h' : (e.withoutFirst rest).Orderly := h.of_eq rfl rfl rfl rfl
    exact h'.dismiss hcur (.handle t a)
  | takeStop => exact h.of_eq rfl rfl rfl rfl
  | takeStart t how rest hc hs hq hcur =>
    exact .begin (e := e.withoutFirst rest) (h.free hc hcur) hc t how
  | handleStop g t hc hg =>
    exact .of_nil (h.pipelines_eq_nil hc hg) (h.retiring _ _ hc).1
      (by simp [listening, announce, publish])
  | handleStart g t how hc hg => exact .begin (e := e.listening) (h.pipelines_eq_nil hc hg) rfl t how
  | resume g hc hg =>
    exact .of_nil (h.pipelines_eq_nil hc hg) (h.retiring _ _ hc).1 (by simp [listening])
  | finish g hc hg => exact .of_nil (h.pipelines_eq_nil hc hg) (h.retiring _ _ hc).1 (by simp)

theorem Orderly.outside {e e' : Engine} {m : Move} {happened : List Occurrence} (h : e.Orderly)
    (hstep : e.Outside m e' happened) : e'.Orderly := by
  cases hstep with
  | same => exact h
  | accept => exact h.of_eq rfl rfl rfl rfl
  | discard => exact h.of_eq rfl rfl rfl rfl
  | start hc =>
    obtain ⟨hcur, hp⟩ := h.away (.inl hc)
    exact .of_nil hp hcur (by simp)
  | stop => exact h.of_eq rfl rfl rfl rfl

theorem Orderly.pipelines_eq {e : Engine} (h : e.Orderly) {p : Pipeline} (hp : p ∈ e.pipelines) :
    e.pipelines = [p] := by
  obtain ⟨q, hq⟩ := List.length_eq_one_iff.mp (Nat.le_antisymm h.single (List.length_pos_of_mem hp))
  rw [hq] at hp ⊢
  rw [List.mem_singleton.mp hp]

/-- The only pipeline that there is after a step is the one that made it. -/
theorem Orderly.mem_advancePipeline {e : Engine} (h : e.Orderly) {g : Nat} {p p' q : Pipeline}
    (hp : e.pipeline? g = some p) (hid : p'.identity = p.identity)
    {output : Option PipelineOutput} (hq : q ∈ (e.advancePipeline p' output).pipelines) :
    q = p' ∧ p'.phase ≠ .finished := by
  have hgen : p'.generation = p.generation := congrArg (·.1) hid
  refine (mem_putPipeline hq).resolve_left fun hother => hother.2 ?_
  rw [h.newest q hother.1, hgen, h.newest p (pipeline?_mem hp).1]

/-- A pipeline that goes on keeps the order. -/
theorem Orderly.advancePipeline {e : Engine} (h : e.Orderly) {g : Nat} {p p' : Pipeline}
    (hp : e.pipeline? g = some p) (hid : p'.identity = p.identity)
    (output : Option PipelineOutput) : (e.advancePipeline p' output).Orderly := by
  obtain ⟨hmem, -⟩ := pipeline?_mem hp
  have hgen : p'.generation = p.generation := congrArg (·.1) hid
  have hcan : p'.cancelled = p.cancelled := congrArg (·.2.2.2) hid
  have hq (q) (hq : q ∈ (e.advancePipeline p' output).pipelines) :
      q = p' ∧ p'.phase ≠ .finished := h.mem_advancePipeline hp hid hq
  constructor
  case single =>
    exact Nat.le_trans (length_putPipeline_le e p') h.single
  case newest =>
    intro q hmem'
    rw [(hq q hmem').1, hgen]
    exact h.newest p hmem
  case unfinished =>
    intro q hmem'
    rw [(hq q hmem').1]
    exact (hq q hmem').2
  case away =>
    intro hc
    rw [(h.away hc).2] at hmem
    cases hmem
  case free =>
    intro hc hcur
    rw [h.free hc hcur] at hmem
    cases hmem
  case current =>
    intro active hcur
    obtain ⟨hc, hg, hall⟩ := h.current active hcur
    refine ⟨hc, hg, fun q hmem' => ?_⟩
    rw [(hq q hmem').1, hcan]
    exact hall p hmem
  case retiring =>
    intro g errand hc
    obtain ⟨hcur, hg, hall⟩ := h.retiring g errand hc
    refine ⟨hcur, hg, fun q hmem' => ?_⟩
    rw [(hq q hmem').1, hcan]
    exact hall p hmem

/-! ### What never changes -/

/-- The engine is tuned as it was in the beginning, and its queue is closed when it is told to end
and not before. -/
structure Tuned (config : EngineConfig) (e : Engine) : Prop where
  tuning : e.config = config
  capacity : e.queue.capacity = max config.queueCapacity 1
  closed : e.queue.closed = e.shutdown

theorem Tuned.new (config : EngineConfig) : (Engine.new config).Tuned config := ⟨rfl, rfl, rfl⟩

theorem Tuned.controls {config : EngineConfig} {e e' : Engine} {happened : List Occurrence}
    (h : e.Tuned config) (hstep : e.Controls e' happened) : e'.Tuned config := by
  have begin {e : Engine} (h : e.Tuned config) (t : Ticket) (how : StartAction) :
      (e.begin t how).Tuned config := by
    cases how <;> exact ⟨h.tuning, h.capacity, h.closed⟩
  cases hstep with
  | takeStart t how rest =>
    exact begin (e := e.withoutFirst rest) ⟨h.tuning, h.capacity, h.closed⟩ t how
  | handleStart g t how => exact begin (e := e.listening) ⟨h.tuning, h.capacity, h.closed⟩ t how
  | _ => exact ⟨h.tuning, h.capacity, h.closed⟩

theorem Tuned.outside {config : EngineConfig} {e e' : Engine} {m : Move}
    {happened : List Occurrence} (h : e.Tuned config) (hstep : e.Outside m e' happened) :
    e'.Tuned config := by
  cases hstep with
  | stop => exact ⟨h.tuning, h.capacity, rfl⟩
  | _ => exact ⟨h.tuning, h.capacity, h.closed⟩

end Engine

namespace Pipeline

variable {s : Surroundings} {held : AccountRef → Bool} {room : Bool} {p : Pipeline}

/-- Whether the pipeline could go on if it held no stop back. -/
def hasNews (s : Surroundings) (held : AccountRef → Bool) (room : Bool) (p : Pipeline) : Bool :=
  { p with debounce := { p.debounce with pending := none } }.isReady s held room

theorem hasNews_eq_false (h : p.isReady s held room = false) : p.hasNews s held room = false := by
  rcases hp : p.phase with _ | _ | l | g | ⟨result, next⟩ | _
  all_goals simp_all [hasNews, isReady, Debounce.deadline]

/-- A pipeline that is cancelled can go on. -/
theorem isReady_of_cancelled (hc : p.cancelled = true) (hp : p.phase ≠ .finished) :
    p.isReady s held room = true := by
  unfold isReady
  split <;> simp_all

theorem hasNews_of_cancelled (hc : p.cancelled = true) (hp : p.phase ≠ .finished) :
    p.hasNews s held room = true := isReady_of_cancelled hc hp

end Pipeline

namespace World

theorem Moves.orderly {w w' : World} {m : Move} {happened : List Occurrence}
    (h : w.engine.Orderly) (hstep : w.Moves m w' happened) : w'.engine.Orderly := by
  cases hstep with
  | outside _ e' _ hout => exact h.outside hout
  | store => exact h
  | arrange => exact h
  | pass => exact h
  | control e' _ _ hcon => exact h.controls hcon
  | pipeline g p p' _ output hp _ hsteps => exact h.advancePipeline hp hsteps.identity output
  | answering => exact h.of_eq rfl rfl rfl rfl

/-- **The order holds all along every run.** -/
theorem Leads.orderly {admitted : World → Move → Prop} {w w' : World} (h : Leads admitted w w')
    (hw : w.engine.Orderly) : w'.engine.Orderly :=
  h.keeps (I := fun w => w.engine.Orderly)
    (fun _ _ w' _ hw _ hstep => (hstep.orderly hw : w'.engine.Orderly)) hw

theorem Reached.orderly {config : EngineConfig} {w : World} (h : Reached config w) :
    w.engine.Orderly :=
  Leads.orderly h (.new config)

theorem Reached.tuned {config : EngineConfig} {w : World} (h : Reached config w) :
    w.engine.Tuned config := by
  refine Leads.keeps (I := fun w => w.engine.Tuned config) ?_ h (.new config)
  intro w m w' happened hw _ hstep
  cases hstep with
  | outside _ e' _ hout => exact hw.outside hout
  | control e' _ _ hcon => exact hw.controls hcon
  | _ => exact ⟨hw.tuning, hw.capacity, hw.closed⟩

/-! ### When nothing is left to be taken -/

/-- Every action and every result of a pipeline was taken, and no pipeline finds anything new. A stop
that is held back may be due. -/
def Settled (w : World) : Prop :=
  w.engine.controllerReady = false ∧ ∀ p ∈ w.engine.pipelines,
    p.hasNews w.surroundings w.engine.holds w.engine.hasRoom = false

theorem AtRest.isReady_eq_false {w : World} (h : w.AtRest) (ho : w.engine.Orderly) {p : Pipeline}
    (hp : p ∈ w.engine.pipelines) :
    p.isReady w.surroundings w.engine.holds w.engine.hasRoom = false := by
  have hone := ho.pipelines_eq hp
  have hready := h (.pipeline p.generation) (by simp [Engine.tasks, hone])
  have hfind : w.engine.pipeline? p.generation = some p := by simp [Engine.pipeline?, hone]
  simpa [Engine.isReady, Engine.pipelineReady, hfind] using hready

theorem AtRest.settled {w : World} (h : w.AtRest) (ho : w.engine.Orderly) : w.Settled :=
  ⟨h .controller (by simp [Engine.tasks]),
    fun _ hp => Pipeline.hasNews_eq_false (h.isReady_eq_false ho hp)⟩

/-- The controller never waits for long: a pipeline that is cancelled can go on until it is gone. -/
theorem not_settled_of_retiring {w : World} (ho : w.engine.Orderly) {g : Nat} {errand : Errand}
    (hc : w.engine.controller = .retiring g errand) : ¬ w.Settled := by
  rintro ⟨hcontroller, hpipelines⟩
  obtain ⟨-, -, hcancelled⟩ := ho.retiring g errand hc
  rcases hps : w.engine.pipelines with _ | ⟨p, ps⟩
  · simp [Engine.controllerReady, hc, Engine.isAlive, hps] at hcontroller
  · have hmem : p ∈ w.engine.pipelines := by simp [hps]
    have hnews := hpipelines p hmem
    rw [Pipeline.hasNews_of_cancelled (hcancelled p hmem) (ho.unfinished p hmem)] at hnews
    cases hnews

theorem not_atRest_of_retiring {w : World} (ho : w.engine.Orderly) {g : Nat} {errand : Errand}
    (hc : w.engine.controller = .retiring g errand) : ¬ w.AtRest :=
  fun h => not_settled_of_retiring ho hc (h.settled ho)

end World

end CallWatch
