import CallWatch.Proofs.Engine.Origins

/-! # One pipeline after the other

A pipeline appears only when it is begun, and it is begun only when there is none: the one before is
gone by then, and with it its subscription to the session. When the controller has ended there is
none any more.

In between, while the controller waits for the end of a pipeline that it cancelled, that pipeline is
the only one, and nothing that it is at can keep it: its next step is its last one. -/

namespace CallWatch

open Chronicle

namespace Engine

/-- Whether a task is a pipeline. -/
def Task.isPipeline : Task → Bool
  | .pipeline _ => true
  | _ => false

theorem isAlive_iff {e : Engine} {g : Nat} :
    e.isAlive g = true ↔ ∃ p ∈ e.pipelines, p.generation = g := by
  simp [isAlive]

theorem sessionSubscriptions_of_nil {e : Engine} (h : e.pipelines = []) :
    e.sessionSubscriptions = 0 := by
  simp [sessionSubscriptions, h]

/-- The pipelines that have not ended are tasks, and no other task is one. -/
theorem length_filter_tasks (e : Engine) :
    (e.tasks.filter Task.isPipeline).length = e.activePipelines := by
  have hnone (as : List Answering) :
      (as.map fun a => Task.answering a.number).filter Task.isPipeline = [] := by
    simp [List.filter_map, Function.comp_def, Task.isPipeline]
  have hall (ps : List Pipeline) : (ps.map fun p => Task.pipeline p.generation).filter
      Task.isPipeline = ps.map fun p => .pipeline p.generation := by
    simp [List.filter_map, Function.comp_def, Task.isPipeline]
  rw [tasks, List.filter_append, List.filter_cons_of_neg (by simp [Task.isPipeline]), hnone, hall]
  simp [activePipelines]

/-- Of the pipelines that were begun, those that are there have not ended. -/
theorem Originates.length_filter_begun {e : Engine} {c : Chronicle} (h : e.Originates c)
    (ho : e.Orderly) : (c.begun.filter fun x => e.isAlive x.1).length = e.activePipelines := by
  rcases hps : e.pipelines with _ | ⟨p, ps⟩
  · have hnobody (g : Nat) : e.isAlive g = false := by simp [isAlive, hps]
    simp [activePipelines, hps, hnobody]
  · have hone := ho.pipelines_eq (p := p) (by simp [hps])
    have halive : e.isAlive = fun g => g == p.generation := by
      funext g
      simp [isAlive, hone, Bool.beq_comm]
    obtain ⟨how, ⟨t, hbegan, -⟩, -⟩ := h.pipelines p (by simp [hps])
    have hnodup : (c.begun.map (·.1)).Nodup := by
      rw [h.generations]
      exact List.nodup_range'
    have hcount := List.count_eq_one_of_mem hnodup (List.mem_map_of_mem hbegan)
    rw [List.count, List.countP_map, List.countP_eq_length_filter] at hcount
    rw [halive, activePipelines, hone]
    exact hcount

/-! ### The controller begins a pipeline where there is none -/

/-- What is begun is begun where there is nothing, and is there afterwards. -/
theorem Controls.began {e e' : Engine} {happened : List Occurrence} (ho : e.Orderly)
    (h : e.Controls e' happened) {g : Nat} {t : Ticket} (hbegan : .began g t ∈ happened) :
    e.pipelines = [] ∧ e'.isAlive g = true := by
  have hnew (f : Engine) (t : Ticket) (how : StartAction) :
      (f.begin t how).isAlive (f.generation + 1) = true := by
    rw [isAlive_iff, pipelines_begin]
    exact ⟨_, List.mem_append_right _ List.mem_cons_self, rfl⟩
  cases h with
  | takeStart t' how rest hc hs hq hcur =>
    obtain ⟨rfl, -⟩ : g = e.generation + 1 ∧ t = t' := by simpa using hbegan
    exact ⟨ho.free hc hcur, hnew (e.withoutFirst rest) t' how⟩
  | handleStart g' t' how hc hg =>
    obtain ⟨rfl, -⟩ : g = e.generation + 1 ∧ t = t' := by simpa using hbegan
    exact ⟨ho.pipelines_eq_nil hc hg, hnew e.listening t' how⟩
  | _ => simp at hbegan

/-- What is there after a step of the controller was there before, or was begun. -/
theorem Controls.isAlive {e e' : Engine} {happened : List Occurrence} (h : e.Controls e' happened)
    {g : Nat} (hg : e'.isAlive g = true) :
    e.isAlive g = true ∨ ∃ t, .began g t ∈ happened := by
  have cancelled (f : Engine) (hf : f.pipelines = e.pipelines) {g' : Nat}
      (hg : (f.cancel g').isAlive g = true) : e.isAlive g = true := by
    obtain ⟨q, hq, rfl⟩ := isAlive_iff.mp hg
    obtain ⟨p, hp, rfl⟩ := mem_pipelines_cancel hq
    refine isAlive_iff.mpr ⟨p, hf ▸ hp, ?_⟩
    split <;> rfl
  have begun (f : Engine) (hf : f.pipelines = e.pipelines) {t : Ticket} {how : StartAction}
      (hg : (f.begin t how).isAlive g = true) : e.isAlive g = true ∨ g = f.generation + 1 := by
    obtain ⟨q, hq, rfl⟩ := isAlive_iff.mp hg
    rw [pipelines_begin, hf] at hq
    rcases List.mem_append.mp hq with hq | hq
    · exact .inl (isAlive_iff.mpr ⟨q, hq, rfl⟩)
    · exact .inr (List.mem_singleton.mp hq ▸ rfl)
  cases h with
  | fail => exact .inl (cancelled _ rfl hg)
  | leave => exact .inl (cancelled _ rfl hg)
  | take => exact .inl (cancelled _ rfl hg)
  | takeStart t how rest =>
    refine (begun (e.withoutFirst rest) rfl hg).imp_right ?_
    rintro rfl
    exact ⟨t, by simp [withoutFirst]⟩
  | handleStart g' t how =>
    refine (begun e.listening rfl hg).imp_right ?_
    rintro rfl
    exact ⟨t, by simp [listening]⟩
  | _ => exact .inl hg

end Engine

/-- A pipeline that is cancelled and has begun its work ends with its next step. -/
theorem Pipeline.Steps.finished_of_cancelled {s : Surroundings} {held : AccountRef → Bool}
    {p p' : Pipeline} {happened : List Occurrence} {output : Option PipelineOutput}
    (h : p.Steps s held p' happened output) (hc : p.cancelled = true) (hp : p.phase ≠ .spawned) :
    p'.phase = .finished := by
  cases h with
  | begin hs => exact absurd hs hp
  | abort => rfl
  | stay hf => exact hf
  | _ => simp_all

namespace World

/-! ### Every move -/

/-- A move that begins a pipeline is made where there is none. -/
theorem Moves.began {w w' : World} {m : Move} {happened : List Occurrence}
    (ho : w.engine.Orderly) (hstep : w.Moves m w' happened) {g : Nat} {t : Ticket}
    (hbegan : .began g t ∈ happened) :
    w.engine.pipelines = [] ∧ w'.engine.isAlive g = true := by
  cases hstep with
  | outside _ e' _ hout => cases hout <;> simp at hbegan
  | control e' _ _ hcon => exact hcon.began ho hbegan
  | pipeline g' p p' _ output hp _ hsteps =>
    have hnone := hsteps.begun_eq_nil 0
    have hmem : (g, t) ∈ begun (_ : Chronicle) :=
      mem_begun.mpr ⟨0, List.mem_map_of_mem (f := (0, ·)) hbegan⟩
    rw [hnone] at hmem
    cases hmem
  | _ => simp at hbegan

/-- What is there after a move was there before, or was begun. -/
theorem Moves.isAlive {w w' : World} {m : Move} {happened : List Occurrence}
    (ho : w.engine.Orderly) (hstep : w.Moves m w' happened) {g : Nat}
    (hg : w'.engine.isAlive g = true) :
    w.engine.isAlive g = true ∨ ∃ t, .began g t ∈ happened := by
  cases hstep with
  | outside _ e' _ hout => cases hout <;> exact .inl hg
  | control e' _ _ hcon => exact hcon.isAlive hg
  | pipeline g' p p' _ output hp _ hsteps =>
    obtain ⟨q, hq, rfl⟩ := Engine.isAlive_iff.mp hg
    obtain ⟨rfl, -⟩ := ho.mem_advancePipeline hp hsteps.identity hq
    exact .inl (Engine.isAlive_iff.mpr
      ⟨p, (Engine.pipeline?_mem hp).1, congrArg (·.1) hsteps.identity.symm⟩)
  | _ => exact .inl hg

/-- While the controller waits for the end of a pipeline, that pipeline can go on, and it is gone
after its next step unless it has not begun its work yet. -/
theorem retiring_goes_on {w : World} (ho : w.engine.Orderly) {g : Nat} {errand : Errand}
    (hc : w.engine.controller = .retiring g errand) {p : Pipeline} (hp : p ∈ w.engine.pipelines) :
    p.generation = g ∧ w.allows (.go (.pipeline g)) = true ∧
      (p.phase ≠ .spawned → (w.after (.go (.pipeline g))).engine.pipelines = []) := by
  obtain ⟨-, hg, hcancelled⟩ := ho.retiring g errand hc
  have hgen : p.generation = g := (ho.newest p hp).trans hg.symm
  have hfind : w.engine.pipeline? g = some p := by
    simp [Engine.pipeline?, ho.pipelines_eq hp, hgen]
  refine ⟨hgen, ?_, fun hspawned => ?_⟩
  · simp [allows, Engine.isReady, Engine.pipelineReady, hfind,
      Pipeline.isReady_of_cancelled (hcancelled p hp) (ho.unfinished p hp)]
  · have hsteps := p.steps w.surroundings w.engine.holds
    have hafter : (w.after (.go (.pipeline g))).engine = w.engine.advancePipeline
        (p.step w.surroundings w.engine.holds).1 (p.step w.surroundings w.engine.holds).2.1 := by
      rw [← Engine.stepPipeline_eq hfind]
      rfl
    rw [hafter]
    refine List.eq_nil_iff_forall_not_mem.mpr fun q hq => ?_
    obtain ⟨-, halive⟩ := ho.mem_advancePipeline hfind hsteps.identity hq
    exact halive (hsteps.finished_of_cancelled (hcancelled p hp) hspawned)

/-- **There is one pipeline at most.** In every world that a run reaches, the number of pipelines
that have not ended is 0 or 1; it is the number of the engine's tasks that are pipelines, and the
number of pipelines that were begun and are still there.

A pipeline appears in a move only by being begun, and then there was none before, nor a subscription
to the session. Where the controller waits for the end of a pipeline, that one can always go on, and
is gone after its next step once it has begun its work. When the controller has ended there is no
pipeline and no subscription; and a controller that was started and told to end does end, unless
somebody can still go on. -/
theorem Reached.one_pipeline {config : EngineConfig} {w : World} (h : Reached config w) :
    (w.engine.activePipelines ≤ 1 ∧
      w.engine.activePipelines = (w.engine.tasks.filter Engine.Task.isPipeline).length ∧
      w.engine.activePipelines = (w.chronicle.begun.filter fun x => w.engine.isAlive x.1).length ∧
      w.engine.sessionSubscriptions ≤ w.engine.activePipelines) ∧
    (∀ m g, w.allows m = true →
      (w.engine.isAlive g = false → (w.after m).engine.isAlive g = true →
        ∃ t, .began g t ∈ w.occurrences m) ∧
      ∀ t, .began g t ∈ w.occurrences m →
        w.engine.activePipelines = 0 ∧ w.engine.sessionSubscriptions = 0 ∧
          (w.after m).engine.isAlive g = true) ∧
    (∀ g errand, w.engine.controller = .retiring g errand → ∀ p ∈ w.engine.pipelines,
      p.generation = g ∧ w.allows (.go (.pipeline g)) = true ∧
        (p.phase ≠ .spawned → (w.after (.go (.pipeline g))).engine.activePipelines = 0)) ∧
    (w.engine.hasEnded = true →
      w.engine.activePipelines = 0 ∧ w.engine.sessionSubscriptions = 0) ∧
    (w.engine.shutdown = true → w.engine.controller ≠ .unstarted → w.AtRest →
      w.engine.hasEnded = true) := by
  have ho := h.orderly
  refine ⟨⟨ho.single, w.engine.length_filter_tasks.symm, ?_, List.length_filter_le _ _⟩,
    fun m g hm => ⟨fun hbefore hafter => ?_, fun t hbegan => ?_⟩, fun g errand hc p hp => ?_,
    fun hended => ?_, fun hshutdown hstarted hrest => ?_⟩
  · exact (h.originates.length_filter_begun ho).symm
  · rw [after_eq] at hafter
    exact ((moves hm).isAlive ho hafter).resolve_left (by simp [hbefore])
  · obtain ⟨hnil, halive⟩ := (moves hm).began ho hbegan
    rw [after_eq]
    exact ⟨by simp [Engine.activePipelines, hnil], Engine.sessionSubscriptions_of_nil hnil, halive⟩
  · obtain ⟨hgen, hready, hgone⟩ := retiring_goes_on ho hc hp
    exact ⟨hgen, hready, fun hspawned => by simp [Engine.activePipelines, hgone hspawned]⟩
  · have hnil := (ho.away (.inr (by simpa [Engine.hasEnded] using hended))).2
    exact ⟨by simp [Engine.activePipelines, hnil], Engine.sessionSubscriptions_of_nil hnil⟩
  · rcases hc : w.engine.controller with _ | _ | ⟨g, errand⟩ | _
    · exact absurd hc hstarted
    · have hidle : w.engine.controllerReady = false := hrest .controller (by simp [Engine.tasks])
      simp [Engine.controllerReady, hc, hshutdown] at hidle
    · exact absurd hrest (not_atRest_of_retiring ho hc)
    · simp [Engine.hasEnded, hc]

/-- A start that is followed by another one, up to where the controller waits for the end of the
first pipeline. -/
def handingOver : List Move :=
  [.start, .submit (.start .default), .go .controller, .go (.pipeline 1),
    .submit (.start .default), .go .controller]

theorem one_pipeline_handingOver :
    let w := (new default).run handingOver
    Reached default w ∧ w.allows (.go .controller) = false ∧ w.engine.activePipelines = 1 ∧
      (w.after (.go (.pipeline 1))).engine.activePipelines = 0 := by
  intro w
  have h : Reached default w := reached_run (by decide)
  obtain ⟨p, hp, hphase⟩ : ∃ p, w.engine.pipelines = [p] ∧ p.phase = .watching := ⟨_, rfl, rfl⟩
  refine ⟨h, by decide, by decide, ?_⟩
  exact (h.one_pipeline.2.2.1 1 (.handle ⟨2⟩ (.start .default)) rfl p (by simp [hp])).2.2
    (by simp [hphase])

end World

end CallWatch
