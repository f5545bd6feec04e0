import CallWatch.Proofs.Chronicle
import CallWatch.Proofs.Engine.Control
import CallWatch.Proofs.Engine.Pipelines

/-! # What can happen in one move

`Moves w m w' happened` lists what a move can do to a world: what comes from outside, what the
controller, a pipeline or an attempt to answer does. Whatever is kept by every one of these cases
holds all along every run. -/

namespace CallWatch

namespace Engine

/-- What a request does to the engine. -/
inductive Outside (e : Engine) : Move → Engine → List Occurrence → Prop
  /-- It is refused. -/
  | same (m) (hm : m.isRequest = true) : Outside e m e []
  /-- An action is accepted. -/
  | accept (m a) (hm : m = .submit a ∨ m = .trySubmit a) (hcl : e.queue.closed = false) :
      Outside e m { e with queue := (e.queue.buffer (e.queue.ticket, a)).issue }
        [.accepted e.queue.ticket a]
  /-- An action is discarded. -/
  | discard (a) (hcl : e.queue.closed = true) :
      Outside e (.submit a) { e with queue := e.queue.issue } []
  /-- The controller begins to work. -/
  | start (hc : e.controller = .unstarted) : Outside e .start { e with controller := .listening } []
  /-- The engine is told to end. -/
  | stop (m released) (hm : m = .stop ∨ m = .release) :
      Outside e m { e with queue := e.queue.close, shutdown := true, released := released } []

theorem Outside.isRequest {e e' : Engine} {m : Move} {happened : List Occurrence}
    (h : e.Outside m e' happened) : m.isRequest = true := by
  cases h with
  | same _ hm => exact hm
  | accept _ _ hm => rcases hm with rfl | rfl <;> rfl
  | stop _ _ hm => rcases hm with rfl | rfl <;> rfl
  | _ => rfl

/-- The engine after a pipeline went on and sent something. -/
def advancePipeline (e : Engine) (p : Pipeline) (output : Option PipelineOutput) : Engine :=
  { e.putPipeline p with channel := e.channel ++ output.toList }

theorem outside_submit (e : Engine) (a : Action) :
    e.Outside (.submit a) (e.submit a).2.1
      (if e.queue.closed then [] else [.accepted e.queue.ticket a]) := by
  rcases hcl : e.queue.closed with _ | _
  · have h : (e.submit a).2.1 =
        { e with queue := (e.queue.buffer (e.queue.ticket, a)).issue } := by
      simp [submit, ActionQueue.enqueue, ActionQueue.tryEnqueue_of_open hcl]
    rw [h]
    exact .accept _ a (.inl rfl) hcl
  · have h : (e.submit a).2.1 = { e with queue := e.queue.issue } := by
      simp [submit, ActionQueue.enqueue, ActionQueue.tryEnqueue_of_closed hcl]
    rw [h]
    exact .discard a hcl

theorem stepPipeline_eq {e : Engine} {g : Nat} {p : Pipeline} (hp : e.pipeline? g = some p)
    (s : Surroundings) :
    (e.stepPipeline s g).1 =
      e.advancePipeline (p.step s e.holds).1 (p.step s e.holds).2.1 := by
  rcases h : p.step s e.holds with ⟨p', output, events⟩
  simp only [stepPipeline, hp, h]
  rcases output with _ | o
  · simp [advancePipeline, putPipeline]
  · rfl

end Engine

namespace World

/-- Everything that a move can do, and what happens then. -/
inductive Moves (w : World) : Move → World → List Occurrence → Prop
  | outside (m e' happened) (h : w.engine.Outside m e' happened) :
      Moves w m { w with engine := e' } happened
  | store (change) : Moves w (.store change) { w with store := change.apply w.store } []
  | arrange (arrangement) : Moves w (.arrange arrangement) { w with arrangement := arrangement } []
  | pass (ms) : Moves w (.pass ms) { w with now := w.now + ms } []
  | control (e' happened) (hr : w.engine.controllerReady = true)
      (h : w.engine.Controls e' happened) :
      Moves w (.go .controller) { w with engine := e' } happened
  | pipeline (g p p' happened output) (hp : w.engine.pipeline? g = some p)
      (hr : p.isReady w.surroundings w.engine.holds w.engine.hasRoom = true)
      (h : p.Steps w.surroundings w.engine.holds p' happened output) :
      Moves w (.go (.pipeline g)) { w with engine := w.engine.advancePipeline p' output } happened
  | answering (n a) (ha : w.engine.answering? n = some a) :
      Moves w (.go (.answering n))
        { w with
          store := (a.step w.surroundings w.engine.holds).1
          engine := w.engine.putAnswering (a.step w.surroundings w.engine.holds).2.1 } []

theorem moves_go {w : World} {task : Engine.Task}
    (h : w.engine.isReady w.surroundings task = true) :
    w.Moves (.go task) (w.move (.go task)) (w.occurrences (.go task)) := by
  rcases task with _ | n | g
  · exact .control _ _ h w.engine.controls
  · rcases ha : w.engine.answering? n with _ | a
    · simp [Engine.isReady, Engine.answeringReady, ha] at h
    · have hmove : w.move (.go (.answering n)) =
          { w with
            store := (a.step w.surroundings w.engine.holds).1
            engine := w.engine.putAnswering (a.step w.surroundings w.engine.holds).2.1 } := by
        simp [move, Engine.step, Engine.stepAnswering, ha]
      rw [hmove]
      exact .answering n a ha
  · rcases hp : w.engine.pipeline? g with _ | p
    · simp [Engine.isReady, Engine.pipelineReady, hp] at h
    · have hmove : w.move (.go (.pipeline g)) =
          { w with
            engine := w.engine.advancePipeline (p.step w.surroundings w.engine.holds).1
              (p.step w.surroundings w.engine.holds).2.1 } := by
        rw [← Engine.stepPipeline_eq hp]
        rfl
      have hocc : w.occurrences (.go (.pipeline g)) =
          p.occurrences w.surroundings w.engine.holds := by simp [occurrences, hp]
      rw [hmove, hocc]
      refine .pipeline g p _ _ _ hp ?_ (p.steps _ _)
      simpa [Engine.isReady, Engine.pipelineReady, hp] using h

/-- **Every move is one of the cases.** -/
theorem moves {w : World} {m : Move} (h : w.allows m = true) :
    w.Moves m (w.move m) (w.occurrences m) := by
  rcases m with a | a | _ | _ | _ | change | arrangement | ms | task
  · exact .outside _ _ _ (w.engine.outside_submit a)
  · rcases hcl : w.engine.queue.closed with _ | _
    · have hmove : w.move (.trySubmit a) =
          { w with
            engine.queue := (w.engine.queue.buffer (w.engine.queue.ticket, a)).issue } := by
        simp [move, Engine.trySubmit, ActionQueue.tryEnqueue_of_open hcl, Except.map]
      rw [hmove, occurrences, hcl]
      exact .outside _ _ _ (.accept _ a (.inr rfl) hcl)
    · have hmove : w.move (.trySubmit a) = w := by
        simp [move, Engine.trySubmit, ActionQueue.tryEnqueue_of_closed hcl, Except.map]
      rw [hmove, occurrences, hcl]
      exact .outside _ _ _ (.same _ rfl)
  · by_cases hc : w.engine.controller = .unstarted
    · have hmove : w.move .start =
          { w with engine := { w.engine with controller := .listening } } := by
        simp [move, Engine.start, hc]
      rw [hmove]
      exact .outside _ _ _ (.start hc)
    · have hmove : w.move .start = w := by simp [move, Engine.start, hc]
      rw [hmove]
      exact .outside _ _ _ (.same _ rfl)
  · exact .outside _ _ _ (.stop _ w.engine.released (.inl rfl))
  · exact .outside _ _ _ (.stop _ true (.inr rfl))
  · exact .store change
  · exact .arrange arrangement
  · exact .pass ms
  · exact moves_go h

/-! ### What holds all along a run -/

/-- A world in which something more happened. -/
def noting (w : World) (now : Nat) (happened : List Occurrence) : World :=
  { w with chronicle := w.chronicle ++ happened.map (now, ·) }

theorem after_eq (w : World) (m : Move) :
    w.after m = (w.move m).noting w.now (w.occurrences m) := by
  have h : (w.move m).chronicle = w.chronicle := by
    rcases m with a | a | _ | _ | _ | change | arrangement | ms | task <;> try rfl
    · simp only [move]
      split <;> rfl
    · simp only [move]
      split <;> rfl
  rw [after, noting, h]

theorem Moves.chronicle_noting {w w' : World} {m : Move} {happened : List Occurrence}
    (h : w.Moves m w' happened) :
    (w'.noting w.now happened).chronicle = w.chronicle ++ happened.map (w.now, ·) := by
  cases h <;> rfl

/-- **What every admitted move keeps, every run keeps.** -/
theorem Leads.keeps {admitted : World → Move → Prop} {I : World → Prop}
    (hstep : ∀ w m w' happened, I w → admitted w m → w.Moves m w' happened →
      I (w'.noting w.now happened))
    {w w' : World} (h : Leads admitted w w') (hw : I w) : I w' := by
  induction h with
  | refl => exact hw
  | tail _ hlast ih =>
    obtain ⟨m, hm, hallows, rfl⟩ := hlast
    rw [after_eq]
    exact hstep _ m _ _ ih hm (moves hallows)

theorem Leads.mono {admitted admitted' : World → Move → Prop}
    (h : ∀ w m, admitted w m → admitted' w m) {w w' : World} (hl : Leads admitted w w') :
    Leads admitted' w w' := by
  refine Relation.ReflTransGen.mono ?_ w w' hl
  rintro a b ⟨m, hm, hr⟩
  exact ⟨m, h a m hm, hr⟩

/-- The same for runs that continue a run from the beginning. -/
theorem Leads.keeps_reached {config : EngineConfig} {admitted : World → Move → Prop}
    {I : World → Prop}
    (hstep : ∀ w m w' happened, Reached config w → I w → admitted w m → w.Moves m w' happened →
      I (w'.noting w.now happened))
    {w w' : World} (hw : Reached config w) (h : Leads admitted w w') (hi : I w) : I w' := by
  induction h with
  | refl => exact hi
  | tail hl hlast ih =>
    obtain ⟨m, hm, hallows, rfl⟩ := hlast
    rw [after_eq]
    exact hstep _ m _ _ (hw.trans (Leads.mono (fun _ _ _ => trivial) hl)) ih hm (moves hallows)

/-- Whatever moves are admitted, a run is a run. -/
theorem Leads.reached {admitted : World → Move → Prop} {config : EngineConfig} {w : World}
    (h : Leads admitted (.new config) w) : Reached config w :=
  h.mono fun _ _ _ => trivial

/-! ### What happened meanwhile -/

/-- What happened after an earlier world of the run. -/
def since (w' w : World) : Chronicle := w'.chronicle.drop w.chronicle.length

theorem since_eq {w w' : World} {c : Chronicle} (h : w'.chronicle = w.chronicle ++ c) :
    w'.since w = c := by
  rw [since, h, List.drop_left]

/-- **What every admitted move keeps of the engine and of what happened since a world, every run
keeps.** -/
theorem Leads.keeps_since {config : EngineConfig} {admitted : World → Move → Prop}
    {R : Engine → Chronicle → Prop} (w : World)
    (hstep : ∀ v m v' happened c, Reached config v → v.chronicle = w.chronicle ++ c →
      admitted v m → v.Moves m v' happened → R v.engine c →
      R v'.engine (c ++ happened.map (v.now, ·)))
    {v v' : World} {c : Chronicle} (hv : Reached config v) (hc : v.chronicle = w.chronicle ++ c)
    (hr : R v.engine c) (h : Leads admitted v v') :
    v'.chronicle = w.chronicle ++ v'.since w ∧ R v'.engine (v'.since w) := by
  have hsplit : ∃ c', v'.chronicle = w.chronicle ++ c' ∧ R v'.engine c' := by
    induction h with
    | refl => exact ⟨c, hc, hr⟩
    | tail hl hlast ih =>
      obtain ⟨c', hc', hr'⟩ := ih
      obtain ⟨m, hm, hallows, rfl⟩ := hlast
      have hmoves := moves hallows
      have hreached : Reached config _ := hv.trans (Leads.mono (fun _ _ _ => trivial) hl)
      have hkept := hstep _ m _ _ c' hreached hc' hm hmoves hr'
      rw [after_eq]
      refine ⟨_, ?_, hkept⟩
      rw [hmoves.chronicle_noting, hc', List.append_assoc]
  obtain ⟨c', hc', hr'⟩ := hsplit
  rw [since_eq hc']
  exact ⟨hc', hr'⟩

end World

end CallWatch
