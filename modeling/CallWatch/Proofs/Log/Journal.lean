import CallWatch.Proofs.Engine.Origins
import CallWatch.Proofs.Log.Correlation
import CallWatch.Proofs.Service.Running

/-! # What the journal says of answers

Only attempts to answer log at the target of answers. So what the journal of a run holds there are
the warnings of the attempts that failed, each of them once.

* `Engine.Recounts` is this, as it is kept from step to step.
* `Scenario.recounts_run` says it of the run of every scenario. -/

namespace CallWatch

open Log

/-! ### Targets -/

/-- The target of what attempts to answer log. -/
def answerTarget : String := "callkeep_engine::answer"

/-- What a journal holds at the target of answers. -/
def answerNews (journal : List Event) : List Event := journal.filter (·.target = answerTarget)

theorem answerNews_append (journal events : List Event) :
    answerNews (journal ++ events) = answerNews journal ++ answerNews events := List.filter_append ..

theorem answerNews_eq_nil {events : List Event} (h : ∀ w ∈ events, w.target ≠ answerTarget) :
    answerNews events = [] := by
  simpa [answerNews, List.filter_eq_nil_iff] using h

namespace Engine

theorem target_of_mem_publish {e : Engine} {t : Ticket} {result : DecisionResult} {w : Event}
    (h : w ∈ (e.publish t result).2) : w.target = "callkeep_engine::lifecycle" := by
  unfold publish at h
  cases result with
  | ok d => cases h
  | error error =>
    rw [List.mem_singleton.mp h]
    rfl

theorem target_of_mem_perform {e : Engine} {errand : Errand} {w : Event}
    (h : w ∈ (e.perform errand).2) : w.target = "callkeep_engine::lifecycle" := by
  unfold perform at h
  split at h
  · exact target_of_mem_publish h
  all_goals cases h

theorem target_of_mem_retire {e : Engine} {errand : Errand} {w : Event}
    (h : w ∈ (e.retire errand).2) : w.target = "callkeep_engine::lifecycle" := by
  unfold retire at h
  split at h
  · exact target_of_mem_perform h
  · cases h

theorem target_of_mem_receive {e : Engine} {o : PipelineOutput} {w : Event}
    (h : w ∈ (e.receive o).2) : w.target = "callkeep_engine::lifecycle" := by
  unfold receive at h
  split at h
  · cases h
  · split at h
    · dsimp only at h
      split at h
      · exact target_of_mem_publish h
      · rcases List.mem_append.mp h with h | h
        · exact target_of_mem_publish h
        · exact target_of_mem_retire h
    · cases h

/-- The controller logs at one target. -/
theorem target_of_mem_control {e : Engine} {w : Event} (h : w ∈ e.control.2) :
    w.target = "callkeep_engine::lifecycle" := by
  unfold control at h
  split at h
  · cases h
  · unfold listen at h
    split at h
    · exact target_of_mem_retire h
    · split at h
      · exact target_of_mem_retire h
      · split at h
        · exact target_of_mem_retire h
        · split at h
          · cases h
          · exact target_of_mem_receive h
  · split at h
    · cases h
    · exact target_of_mem_perform h
  · cases h

end Engine

theorem Lookup.target_of_mem_warnings {spans : List Span} {result : LookupResult} {w : Event}
    (h : w ∈ Lookup.warnings spans result) : w.target = "callkeep_engine::resolver" := by
  unfold warnings at h
  split at h
  · split at h
    · rw [List.mem_singleton.mp h]
      rfl
    · cases h
  · cases h

/-- Pipelines log at two targets. -/
theorem Pipeline.target_of_mem_step {s : Surroundings} {held : AccountRef → Bool} {p : Pipeline}
    {w : Event} (h : w ∈ (p.step s held).2.2) :
    w.target = "callkeep_engine::policy" ∨ w.target = "callkeep_engine::resolver" := by
  unfold step at h
  split at h
  · unfold begin at h
    dsimp only at h
    split at h
    · rw [List.mem_singleton.mp h]
      exact .inl rfl
    · cases h
  · cases h
  · split at h
    · cases h
    · split at h
      · dsimp only at h
        split at h
        · exact .inr (Lookup.target_of_mem_warnings h)
        · cases h
      · unfold Gathering.step at h
        dsimp only at h
        split at h
        · cases h
        · exact .inr (Lookup.target_of_mem_warnings h)
      all_goals cases h

/-! ### The attempts of an engine -/

namespace Engine

variable {e e' : Engine}

/-- The warnings of the attempts that failed. -/
def failures (e : Engine) : List Event := e.answerings.filterMap (·.warning?)

/-- Attempts are numbered in their order. -/
def Numbers (e : Engine) : Prop := e.answerings.map (·.number) = List.range e.answerings.length

/-- The attempts of an engine come to nothing new, though there may be more of them. -/
structure Quiet (e e' : Engine) : Prop where
  failures : e'.failures = e.failures
  numbers : e.Numbers → e'.Numbers

theorem Quiet.of_answerings (h : e'.answerings = e.answerings) : e.Quiet e' := by
  constructor
  · rw [Engine.failures, h, Engine.failures]
  · intro hnumbers
    rw [Numbers, h]
    exact hnumbers

theorem Quiet.trans {e'' : Engine} (h : e.Quiet e') (h' : e'.Quiet e'') : e.Quiet e'' :=
  ⟨h'.failures.trans h.failures, fun hn => h'.numbers (h.numbers hn)⟩

theorem quiet_cancel (e : Engine) (g : Nat) : e.Quiet (e.cancel g) := by
  have hsame (a : Answering) :
      (if a.generation = some g then { a with cancelled := true } else a).warning? = a.warning? ∧
        (if a.generation = some g then { a with cancelled := true } else a).number = a.number := by
    split <;> exact ⟨rfl, rfl⟩
  constructor
  · simp only [Engine.failures, cancel, List.filterMap_map]
    exact List.filterMap_congr fun a _ => (hsame a).1
  · intro hnumbers
    simp only [Numbers, cancel, List.map_map, List.length_map]
    rw [← hnumbers]
    exact List.map_congr_left fun a _ => (hsame a).2

theorem quiet_begin (e : Engine) (t : Ticket) (how : StartAction) : e.Quiet (e.begin t how) := by
  constructor
  · rw [Engine.failures, answerings_begin, List.filterMap_append, Engine.failures]
    cases how.target? with
    | none => exact List.append_nil _
    | some target => exact List.append_nil _
  · intro hnumbers
    rw [Numbers, answerings_begin, List.map_append, hnumbers]
    cases how.target? with
    | none => simp
    | some target => simp [List.range_succ, Answering.new]

theorem Controls.quiet {happened : List Occurrence} (h : e.Controls e' happened) : e.Quiet e' := by
  rcases h.answerings_cases with heq | ⟨g, heq⟩ | ⟨t, how, heq⟩
  · exact .of_answerings heq
  · exact (e.quiet_cancel g).trans (.of_answerings heq)
  · exact (e.quiet_begin t how).trans (.of_answerings heq)

end Engine

/-- A member that comes to something in its new state adds it to what the others came to. -/
theorem filterMap_replaced_perm {α β : Type} {number : α → Nat} {n : Nat} {l : List α} {x y : α}
    {f : α → Option β} (hnodup : (l.map number).Nodup)
    (h : l.find? (fun z => number z == n) = some y) (hy : f y = none) :
    ((l.map fun z => if number z = n then x else z).filterMap f).Perm
      (l.filterMap f ++ (f x).toList) := by
  induction l with
  | nil => cases h
  | cons z rest ih =>
    rw [List.map_cons, List.nodup_cons] at hnodup
    rw [List.map_cons]
    by_cases hz : number z = n
    · -- it stands in front, and nobody behind it has its number
      rw [List.find?_cons_of_pos (by simpa using hz)] at h
      cases h
      have hrest : (rest.map fun z => if number z = n then x else z) = rest := by
        refine (List.map_congr_left fun z' hz' => if_neg fun heq => hnodup.1 ?_).trans
          (List.map_id rest)
        rw [hz, ← heq]
        exact List.mem_map_of_mem hz'
      rw [hrest, if_pos hz, List.filterMap_cons_none hy]
      have hsplit : (x :: rest).filterMap f = (f x).toList ++ rest.filterMap f := by
        cases hx : f x with
        | none => rw [List.filterMap_cons_none hx, Option.toList_none, List.nil_append]
        | some w =>
          rw [List.filterMap_cons_some hx, Option.toList_some, List.singleton_append]
      rw [hsplit]
      exact List.perm_append_comm
    · rw [List.find?_cons_of_neg (by simpa using hz)] at h
      have hperm := ih hnodup.2 h
      rw [if_neg hz]
      cases hw : f z with
      | none => rwa [List.filterMap_cons_none hw, List.filterMap_cons_none hw]
      | some w =>
        rw [List.filterMap_cons_some hw, List.filterMap_cons_some hw, List.cons_append]
        exact hperm.cons w

/-! ### What the journal says -/

namespace Engine

/-- What a journal says of answers are the failures of an engine's attempts, each once. -/
structure Recounts (e : Engine) (journal : List Event) : Prop where
  numbers : e.Numbers
  news : (answerNews journal).Perm e.failures

variable {e e' : Engine} {journal events : List Event}

/-- Attempts that come to nothing, and events of others. -/
theorem Recounts.quiet (h : e.Recounts journal) (hquiet : e.Quiet e')
    (hevents : ∀ w ∈ events, w.target ≠ answerTarget) : e'.Recounts (journal ++ events) := by
  refine ⟨hquiet.numbers h.numbers, ?_⟩
  rw [answerNews_append, answerNews_eq_nil hevents, List.append_nil, hquiet.failures]
  exact h.news

/-- An attempt goes on. -/
theorem Recounts.answering (h : e.Recounts journal) {s : Surroundings} {n : Nat} {a : Answering}
    (ha : e.answering? n = some a) (hgoing : a.outcome? = none) :
    (e.putAnswering (a.step s e.holds).2.1).Recounts (journal ++ (a.step s e.holds).2.2) := by
  obtain ⟨-, hn⟩ := mem_of_found ha
  have hnumber : (a.step s e.holds).2.1.number = n := by
    have hidentity := (Answering.steps s e.holds a).identity
    simp only [Answering.identity, Prod.mk.injEq] at hidentity
    rw [hidentity.1, hn]
  have hnodup : (e.answerings.map (·.number)).Nodup := by
    rw [h.numbers]
    exact List.nodup_range
  constructor
  case numbers =>
    have hlist := numbers_replaced Answering.number hnumber e.answerings
    have hput : (e.putAnswering (a.step s e.holds).2.1).answerings =
        e.answerings.map fun b => if b.number = n then (a.step s e.holds).2.1 else b := by
      rw [putAnswering, hnumber]
    rw [Numbers, hput, hlist, List.length_map]
    exact h.numbers
  case news =>
    have hperm := filterMap_replaced_perm (x := (a.step s e.holds).2.1) hnodup ha
      (Answering.warning?_eq_none hgoing)
    have hnews : answerNews (a.step s e.holds).2.2 = (a.step s e.holds).2.1.warning?.toList := by
      rw [Answering.events_step hgoing]
      unfold Answering.warning?
      split <;> rfl
    have hput : (e.putAnswering (a.step s e.holds).2.1).failures =
        (e.answerings.map fun b =>
          if b.number = n then (a.step s e.holds).2.1 else b).filterMap (·.warning?) := by
      rw [failures, putAnswering, hnumber]
    rw [answerNews_append, hnews, hput]
    exact (h.news.append_right _).trans hperm.symm

/-- A task goes on. -/
theorem Recounts.step (h : e.Recounts journal) {s : Surroundings} {task : Task}
    (hready : e.isReady s task = true) :
    (e.step s task).2.1.Recounts (journal ++ (e.step s task).2.2) := by
  cases task with
  | controller =>
    refine h.quiet e.controls.quiet fun w hw => ?_
    rw [target_of_mem_control hw]
    decide
  | pipeline g =>
    obtain ⟨p, hp⟩ : ∃ p, e.pipeline? g = some p := by
      simp only [isReady, pipelineReady, Option.any_eq_true] at hready
      exact ⟨_, hready.choose_spec.1⟩
    have hevents : (e.stepPipeline s g).2 = (p.step s e.holds).2.2 := by
      simp only [stepPipeline, hp]
    have hquiet : e.Quiet (e.stepPipeline s g).1 := by
      rw [stepPipeline_eq hp]
      exact .of_answerings rfl
    refine h.quiet hquiet fun w hw => ?_
    have hmem : w ∈ (p.step s e.holds).2.2 := hevents ▸ hw
    rcases Pipeline.target_of_mem_step hmem with htarget | htarget
    · rw [htarget]
      decide
    · rw [htarget]
      decide
  | answering n =>
    obtain ⟨a, ha, hgo⟩ : ∃ a, e.answering? n = some a ∧ a.isReady s e.holds = true := by
      simpa only [isReady, answeringReady, Option.any_eq_true] using hready
    have hgoing : a.outcome? = none := by
      unfold Answering.outcome?
      split
      · next outcome hs => simp [Answering.isReady, hs] at hgo
      · rfl
    have hstep : e.step s (.answering n) = ((a.step s e.holds).1,
        e.putAnswering (a.step s e.holds).2.1, (a.step s e.holds).2.2) := by
      simp only [Engine.step, stepAnswering, ha]
    rw [hstep]
    exact h.answering ha hgoing

end Engine

namespace Machine

/-- What the journal of a machine says of answers is what its engine's attempts came to. -/
def Recounts (m : Machine) : Prop := m.engine.Recounts m.journal

variable {m m' : Machine}

theorem Recounts.log (h : m.Recounts) {events : List Event}
    (hevents : ∀ w ∈ events, w.target ≠ answerTarget) : (m.log events).Recounts :=
  Engine.Recounts.quiet h (.of_answerings rfl) hevents

theorem Recounts.stepObserver (h : m.Recounts) (n : Nat) : (m.stepObserver n).Recounts := by
  have hevents (p : Published) : ∀ w ∈ Observer.events p, w.target ≠ answerTarget := by
    intro w hw
    unfold Observer.events at hw
    split at hw
    · rw [List.mem_singleton.mp hw]
      exact (by decide : "callkeep_service::host" ≠ answerTarget)
    · cases hw
  unfold Machine.stepObserver
  split
  · exact h
  · dsimp only
    split
    · exact Recounts.log h (hevents _)
    · exact h

/-- **Every step keeps it.** -/
theorem Goes.recounts (h : m.Recounts) (hgo : m.Goes m') : m'.Recounts := by
  cases hgo with
  | task t hready =>
    cases t with
    | engine task => exact Engine.Recounts.step h hready
    | observer n => exact h.stepObserver n
  | submit a =>
    unfold Machine.submit
    split
    · refine Engine.Recounts.quiet h (.of_answerings rfl) fun w hw => ?_
      split at hw
      · rw [List.mem_singleton.mp hw]
        exact (by decide : "callkeep_engine::queue" ≠ answerTarget)
      · cases hw
    · exact h
  | shutdown =>
    have hquiet : m.engine.Quiet m.engine.stop := .of_answerings rfl
    have hstop : m.engine.stop.Recounts (m.journal ++ []) :=
      Engine.Recounts.quiet h hquiet (by simp)
    rwa [List.append_nil] at hstop
  | around _ hengine hjournal =>
    unfold Recounts
    rw [hengine, hjournal]
    exact h

end Machine

/-- **What the journal of a scenario says of answers are the failures of its attempts, each once.** -/
theorem Scenario.recounts_run (s : Scenario) (config : EngineConfig) : (s.run config).1.Recounts := by
  have hstart : (s.machine config).Recounts := ⟨rfl, .refl _⟩
  exact (s.goesOn_run config).keeps hstart fun _ _ => Machine.Goes.recounts

end CallWatch
