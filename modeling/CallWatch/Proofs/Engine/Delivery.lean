import CallWatch.Proofs.Engine.Publishing
import CallWatch.Proofs.Engine.Weighing

/-! # What arrives of what a pipeline decides

What passes the debounce of the current pipeline goes through the channel into the slot. `Delivers`
says that nothing is lost or reordered on this way, as long as the engine is not told to end:

* the decision that passed last is the last one that arrived or is about to be sent (`Reports`);
* a pipeline that is gone has sent a failure;
* a start that was processed last is to be handled, or has a pipeline, or a failure was published
  for it. -/

namespace CallWatch

open Chronicle

/-- A failure was published for an action. -/
def Chronicle.Failed (c : Chronicle) (t : Ticket) : Prop :=
  ∃ x ∈ c.publishedFor t, ∃ error, x.1.result = .error error

theorem Chronicle.Failed.append {c : Chronicle} {t : Ticket} (h : c.Failed t) (c' : Chronicle) :
    Chronicle.Failed (c ++ c') t := by
  obtain ⟨x, hx, herror⟩ := h
  exact ⟨x, by rw [publishedFor_append]; exact List.mem_append_left _ hx, herror⟩

/-- The pipeline is about to send a failure and end. -/
def Pipeline.IsFailing (p : Pipeline) : Prop := ∃ e, p.phase = .sending (.error e) .finish

/-- A pipeline goes on after a decision and ends after a failure. -/
def Pipeline.EndsByFailure (p : Pipeline) : Prop :=
  ∀ result next, p.phase = .sending result next →
    (∃ d, result = .ok d ∧ next = .goOn) ∨ ∃ e, result = .error e ∧ next = .finish

namespace Engine

/-- What arrived from the current pipeline: what stands in the slot, and what waits in the channel. -/
def arrived (e : Engine) (g : Nat) : List DecisionResult :=
  e.slot.value.toList.map (·.result) ++
    (e.channel.filter fun o => o.generation = g).map (·.result)

/-- The decision that passed the debounce last is the last one on its way. -/
def Reports (e : Engine) (p : Pipeline) : Prop :=
  p.IsFailing ∨
    (e.arrived p.generation ++ p.outgoing?.toList).getLast? = p.debounce.lastForwarded.map .ok

/-- How the engine carries the results of the pipeline that was begun for a start. -/
structure Carries (e : Engine) (active : ActivePipeline) (how : StartAction) : Prop where
  slot : ∀ q, e.slot.value = some q → q.ticket = active.ticket
  target : ∀ p ∈ e.pipelines, p.target = how.target?
  reports : ∀ p ∈ e.pipelines, e.Reports p
  gone : e.pipelines = [] →
    ∃ o ∈ e.channel, o.generation = active.generation ∧ ∃ error, o.result = .error error

/-- The engine was not told to end. -/
structure IsWorking (e : Engine) : Prop where
  shutdown : e.shutdown = false
  ended : e.controller ≠ .ended
  leaving : ∀ g, e.controller ≠ .retiring g .leave

theorem IsWorking.of_eq {e e' : Engine} (h : e.IsWorking) (hs : e'.shutdown = e.shutdown)
    (hc : e'.controller = e.controller) : e'.IsWorking :=
  ⟨hs.trans h.shutdown, hc ▸ h.ended, hc ▸ h.leaving⟩

/-- How the engine delivers what its pipelines decide. -/
structure Delivers (e : Engine) (c : Chronicle) : Prop where
  working : e.IsWorking
  older : ∀ o ∈ e.channel, o.generation ≤ e.generation
  engaged : ∀ t how, c.lastProcessed = some (t, .start how) →
    e.Handles t (.start how) ∨ (∃ g, e.current = some ⟨g, t⟩) ∨ c.Failed t
  carries : ∀ active how, e.current = some active →
    c.lastProcessed = some (active.ticket, .start how) → e.Carries active how

namespace Delivers

variable {e : Engine} {c : Chronicle}

theorem new (config : EngineConfig) : (Engine.new config).Delivers [] where
  working := ⟨rfl, by simp [Engine.new], by simp [Engine.new]⟩
  older := by simp [Engine.new]
  engaged := by simp [lastProcessed, processed]
  carries := by simp [Engine.new]

/-- What touches neither the pipelines nor what they sent delivers as before. -/
theorem of_eq (h : e.Delivers c) (e' : Engine) {c' : Chronicle} (hproc : processed c' = [])
    (hworking : e'.IsWorking) (hhandles : ∀ t a, e.Handles t a → e'.Handles t a)
    (hcur : e'.current = e.current) (hgen : e'.generation = e.generation) (hpipelines : e'.pipelines = e.pipelines)
    (hch : e'.channel = e.channel) (hslot : e'.slot = e.slot) : e'.Delivers (c ++ c') := by
  have hlast := lastProcessed_append_of_processed_eq_nil c hproc
  have harrived (g) : e'.arrived g = e.arrived g := by rw [arrived, arrived, hch, hslot]
  constructor
  · exact hworking
  · rw [hch, hgen]; exact h.older
  · intro t how hl
    rw [hlast] at hl
    rw [hcur]
    exact (h.engaged t how hl).imp (hhandles t _) (Or.imp_right fun hf => hf.append c')
  · intro active how ha hl
    rw [hlast] at hl
    have hcarries := h.carries active how (hcur ▸ ha) hl
    constructor
    · rw [hslot]; exact hcarries.slot
    · rw [hpipelines]; exact hcarries.target
    · intro p hp
      rw [hpipelines] at hp
      rw [Reports, harrived]
      exact hcarries.reports p hp
    · rw [hpipelines, hch]; exact hcarries.gone

/-- Where there is no current pipeline there is nothing to be carried. -/
theorem of_none (hworking : e.IsWorking) (hcur : e.current = none)
    (holder : ∀ o ∈ e.channel, o.generation ≤ e.generation)
    (hengaged : ∀ t how, c.lastProcessed = some (t, .start how) →
      e.Handles t (.start how) ∨ c.Failed t) : e.Delivers c where
  working := hworking
  older := holder
  engaged t how hl := (hengaged t how hl).imp_right .inr
  carries active how ha := by rw [hcur] at ha; cases ha

/-- A new pipeline has sent nothing, and nothing of an older one is taken for its own. -/
theorem begin (hworking : e.IsWorking) (hpipelines : e.pipelines = [])
    (holder : ∀ o ∈ e.channel, o.generation ≤ e.generation) {t : Ticket} {how : StartAction}
    (hlast : c.lastProcessed = some (t, .start how)) : (e.begin t how).Delivers c := by
  have hnew := e.pipelines_begin t how
  rw [hpipelines, List.nil_append] at hnew
  have hnone : e.channel.filter (fun o => o.generation = e.generation + 1) = [] := by
    refine List.filter_eq_nil_iff.mpr fun o ho => ?_
    have := holder o ho
    simp only [decide_eq_true_eq]
    omega
  have harrived : (e.begin t how).arrived (e.generation + 1) = [] := by
    rw [arrived, slot_begin, channel_begin, hnone]
    rfl
  constructor
  · exact ⟨by simpa using hworking.shutdown, by simpa using hworking.ended,
      by simpa using hworking.leaving⟩
  · intro o ho
    rw [channel_begin] at ho
    rw [generation_begin]
    exact Nat.le_succ_of_le (holder o ho)
  · intro t' how' hl
    rw [hlast] at hl
    cases hl
    exact .inr (.inl ⟨_, current_begin e t how⟩)
  · intro active how' ha hl
    rw [current_begin] at ha
    cases ha
    rw [hlast] at hl
    cases hl
    constructor
    · simp
    · simp [hnew, Pipeline.new]
    · intro p hp
      rw [hnew, List.mem_singleton] at hp
      subst hp
      refine .inr ?_
      rw [show Pipeline.generation _ = e.generation + 1 from rfl, harrived]
      rfl
    · simp [hnew]

/-! ### The controller -/

/-- What the controller takes for the current pipeline goes from the channel into the slot. -/
theorem reports_announce {o : PipelineOutput} {rest : List PipelineOutput} {p : Pipeline}
    (h : e.Reports p) (hch : e.channel = o :: rest) (hg : p.generation = o.generation) (t : Ticket) :
    ((e.withChannel rest).announce t o.result).Reports p := by
  refine h.imp_right fun hreports => ?_
  have hfirst : (e.channel.filter fun o => o.generation = p.generation) =
      o :: rest.filter fun o => o.generation = p.generation := by
    rw [hch, List.filter_cons_of_pos (by simp [hg])]
  have hafter : ((e.withChannel rest).announce t o.result).arrived p.generation =
      o.result :: (rest.filter fun o => o.generation = p.generation).map (·.result) := rfl
  rw [arrived, hfirst, List.map_cons, List.append_assoc, List.cons_append] at hreports
  rw [← hreports, hafter, List.cons_append, List.getLast?_append, List.getLast?_cons,
    Option.some_or]

/-- Taking what is not of the current pipeline from the channel changes nothing for it. -/
theorem arrived_withChannel {o : PipelineOutput} {rest : List PipelineOutput}
    (hch : e.channel = o :: rest) {g : Nat} (hg : g ≠ o.generation) :
    (e.withChannel rest).arrived g = e.arrived g := by
  rw [arrived, arrived, hch, List.filter_cons_of_neg (by simpa using Ne.symm hg)]
  rfl

theorem controls (h : e.Delivers c) (hacc : e.Accounts c) (ho : e.Orderly)
    (hcl : e.queue.closed = false) {e' : Engine} {happened : List Occurrence}
    (hstep : e.Controls e' happened) (now : Nat) : e'.Delivers (c ++ happened.map (now, ·)) := by
  have told (hend : e.shutdown = true ∨ e.queue.items = [] ∧ e.queue.closed = true) : False := by
    simp [h.working.shutdown, hcl] at hend
  cases hstep with
  | idle => simpa using h
  | drop o rest hc hs hq hch hcur =>
    rw [List.map_nil, List.append_nil]
    refine ⟨⟨hs, h.working.ended, h.working.leaving⟩, ?_, h.engaged, fun active how ha hl => ?_⟩
    · exact fun o' ho' => h.older o' (hch ▸ List.mem_cons_of_mem _ ho')
    · have hcarries := h.carries active how ha hl
      refine ⟨hcarries.slot, hcarries.target, fun p hp => ?_, fun hnil => ?_⟩
      · have hgen : p.generation ≠ o.generation := by
          rw [ho.newest p hp, ← (ho.current active ha).2.1]
          exact hcur active ha
        rw [Reports, arrived_withChannel hch hgen]
        exact hcarries.reports p hp
      · obtain ⟨o', ho', hg', herror⟩ := hcarries.gone hnil
        rw [hch] at ho'
        refine ⟨o', (List.mem_cons.mp ho').resolve_left ?_, hg', herror⟩
        rintro rfl
        exact hcur active ha hg'.symm
  | pass o rest active d hc hs hq hch hcur hg hr =>
    have hlast : lastProcessed (c ++ [(now, .published (e.nextPublication active.ticket (.ok d))
        (some active.generation))]) = c.lastProcessed :=
      lastProcessed_append_of_processed_eq_nil c rfl
    refine ⟨⟨hs, h.working.ended, h.working.leaving⟩, ?_, fun t how hl => ?_,
      fun active' how ha hl => ?_⟩
    · exact fun o' ho' => h.older o' (hch ▸ List.mem_cons_of_mem _ ho')
    · rw [List.map_singleton, hlast] at hl
      exact (h.engaged t how hl).imp_right (Or.imp_right fun hf => hf.append _)
    · rw [List.map_singleton, hlast] at hl
      obtain rfl : active = active' := Option.some.inj (hcur.symm.trans ha)
      have hcarries := h.carries active how hcur hl
      refine ⟨?_, hcarries.target, fun p hp => ?_, fun hnil => ?_⟩
      · rintro q ⟨⟩
        rfl
      · have hgen : p.generation = o.generation := by
          rw [ho.newest p hp, ← (ho.current active hcur).2.1, hg]
        rw [← hr]
        exact reports_announce (hcarries.reports p hp) hch hgen _
      · obtain ⟨o', ho', hg', error, herror⟩ := hcarries.gone hnil
        rw [hch] at ho'
        refine ⟨o', (List.mem_cons.mp ho').resolve_left ?_, hg', error, herror⟩
        rintro rfl
        cases hr.symm.trans herror
  | fail o rest active error hc hs hq hch hcur hg hr =>
    refine .of_none ⟨hs, by simp [dismiss], by simp [dismiss]⟩ rfl ?_ fun t how hl => .inr ?_
    · exact fun o' ho' => h.older o' (hch ▸ List.mem_cons_of_mem _ ho')
    · rw [lastProcessed_append_of_processed_eq_nil c rfl] at hl
      obtain ⟨⟨how', hl'⟩, -⟩ := hacc.active active hcur
      obtain ⟨rfl, -⟩ := Prod.mk.inj (Option.some.inj (hl'.symm.trans hl))
      refine ⟨(e.nextPublication active.ticket (.error error), some active.generation), ?_,
        error, rfl⟩
      rw [publishedFor_append]
      exact List.mem_append_right _ (by simp [publishedFor, published, nextPublication])
  | leave active hc hend => exact (told hend).elim
  | quit hc hend => exact (told hend).elim
  | take active t a rest hc hs hq hcur =>
    refine .of_none ⟨hs, by simp [dismiss], ?_⟩ rfl h.older fun t' how hl => ?_
    · simp [dismiss]
    · rw [List.map_singleton, lastProcessed_append_processed c [] now t a rfl] at hl
      cases hl
      exact .inl ⟨_, rfl⟩
  | takeStop t rest hc hs hq hcur =>
    refine .of_none ⟨hs, h.working.ended, h.working.leaving⟩ hcur h.older fun t' how hl => ?_
    rw [List.map_cons, lastProcessed_append_processed c _ now t _ rfl] at hl
    cases hl
  | takeStart t how rest hc hs hq hcur =>
    refine begin (e := e.withoutFirst rest) ⟨hs, h.working.ended, h.working.leaving⟩
      (ho.free hc hcur) h.older ?_
    rw [List.map_cons, lastProcessed_append_processed c _ now t _ rfl]
  | handleStop g t hc hg =>
    refine .of_none ⟨h.working.shutdown, by simp [announce, publish, listening], ?_⟩
      (ho.retiring _ _ hc).1 h.older fun t' how hl => ?_
    · simp [announce, publish, listening]
    · rw [lastProcessed_append_of_processed_eq_nil c rfl, (hacc.handles t _ ⟨g, hc⟩).1] at hl
      cases hl
  | handleStart g t how hc hg =>
    refine begin (e := e.listening) ⟨h.working.shutdown, by simp [listening], by simp [listening]⟩
      (ho.pipelines_eq_nil hc hg) h.older ?_
    rw [lastProcessed_append_of_processed_eq_nil c rfl]
    exact (hacc.handles t _ ⟨g, hc⟩).1
  | resume g hc hg =>
    rw [List.map_nil, List.append_nil]
    obtain ⟨hnone, -⟩ := ho.retiring _ _ hc
    refine .of_none ⟨h.working.shutdown, by simp [listening], by simp [listening]⟩ hnone h.older
      fun t how hl => .inr ?_
    rcases h.engaged t how hl with ⟨g', hg'⟩ | ⟨g', hcur⟩ | hf
    · cases hc.symm.trans hg'
    · cases hnone.symm.trans hcur
    · exact hf
  | finish g hc => exact absurd hc (h.working.leaving g)

/-! ### From outside -/

theorem outside (h : e.Delivers c) {m : Move} (hm : m ≠ .stop ∧ m ≠ .release) {e' : Engine}
    {happened : List Occurrence} (hstep : e.Outside m e' happened) (now : Nat) :
    e'.Delivers (c ++ happened.map (now, ·)) := by
  cases hstep with
  | same => exact h.of_eq e rfl h.working (fun _ _ hh => hh) rfl rfl rfl rfl rfl
  | accept => exact h.of_eq _ rfl (h.working.of_eq rfl rfl) (fun _ _ hh => hh) rfl rfl rfl rfl rfl
  | discard => exact h.of_eq _ rfl (h.working.of_eq rfl rfl) (fun _ _ hh => hh) rfl rfl rfl rfl rfl
  | start hc =>
    refine h.of_eq _ rfl ⟨h.working.shutdown, by simp, by simp⟩ ?_ rfl rfl rfl rfl rfl
    rintro t a ⟨g, hg⟩
    cases hc.symm.trans hg
  | stop m released hstop =>
    rcases hstop with rfl | rfl
    · exact absurd rfl hm.1
    · exact absurd rfl hm.2

/-! ### The pipeline -/

/-- What passes the debounce is the last that is about to be sent. -/
theorem getLast?_passed (sent : List DecisionResult) {passed last : Option Decision}
    (h : sent.getLast? = last.map .ok) :
    (sent ++ (passed.map Except.ok).toList).getLast? = (passed.or last).map .ok := by
  rcases passed with _ | d
  · simpa using h
  · simp

/-- A pipeline that goes on reports as before. -/
theorem reports_step {e e' : Engine} {now : Nat} {p p' : Pipeline} {happened : List Occurrence}
    {output : Option PipelineOutput} (h : e.Reports p) (hstep : p.Weighs now p' happened output)
    (hends : p.EndsByFailure) (hends' : p'.EndsByFailure) (halive : p'.phase ≠ .finished)
    (harrived : e'.arrived p'.generation =
      e.arrived p.generation ++ output.toList.map (·.result)) : e'.Reports p' := by
  rw [Reports, harrived]
  -- What is not about to send anything has reported.
  have reported (hidle : p.outgoing? = none) :
      (e.arrived p.generation).getLast? = p.debounce.lastForwarded.map .ok := by
    rcases h with ⟨error, hp⟩ | hr
    · simp [Pipeline.outgoing?, hp] at hidle
    · simpa [hidle] using hr
  cases hstep with
  | offer d before _ hidle _ houtput hdebounce hphase =>
    refine .inr ?_
    rw [houtput, Option.toList_none, List.map_nil, List.append_nil, hdebounce,
      Pipeline.outgoing?_congr hphase, Pipeline.offer, Pipeline.outgoing?_emit]
    refine (getLast?_passed _ (reported hidle)).trans ?_
    rw [← Debounce.offer_passes]
    rfl
  | fire hidle _ houtput hp =>
    refine .inr ?_
    rw [houtput, Option.toList_none, List.map_nil, List.append_nil, hp, Pipeline.outgoing?_emit]
    refine (getLast?_passed _ (reported hidle)).trans ?_
    rw [← Debounce.fire_passes]
    rfl
  | send result next hsending _ houtput hdebounce hphase =>
    rcases hends result next hsending with ⟨d, rfl, rfl⟩ | ⟨error, rfl, rfl⟩
    · have hidle : p'.outgoing? = none := by simp [Pipeline.outgoing?, hphase]
      rcases h with ⟨error, hp⟩ | hr
      · cases hsending.symm.trans hp
      · refine .inr ?_
        rw [houtput, hidle, hdebounce, ← hr, Pipeline.outgoing?, hsending]
        simp
    · exact absurd hphase halive
  | leave hidle _ houtput hdebounce hphase =>
    rcases hp' : p'.outgoing? with _ | result
    · refine .inr ?_
      rw [houtput, hdebounce]
      simpa using reported hidle
    · -- Only a failure can be about to be sent.
      unfold Pipeline.outgoing? at hp'
      split at hp'
      · next result' next hsending =>
        rcases hends' _ _ hsending with ⟨d, rfl, -⟩ | ⟨error, rfl, rfl⟩
        · exact absurd hsending (hphase.2 d next)
        · exact .inl ⟨error, hsending⟩
      · cases hp'
  | quit _ _ _ _ hphase => exact absurd hphase halive

/-- A pipeline that is gone without being cancelled has sent a failure. -/
theorem output_of_finished {now : Nat} {p p' : Pipeline} {happened : List Occurrence}
    {output : Option PipelineOutput} (hstep : p.Weighs now p' happened output)
    (hends : p.EndsByFailure) (hcancelled : p.cancelled = false) (halive : p.phase ≠ .finished)
    (hgone : p'.phase = .finished) : ∃ error, output = some ⟨p.generation, .error error⟩ := by
  have emitted {q : Pipeline} {passed : Debounce × Option Decision} :
      (q.emit passed).phase ≠ .finished := by
    obtain ⟨debounce, _ | d⟩ := passed <;> simp [Pipeline.emit]
  cases hstep with
  | offer _ _ _ _ _ _ _ hphase => exact absurd (hphase.symm.trans hgone) emitted
  | fire _ _ _ hp => exact absurd (hp ▸ hgone) emitted
  | send result next hsending _ houtput _ hphase =>
    rcases hends result next hsending with ⟨d, rfl, rfl⟩ | ⟨error, rfl, rfl⟩
    · cases hphase.symm.trans hgone
    · exact ⟨error, houtput⟩
  | leave _ _ _ _ hphase => exact absurd hgone hphase.1
  | quit hcause =>
    rcases hcause with hc | hp
    · simp [hcancelled] at hc
    · exact absurd hp halive

theorem advancePipeline (h : e.Delivers c) (ho : e.Orderly) {s : Surroundings}
    {held : AccountRef → Bool} {g : Nat} {p p' : Pipeline} {happened : List Occurrence}
    {output : Option PipelineOutput} (hp : e.pipeline? g = some p) (hlive : p.FollowsLive)
    (hends : p.EndsByFailure) (hends' : p'.EndsByFailure)
    (hstep : p.Steps s held p' happened output) (now : Nat) :
    (e.advancePipeline p' output).Delivers (c ++ happened.map (now, ·)) := by
  obtain ⟨hmem, -⟩ := pipeline?_mem hp
  have hgen : p'.generation = p.generation := congrArg (·.1) hstep.identity
  have htarget : p'.target = p.target := congrArg (·.2.1) hstep.identity
  have hlast := lastProcessed_append_of_processed_eq_nil c (hstep.readings now).1
  have houtput : ∀ o ∈ output, o.generation = p.generation := fun o ho => (hstep.emitted o ho).1
  have only {q : Pipeline} (hq : q ∈ (e.advancePipeline p' output).pipelines) :
      q = p' ∧ p'.phase ≠ .finished := ho.mem_advancePipeline hp hstep.identity hq
  refine ⟨⟨h.working.shutdown, h.working.ended, h.working.leaving⟩, fun o hmem' => ?_,
    fun t how hl => ?_, fun active how ha hl => ?_⟩
  · rcases List.mem_append.mp hmem' with hmem' | hmem'
    · exact h.older o hmem'
    · rw [houtput o (Option.mem_toList.mp hmem'), ho.newest p hmem]
      exact Nat.le_refl _
  · rw [hlast] at hl
    exact (h.engaged t how hl).imp_right (Or.imp_right fun hf => hf.append _)
  · rw [hlast] at hl
    obtain ⟨-, hactive, hcancelled⟩ := ho.current active ha
    have hcarries := h.carries active how ha hl
    have harrived : (e.advancePipeline p' output).arrived p'.generation =
        e.arrived p.generation ++ output.toList.map (·.result) := by
      have hall : output.toList.filter (fun o => o.generation = p.generation) = output.toList :=
        List.filter_eq_self.mpr fun o ho => by simp [houtput o (Option.mem_toList.mp ho)]
      have hch : (e.advancePipeline p' output).channel = e.channel ++ output.toList := rfl
      have hslot : (e.advancePipeline p' output).slot = e.slot := rfl
      rw [arrived, hch, hslot, hgen, List.filter_append, hall, List.map_append, ← List.append_assoc,
        arrived]
    refine ⟨hcarries.slot, fun q hq => ?_, fun q hq => ?_, fun hnil => ?_⟩
    · rw [(only hq).1, htarget]
      exact hcarries.target p hmem
    · obtain ⟨rfl, halive⟩ := only hq
      exact reports_step (hcarries.reports p hmem) (hstep.weighs hlive) hends hends' halive harrived
    · have hgone : p'.phase = .finished := by
        by_contra halive
        have hkept : p' ∈ (e.advancePipeline p' output).pipelines :=
          mem_putPipeline_self hmem hgen halive
        rw [hnil] at hkept
        cases hkept
      obtain ⟨error, rfl⟩ := output_of_finished (hstep.weighs hlive) hends (hcancelled p hmem)
        (ho.unfinished p hmem) hgone
      refine ⟨⟨p.generation, .error error⟩, ?_, ?_, error, rfl⟩
      · exact List.mem_append_right _ (by simp)
      · rw [hactive]
        exact ho.newest p hmem

end Delivers

end Engine

end CallWatch
