import CallWatch.Proofs.Engine.Convergence
import CallWatch.Proofs.Engine.Notes
import CallWatch.Proofs.Engine.Origins

/-! # Attempts that are tied to their pipeline

An attempt to answer that is tied to the pipeline begun with it lasts as long as that pipeline is in
charge. Whatever takes the charge from the pipeline cancels the attempt in the same move, and an
attempt that is tied and cancelled comes to nothing any more.

* `Engine.Tied`: an attempt that is not cancelled was begun with the pipeline in charge.
* `Engine.GivenUp`: an attempt comes to nothing any more.
* `World.DoneWith`: the pipeline of an action is not in charge any more, told by what happened. -/

namespace CallWatch

open Chronicle

/-- An attempt stays cancelled, or not, in its own turns. -/
theorem Answering.Steps.cancelled {s : Surroundings} {held : AccountRef → Bool} {a a' : Answering}
    {store : Store} (h : a.Steps s held store a') : a'.cancelled = a.cancelled := by
  have asked (q : Question) (stage : Wait → AnswerStage) :
      (a.ask s q stage).1.cancelled = a.cancelled := by
    unfold Answering.ask
    split <;> rfl
  cases h with
  | begin => exact asked _ _
  | accept => exact asked _ _
  | find => exact asked _ _
  | _ => rfl

/-- An attempt that was given up leaves the store as it is. -/
theorem Answering.step_of_isAborted {s : Surroundings} (held : AccountRef → Bool) {a : Answering}
    (h : a.isAborted = true) : (a.step s held).1 = s.store ∧ a.effect? s = none := by
  simp [Answering.step, Answering.effect?, h]

namespace Engine

/-- An attempt that is not cancelled was begun with the pipeline in charge. -/
def Tied (e : Engine) : Prop :=
  ∀ a ∈ e.answerings, a.cancelled = false →
    ∃ active, e.current = some active ∧ a.generation = some active.generation

/-- The attempt with this number was begun, and comes to nothing any more. -/
def GivenUp (e : Engine) (n : Nat) : Prop :=
  n < e.answerings.length ∧ ∀ a ∈ e.answerings, a.number = n → a.isAborted = true

/-- What a step of the controller does to the attempts: nothing, or it cancels those that were begun
with the pipeline in charge, or it begins one with a new pipeline where there was none in charge. -/
theorem Controls.charge {e e' : Engine} {happened : List Occurrence} (ho : e.Orderly)
    (h : e.Controls e' happened) :
    (e'.answerings = e.answerings ∧ e'.current = e.current) ∨
    (∃ active, e.current = some active ∧ e'.current = none ∧
      e'.answerings = (e.cancel active.generation).answerings) ∨
    ∃ t how, e.current = none ∧ e'.current = some ⟨e.generation + 1, t⟩ ∧
      e'.answerings = (e.begin t how).answerings := by
  cases h with
  | fail _ _ active _ _ _ _ _ hcur => exact .inr (.inl ⟨active, hcur, rfl, rfl⟩)
  | leave active _ _ hcur => exact .inr (.inl ⟨active, hcur, rfl, rfl⟩)
  | take active _ _ _ _ _ _ hcur => exact .inr (.inl ⟨active, hcur, rfl, rfl⟩)
  | takeStart t how rest _ _ _ hcur =>
    refine .inr (.inr ⟨t, how, hcur, current_begin _ _ _, ?_⟩)
    rw [answerings_begin, answerings_begin]
    rfl
  | handleStart g t how hc =>
    refine .inr (.inr ⟨t, how, (ho.retiring g _ hc).1, current_begin _ _ _, ?_⟩)
    rw [answerings_begin, answerings_begin]
    rfl
  | _ => exact .inl ⟨rfl, rfl⟩

theorem Tied.controls {e e' : Engine} {happened : List Occurrence} (ht : e.Tied) (ho : e.Orderly)
    (h : e.Controls e' happened) : e'.Tied := by
  rcases h.charge ho with ⟨ha, hcur⟩ | ⟨active, hcur, -, ha⟩ | ⟨t, how, hnone, hcur, ha⟩
  · intro a hmem hc
    rw [hcur]
    exact ht a (ha ▸ hmem) hc
  · intro a hmem hc
    rw [ha] at hmem
    obtain ⟨b, hb, rfl⟩ := List.mem_map.mp hmem
    split at hc
    · cases hc
    · next hne =>
      -- Only the pipeline in charge could have kept the attempt.
      obtain ⟨active', hcur', hg⟩ := ht b hb hc
      rw [hcur] at hcur'
      cases hcur'
      exact absurd hg hne
  · intro a hmem hc
    rw [ha, answerings_begin] at hmem
    rcases List.mem_append.mp hmem with hmem | hmem
    · obtain ⟨active, hactive, -⟩ := ht a hmem hc
      rw [hnone] at hactive
      cases hactive
    · obtain ⟨target, -, rfl⟩ := List.mem_map.mp hmem
      exact ⟨_, hcur, rfl⟩

theorem GivenUp.controls {e e' : Engine} {happened : List Occurrence} {n : Nat} (hn : e.GivenUp n)
    (ho : e.Orderly) (h : e.Controls e' happened) : e'.GivenUp n := by
  obtain ⟨hlt, hall⟩ := hn
  rcases h.charge ho with ⟨ha, -⟩ | ⟨active, -, -, ha⟩ | ⟨t, how, -, -, ha⟩
  · rw [GivenUp, ha]
    exact ⟨hlt, hall⟩
  · rw [GivenUp, ha]
    refine ⟨by simpa [cancel] using hlt, fun a hmem hnumber => ?_⟩
    obtain ⟨b, hb, rfl⟩ := List.mem_map.mp hmem
    by_cases hg : b.generation = some active.generation
    · rw [if_pos hg] at hnumber ⊢
      have hb' := hall b hb hnumber
      simp only [Answering.isAborted, Bool.and_eq_true] at hb' ⊢
      exact ⟨hb'.1, trivial⟩
    · rw [if_neg hg] at hnumber ⊢
      exact hall b hb hnumber
  · rw [GivenUp, ha, answerings_begin]
    refine ⟨by simp; omega, fun a hmem hnumber => ?_⟩
    rcases List.mem_append.mp hmem with hmem | hmem
    · exact hall a hmem hnumber
    · obtain ⟨target, -, rfl⟩ := List.mem_map.mp hmem
      exact absurd hnumber (Nat.ne_of_gt hlt)

/-- An attempt in its new state is as cancelled as it was, and so is every other one. -/
theorem mem_answerings_putAnswering {e : Engine} {n : Nat} {a a' b : Answering}
    (ha : e.answering? n = some a) (hid : a'.identity = a.identity)
    (hcancelled : a'.cancelled = a.cancelled) (hb : b ∈ (e.putAnswering a').answerings) :
    ∃ c ∈ e.answerings, b.identity = c.identity ∧ b.cancelled = c.cancelled := by
  obtain ⟨c, hc, rfl⟩ := List.mem_map.mp hb
  split
  · exact ⟨a, (mem_of_found ha).1, hid, hcancelled⟩
  · exact ⟨c, hc, rfl, rfl⟩

/-- What was processed was processed before what was processed last. -/
theorem Accounts.le_lastProcessed {e : Engine} {c : Chronicle} (h : e.Accounts c)
    {l x : Ticket × Action} (hl : c.lastProcessed = some l) (hx : x ∈ c.processed) :
    x.1.number ≤ l.1.number := by
  obtain ⟨before, hbefore⟩ := List.getLast?_eq_some_iff.mp hl
  have hasc := (List.pairwise_append.mp h.ascending).1
  rw [hbefore] at hx hasc
  rcases List.mem_append.mp hx with hx | hx
  · exact Nat.le_of_lt ((List.pairwise_append.mp hasc).2.2 x hx l List.mem_cons_self)
  · exact Nat.le_of_eq (congrArg (·.1.number) (List.mem_singleton.mp hx))

/-- A pipeline was begun for one action only. -/
theorem Originates.ticket_unique {e : Engine} {c : Chronicle} (h : e.Originates c) {g : Nat}
    {t t' : Ticket} (ht : (g, t) ∈ c.begun) (ht' : (g, t') ∈ c.begun) : t = t' := by
  have hnodup : (c.begun.map (·.1)).Nodup := by
    rw [h.generations]
    exact List.nodup_range'
  exact (Prod.mk.inj (List.inj_on_of_nodup_map hnodup ht ht' rfl)).2

end Engine

namespace World

open Engine

/-! ### Every move -/

theorem Moves.tied {w w' : World} {m : Move} {happened : List Occurrence} (ho : w.engine.Orderly)
    (ht : w.engine.Tied) (hstep : w.Moves m w' happened) : w'.engine.Tied := by
  cases hstep with
  | outside _ e' _ hout => cases hout <;> exact ht
  | control e' _ _ hcon => exact ht.controls ho hcon
  | answering n a ha =>
    have hsteps := a.steps w.surroundings w.engine.holds
    intro b hb hc
    obtain ⟨c, hmem, hid, hcancelled⟩ :=
      mem_answerings_putAnswering ha hsteps.identity hsteps.cancelled hb
    obtain ⟨active, hcur, hg⟩ := ht c hmem (hcancelled ▸ hc)
    exact ⟨active, hcur, (congrArg (·.2.2.2.2) hid).trans hg⟩
  | _ => exact ht

theorem Reached.tied {config : EngineConfig} {w : World} (h : Reached config w) : w.engine.Tied :=
  Leads.keeps_reached (I := fun w => w.engine.Tied)
    (fun _ _ w' _ hw ht _ hstep => (hstep.tied hw.orderly ht : w'.engine.Tied)) .refl h
    (by simp [Engine.Tied, World.new, Engine.new])

theorem Moves.givenUp {w w' : World} {m : Move} {happened : List Occurrence} {n : Nat}
    (ho : w.engine.Orderly) (hn : w.engine.GivenUp n) (hstep : w.Moves m w' happened) :
    w'.engine.GivenUp n := by
  cases hstep with
  | outside _ e' _ hout => cases hout <;> exact hn
  | control e' _ _ hcon => exact hn.controls ho hcon
  | answering n' a ha =>
    have hsteps := a.steps w.surroundings w.engine.holds
    refine ⟨by simpa [putAnswering] using hn.1, fun b hb hnumber => ?_⟩
    obtain ⟨c, hmem, hid, hcancelled⟩ :=
      mem_answerings_putAnswering ha hsteps.identity hsteps.cancelled hb
    have hc := hn.2 c hmem ((congrArg (·.1) hid).symm.trans hnumber)
    rw [Answering.isAborted, hcancelled, show b.bound = c.bound from congrArg (·.2.2.2.1) hid]
    exact hc
  | _ => exact hn

/-- **What was given up stays given up.** -/
theorem Leads.givenUp {config : EngineConfig} {admitted : World → Move → Prop} {w w' : World}
    {n : Nat} (hw : Reached config w) (h : Leads admitted w w') (hn : w.engine.GivenUp n) :
    w'.engine.GivenUp n :=
  Leads.keeps_reached (I := fun w => w.engine.GivenUp n)
    (fun _ _ w' _ hw hn _ hstep => (hstep.givenUp hw.orderly hn : w'.engine.GivenUp n)) hw h hn

/-- The turn of an attempt that was given up leaves the store as it is. -/
theorem store_after_of_givenUp {w : World} {n : Nat} (hn : w.engine.GivenUp n) :
    (w.after (.go (.answering n))).store = w.store ∧ w.effect? (.go (.answering n)) = none := by
  rcases ha : w.engine.answering? n with _ | a
  · simp [after, move, Engine.step, stepAnswering, effect?, ha, surroundings]
  · obtain ⟨hmem, hnumber⟩ := mem_of_found ha
    obtain ⟨hstore, hnone⟩ := Answering.step_of_isAborted (s := w.surroundings) w.engine.holds
      (hn.2 a hmem hnumber)
    refine ⟨?_, by simp [effect?, ha, hnone]⟩
    have hafter : (w.after (.go (.answering n))).store =
        (a.step w.surroundings w.engine.holds).1 := by
      simp [after, move, Engine.step, stepAnswering, ha]
    rw [hafter, hstore]
    rfl

/-! ### The end of the charge -/

/-- The pipeline of an action is not in charge any more. -/
inductive DoneWith (w : World) (t : Ticket) : Prop
  /-- A later action was processed. -/
  | superseded (x) (hx : x ∈ w.chronicle.processed) (hlt : t < x.1)
  /-- The failure of the pipeline was published. -/
  | failed (x error) (hx : x ∈ w.chronicle.publishedFor t) (he : x.1.result = .error error)
  /-- The pipeline was cancelled. -/
  | cancelled (p) (hp : p ∈ w.engine.pipelines) (hg : (p.generation, t) ∈ w.chronicle.begun)
      (hc : p.cancelled = true)
  /-- The controller has ended. -/
  | ended (he : w.engine.hasEnded = true)

/-- The action of the pipeline in charge is not done with. -/
theorem DoneWith.ne_of_current {config : EngineConfig} {w : World} {t : Ticket}
    (h : w.DoneWith t) (hw : Reached config w) {active : ActivePipeline}
    (hcur : w.engine.current = some active) : active.ticket ≠ t := by
  rintro rfl
  obtain ⟨⟨how, hlast⟩, -, -, hok⟩ := hw.accounts.active active hcur
  cases h with
  | superseded x hx hlt =>
    exact absurd hlt (Nat.not_lt_of_le (hw.accounts.le_lastProcessed hlast hx))
  | failed x error hx he =>
    obtain ⟨d, hd⟩ := hok x hx
    rw [he] at hd
    cases hd
  | cancelled p hp hg hc =>
    have hrunning := (hw.orderly.current active hcur).2.2 p hp
    rw [hc] at hrunning
    cases hrunning
  | ended he =>
    have hnone := (hw.orderly.away (.inr (by simpa [hasEnded] using he))).1
    rw [hcur] at hnone
    cases hnone

/-- An attempt that is not cancelled was begun for the action whose pipeline is in charge. -/
theorem Reached.current_of_attempts {config : EngineConfig} {w : World} (hw : Reached config w)
    {a : Answering} {t : Ticket} (ha : w.engine.Attempts w.chronicle a t)
    (hc : a.cancelled = false) :
    ∃ g, w.engine.current = some ⟨g, t⟩ ∧ a.generation = some g := by
  obtain ⟨hmem, g, hg, hbegan⟩ := ha
  obtain ⟨active, hcur, hgen⟩ := hw.tied a hmem hc
  obtain ⟨-, -, ⟨n, hrecent⟩, -⟩ := hw.accounts.active active hcur
  have hbegan' : (active.generation, active.ticket) ∈ w.chronicle.begun :=
    mem_begun.mpr ⟨n, mem_of_mem_recent hrecent⟩
  obtain rfl : g = active.generation := Option.some.inj (hg.symm.trans hgen)
  obtain rfl := hw.originates.ticket_unique hbegan hbegan'
  exact ⟨_, hcur, hgen⟩

/-- An attempt for an action that is done with was given up, if attempts are tied to pipelines. -/
theorem DoneWith.givenUp {config : EngineConfig} {w : World} {t : Ticket} (h : w.DoneWith t)
    (hw : Reached config w) (hbind : config.bindAnswerToPipeline = true) {a : Answering}
    (ha : w.engine.Attempts w.chronicle a t) : w.engine.GivenUp a.number := by
  have hnumbers := hw.originates.numbers
  have hlt : a.number < w.engine.answerings.length :=
    List.mem_range.mp (hnumbers ▸ List.mem_map_of_mem ha.1)
  refine ⟨hlt, fun b hb hnumber => ?_⟩
  obtain rfl := List.inj_on_of_nodup_map (hnumbers ▸ List.nodup_range) hb ha.1 hnumber
  have hbound : b.bound = true := by
    rw [hw.originates.tuned b hb, hw.tuned.tuning, hbind]
  rcases hc : b.cancelled with _ | _
  · obtain ⟨g, hcur, -⟩ := hw.current_of_attempts ha hc
    exact absurd rfl (h.ne_of_current hw hcur)
  · simp [Answering.isAborted, hbound, hc]

/-- An effect belongs to the action that was processed last, and its pipeline is in charge, if
attempts are tied to pipelines. -/
theorem Reached.in_charge_of_effect {config : EngineConfig} {w : World} (hw : Reached config w)
    (hbind : config.bindAnswerToPipeline = true) {m : Move} {e : Effect}
    (he : w.effect? m = some e) :
    ∃ t, w.engine.Attempts w.chronicle e.attempt t ∧
      w.chronicle.lastProcessed =
        some (t, .answer e.attempt.userId e.attempt.conversationId) ∧
      (∃ g, w.engine.current = some ⟨g, t⟩ ∧ e.attempt.generation = some g) ∧ ¬ w.DoneWith t := by
  unfold effect? at he
  split at he
  · next n =>
    obtain ⟨a, ha, he⟩ := Option.bind_eq_some_iff.mp he
    have hmem := (mem_of_found ha).1
    have hlive : a.isAborted = false := by
      rcases h : a.isAborted with _ | _
      · rfl
      · simp [Answering.effect?, h] at he
    rw [(Answering.effect?_spec he).1]
    have hbound : a.bound = true := by rw [hw.originates.tuned a hmem, hw.tuned.tuning, hbind]
    have hc : a.cancelled = false := by simpa [Answering.isAborted, hbound] using hlive
    obtain ⟨t, hattempts, hprocessed⟩ := hw.originates.attempts a hmem
    obtain ⟨g, hcur, hg⟩ := hw.current_of_attempts hattempts hc
    obtain ⟨⟨how, hlast⟩, -⟩ := hw.accounts.active _ hcur
    have hsame := hw.accounts.action_unique (List.mem_of_getLast? hlast) hprocessed
    exact ⟨t, hattempts, hsame ▸ hlast, ⟨g, hcur, hg⟩, fun hd => hd.ne_of_current hw hcur rfl⟩
  · cases he

/-- **Answers that are tied to a pipeline end with it.** If attempts are tied to pipelines, then
whatever comes from outside and however the store conducts itself:

* what is noted at an account as answered are the effects at that account, in order;
* every effect belongs to the action that was processed last, the start that the attempt was begun
  for, and the pipeline begun with the attempt is in charge;
* once a later action was processed, the failure of the pipeline was published, the pipeline was
  cancelled or the controller has ended, the attempt has no effect any more, and its turns leave the
  store as it is, also at the instant at which its delay is over. -/
theorem Runs.bound_answers {config : EngineConfig} {h : History} {w : World}
    (hbind : config.bindAnswerToPipeline = true) (hr : Runs anyMove (new config) h w) :
    (∀ ref account, w.store.account? ref = some account →
      account.answered =
        (h.effects.filter (·.account = ref)).map (·.attempt.conversationId)) ∧
    (∀ x ∈ h, ∀ e, x.1.effect? x.2 = some e →
      ∃ t, x.1.engine.Attempts x.1.chronicle e.attempt t ∧
        x.1.chronicle.lastProcessed =
          some (t, .answer e.attempt.userId e.attempt.conversationId) ∧
        (∃ g, x.1.engine.current = some ⟨g, t⟩ ∧ e.attempt.generation = some g) ∧
        ¬ x.1.DoneWith t) ∧
    ∀ a t, w.engine.Attempts w.chronicle a t → w.DoneWith t → ∀ v, Leads anyMove w v →
      v.effect? (.go (.answering a.number)) = none ∧
      (v.after (.go (.answering a.number))).store = v.store := by
  refine ⟨hr.notes.noted, fun x hx e he => ?_, fun a t ha hdone v hv => ?_⟩
  · exact (hr.reached_of_mem hx).in_charge_of_effect hbind he
  · have hgiven := hv.givenUp hr.reached (hdone.givenUp hr.reached hbind ha)
    exact (store_after_of_givenUp hgiven).symm

/-- An attempt whose delay is over when a stop is there to be processed. An earlier attempt of another
pipeline has had its effect. -/
def dueAtStop : List Move :=
  [.store (.register bob), .store (.account 0 (.list .incoming (.ok [ringing]))), .start,
    .submit (.answer bob.id ringing.conversationId), .go .controller]
    ++ List.replicate 6 (.go (.answering 0))
    ++ [.store (.account 0 (.list .incoming (.ok [ringing]))),
      .store (.account 0 (.answerDelay (some 5))),
      .submit (.answer bob.id ringing.conversationId), .go .controller,
      .go (.pipeline 1), .go (.pipeline 1), .go .controller]
    ++ List.replicate 5 (.go (.answering 1))
    ++ [.pass 5, .submit .stop]

/-- At that instant the attempt would have its effect, and the stop is processed instead. -/
theorem bound_answers_dueAtStop :
    let config : EngineConfig := { (default : EngineConfig) with bindAnswerToPipeline := true }
    let due := (new config).run dueAtStop
    let stopped := due.after (.go .controller)
    (due.effect? (.go (.answering 1))).isSome ∧ due.now = stopped.now ∧
      stopped.effect? (.go (.answering 1)) = none ∧
      ((stopped.after (.go (.answering 1))).store.account? 0).map (·.answered) =
        some [ringing.conversationId] := by
  intro config due stopped
  have hbind : config.bindAnswerToPipeline = true := rfl
  have hr : Runs anyMove (new config) ((new config).history (dueAtStop ++ [.go .controller]))
      stopped := runs_run (fun _ _ => trivial) (by decide)
  let second : Answering := stopped.engine.answerings.get ⟨1, by decide⟩
  have hattempts : stopped.engine.Attempts stopped.chronicle second ⟨2⟩ :=
    ⟨List.get_mem _ _, 2, by decide, by decide⟩
  have hsuperseded : stopped.DoneWith ⟨2⟩ :=
    .superseded (⟨3⟩, .stop) (by decide) (by decide)
  obtain ⟨hnone, hstore⟩ :=
    (Runs.bound_answers hbind hr).2.2 second ⟨2⟩ hattempts hsuperseded stopped .refl
  have hnumber : second.number = 1 := by decide
  rw [hnumber] at hnone hstore
  refine ⟨by decide, by decide, hnone, ?_⟩
  rw [hstore]
  decide

end World

end CallWatch
