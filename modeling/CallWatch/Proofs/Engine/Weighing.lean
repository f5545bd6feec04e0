import CallWatch.Proofs.Debounce
import CallWatch.Proofs.Engine.Pipelines

/-! # What a pipeline weighs

A pipeline that follows a live session never comes to its end by itself. `Weighs` tells its steps as
they matter to the debounce and to what is sent: a decision is offered, the stop that is held back is
looked at, a result is sent, or neither is touched. -/

namespace CallWatch

namespace Pipeline

/-! ### A pipeline that follows a live session -/

/-- The pipeline follows the live session from its first step to its end. -/
def FollowsLive (p : Pipeline) : Prop :=
  p.phase = .spawned ∨ p.phase = .finished ∨ ∃ seen, p.sessions = some (.live () seen)

theorem next_live (store : Store) (seen : Option Nat) :
    (Feed.live () seen).next store.sessions =
      (if seen = some store.session.version then .pending else .item store.session.value,
        .live () (some store.session.version)) := by
  by_cases h : seen = some store.session.version <;>
    simp [Feed.next, Feed.inbox, Store.sessions, Live.inbox, Inbox.look, Feed.leave, h]

theorem FollowsLive.of_watching {p : Pipeline} (h : p.FollowsLive) (hp : p.phase = .watching) :
    ∃ seen, p.sessions = some (.live () seen) :=
  (h.resolve_left (by simp [hp])).resolve_left (by simp [hp])

/-- A live session does not end. -/
theorem FollowsLive.next_ne_ended {p : Pipeline} (h : p.FollowsLive) (hp : p.phase = .watching)
    {feed : SessionFeed} (hfeed : p.sessions = some feed) (store : Store) :
    (feed.next store.sessions).1 ≠ .ended := by
  obtain ⟨seen, hseen⟩ := h.of_watching hp
  rw [hseen] at hfeed
  cases hfeed
  rw [next_live]
  split <;> simp

@[simp] theorem sessions_onGathered (p : Pipeline)
    (result : Step Gathering (Except CallError (List CallSource))) :
    (p.onGathered result).sessions = p.sessions := by
  rcases result with g | (e | calls) <;> rfl

@[simp] theorem sessions_onResolved (s : Surroundings) (p : Pipeline)
    (result : Step Lookup LookupResult) : (p.onResolved s result).sessions = p.sessions := by
  rcases result with l | (e | _ | r)
  · rfl
  · rfl
  · rfl
  · exact sessions_onGathered _ _

theorem sessions_onSession (s : Surroundings) (p : Pipeline) (item : SessionItem) :
    (p.onSession s item).sessions = p.sessions := by
  rcases item with e | session
  · rfl
  · exact sessions_onResolved s _ _

theorem sessions_onCalls (s : Surroundings) (p : Pipeline) (found : Combined)
    (h : p.sessions ≠ none) : (p.onCalls s found).sessions = p.sessions := by
  rcases found with all | e | _ | _
  · rfl
  · rfl
  · simp [onCalls, h]
  · rfl

theorem FollowsLive.steps {s : Surroundings} {held : AccountRef → Bool} {p p' : Pipeline}
    {happened : List Occurrence} {output : Option PipelineOutput} (h : p.FollowsLive)
    (hs : s.arrangement.sessions = none) (hstep : p.Steps s held p' happened output) :
    p'.FollowsLive := by
  -- While the pipeline is on its way, the feed of the session is all that counts.
  have live (hspawned : p.phase ≠ .spawned) (hfinished : p.phase ≠ .finished) :
      ∃ seen, p.sessions = some (.live () seen) :=
    (h.resolve_left hspawned).resolve_left hfinished
  have kept (hspawned : p.phase ≠ .spawned) (hfinished : p.phase ≠ .finished)
      (hsessions : p'.sessions = p.sessions) : p'.FollowsLive := by
    obtain ⟨seen, hseen⟩ := live hspawned hfinished
    exact .inr (.inr ⟨seen, by rw [hsessions, hseen]⟩)
  cases hstep with
  | begin => exact .inr (.inr ⟨none, by simp [Arrangement.sessionFeed, hs, Feed.subscribe]⟩)
  | abort => exact .inr (.inl rfl)
  | consume item feed feed' hc hp hfeed hn =>
    obtain ⟨seen, hseen⟩ := live (by simp [hp]) (by simp [hp])
    rw [hseen] at hfeed
    cases hfeed
    rw [next_live] at hn
    obtain ⟨-, rfl⟩ := Prod.mk.injEq .. ▸ hn
    exact .inr (.inr ⟨_, by rw [sessions_onSession]⟩)
  | loseSession feed hc hp hfeed hn => exact absurd hn (h.next_ne_ended hp hfeed _)
  | look calls found after hc hp hq hcalls hst hn =>
    obtain ⟨seen, hseen⟩ := live (by simp [hp]) (by simp [hp])
    refine kept (by simp [hp]) (by simp [hp]) ?_
    rw [sessions_onCalls]
    simp [hseen]
  | fire hc hp => exact kept (by simp [hp]) (by simp [hp]) rfl
  | resolve lookup hc hp => exact kept (by simp [hp]) (by simp [hp]) (sessions_onResolved _ _ _)
  | gather g hc hp => exact kept (by simp [hp]) (by simp [hp]) (sessions_onGathered _ _)
  | send result hc hp => exact kept (by simp [hp]) (by simp [hp]) rfl
  | sendLast => exact .inr (.inl rfl)
  | stay hp => exact .inr (.inl hp)

/-! ### What a step does to the debounce -/

/-- The result that a pipeline is about to send. -/
def outgoing? (p : Pipeline) : Option DecisionResult :=
  match p.phase with
  | .sending result _ => some result
  | _ => none

/-- In this phase no decision is sent, and the pipeline has not ended. -/
def IsQuiet (phase : PipelinePhase) : Prop :=
  phase ≠ .finished ∧ ∀ d next, phase ≠ .sending (.ok d) next

/-- What a step does to the debounce and to what is sent. -/
inductive Weighs (now : Nat) (p p' : Pipeline) (happened : List Occurrence)
    (output : Option PipelineOutput) : Prop
  /-- A decision is offered. -/
  | offer (d before) (hbefore : ∀ g d, .decided g d ∉ before) (hidle : p.outgoing? = none)
      (hhappened : happened = before ++ [.decided p.generation d]) (houtput : output = none)
      (hdebounce : p'.debounce = (p.offer d now).debounce)
      (hphase : p'.phase = (p.offer d now).phase)
  /-- The stop that is held back is looked at. -/
  | fire (hidle : p.outgoing? = none) (hhappened : happened = []) (houtput : output = none)
      (hp : p' = p.emit (p.debounce.fire now))
  /-- A result is sent. -/
  | send (result next) (hsending : p.phase = .sending result next)
      (hhappened : happened = [.emitted p.generation result])
      (houtput : output = some ⟨p.generation, result⟩) (hdebounce : p'.debounce = p.debounce)
      (hphase : p'.phase = match next with
        | .goOn => .watching
        | .finish => .finished)
  /-- Neither is touched. -/
  | leave (hidle : p.outgoing? = none) (hnone : ∀ g d, .decided g d ∉ happened)
      (houtput : output = none) (hdebounce : p'.debounce = p.debounce)
      (hphase : IsQuiet p'.phase)
  /-- The pipeline is cancelled and ends, or has ended. -/
  | quit (hcause : p.cancelled = true ∨ p.phase = .finished) (hhappened : happened = [])
      (houtput : output = none)
      (hdebounce : p'.debounce = p.debounce) (hphase : p'.phase = .finished)

/-- The decision on what a look at the calls found. -/
def decisionOn : Combined → Option Decision
  | .lists all => some (.ofCalls all)
  | _ => none

theorem outgoing?_congr {p p' : Pipeline} (h : p'.phase = p.phase) : p'.outgoing? = p.outgoing? := by
  rw [outgoing?, outgoing?, h]

/-- What passes the debounce is about to be sent. -/
theorem outgoing?_emit (p : Pipeline) (passed : Debounce × Option Decision) :
    (p.emit passed).outgoing? = passed.2.map .ok := by
  obtain ⟨debounce, _ | d⟩ := passed <;> rfl

theorem onGathered_leaves (p : Pipeline)
    (result : Step Gathering (Except CallError (List CallSource))) :
    (p.onGathered result).debounce = p.debounce ∧ IsQuiet (p.onGathered result).phase := by
  rcases result with g | (e | calls) <;> exact ⟨rfl, by rintro ⟨⟩, by rintro d next ⟨⟩⟩

/-- A lookup comes to a decision that is offered, or to none. -/
theorem onResolved_weighs (s : Surroundings) (p : Pipeline) (result : Step Lookup LookupResult) :
    (∃ d, decidedOnLookup? result = some d ∧ p.onResolved s result = p.offer d s.now) ∨
      decidedOnLookup? result = none ∧ (p.onResolved s result).debounce = p.debounce ∧
        IsQuiet (p.onResolved s result).phase := by
  rcases result with l | (e | _ | r)
  · exact .inr ⟨rfl, rfl, by rintro ⟨⟩, by rintro d next ⟨⟩⟩
  · exact .inr ⟨rfl, rfl, by rintro ⟨⟩, by rintro d next ⟨⟩⟩
  · exact .inl ⟨_, rfl, rfl⟩
  · exact .inr ⟨rfl, onGathered_leaves p _⟩

theorem Steps.weighs {s : Surroundings} {held : AccountRef → Bool} {p p' : Pipeline}
    {happened : List Occurrence} {output : Option PipelineOutput} (h : p.FollowsLive)
    (hstep : p.Steps s held p' happened output) : Weighs s.now p p' happened output := by
  have idle {phase : PipelinePhase} (hp : p.phase = phase)
      (hphase : ∀ result next, phase ≠ .sending result next) : p.outgoing? = none := by
    unfold outgoing?
    split
    · next hsending => exact absurd (hp.symm.trans hsending) (hphase _ _)
    · rfl
  cases hstep with
  | begin hp => exact .leave (idle hp (by simp)) (by simp) rfl rfl (by simp [IsQuiet])
  | abort hc => exact .quit (.inl hc) rfl rfl rfl rfl
  | consume item feed feed' hc hp hfeed hn =>
    have hidle := idle hp (by simp)
    rcases item with e | session
    · have hnone : p.decided? s held = none := by simp [decided?, hc, hp, hfeed, hn]
      rw [hnone]
      exact .leave hidle (by simp) rfl rfl (by simp [onSession, fail, become, IsQuiet])
    · have hdecided : p.decided? s held = decidedOnLookup? (Lookup.ofCurrent s session) := by
        simp [decided?, hc, hp, hfeed, hn]
      rw [hdecided]
      rcases onResolved_weighs s { p with sessions := some feed', calls := none }
        (Lookup.ofCurrent s session) with ⟨d, hd, heq⟩ | ⟨hd, hleaves⟩
      · rw [hd]
        refine .offer d [.consumed p.generation (.ok session) s.store] (by simp) hidle rfl rfl ?_ ?_
        · rw [onSession, heq]; rfl
        · rw [onSession, heq]; rfl
      · rw [hd]
        exact .leave hidle (by simp) rfl hleaves.1 hleaves.2
  | loseSession feed hc hp hfeed hn => exact absurd hn (h.next_ne_ended hp hfeed _)
  | look calls found after hc hp hq hcalls hst hn =>
    have hidle := idle hp (by simp)
    have hdecided : p.decided? s held = decisionOn found := by
      rw [decided?_of_quiet hc hp hq, decidedOnCalls?, hcalls]
      simp only [hst, if_true, hn]
      cases found <;> rfl
    obtain ⟨seen, hseen⟩ := h.of_watching hp
    rw [hdecided]
    rcases found with all | e | _ | _
    · exact .offer (.ofCalls all) [] (by simp) hidle rfl rfl rfl rfl
    · exact .leave hidle (by simp [decisionOn]) rfl rfl (by simp [onCalls, fail, become, IsQuiet])
    · have hkept : ({ p with calls := some after }.onCalls s .ended) = { p with calls := none } := by
        simp [onCalls, hseen]
      rw [hkept]
      exact .leave hidle (by simp [decisionOn]) rfl rfl (by simp [hp, IsQuiet])
    · exact .leave hidle (by simp [decisionOn]) rfl rfl (by simp [onCalls, hp, IsQuiet])
  | fire hc hp => exact .fire (idle hp (by simp)) rfl rfl rfl
  | resolve lookup hc hp =>
    have hidle := idle hp (by simp)
    have hdecided : p.decided? s held = decidedOnLookup? (lookup.step s) := by
      simp [decided?, hc, hp]
    rw [hdecided]
    rcases onResolved_weighs s p (lookup.step s) with ⟨d, hd, heq⟩ | ⟨hd, hleaves⟩
    · rw [hd, heq]
      exact .offer d [] (by simp) hidle rfl rfl rfl rfl
    · rw [hd]
      exact .leave hidle (by simp) rfl hleaves.1 hleaves.2
  | gather g hc hp =>
    obtain ⟨hdebounce, hphase⟩ := onGathered_leaves p (g.step s [p.span]).1
    exact .leave (idle hp (by simp)) (by simp) rfl hdebounce hphase
  | send result hc hp => exact .send result .goOn hp rfl rfl rfl rfl
  | sendLast result hc hp => exact .send result .finish hp rfl rfl rfl rfl
  | stay hp => exact .quit (.inr hp) rfl rfl rfl hp

end Pipeline

end CallWatch
