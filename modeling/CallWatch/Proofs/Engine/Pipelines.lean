import CallWatch.Proofs.World

/-! # What a pipeline can do

`Steps s held p p' happened output` lists everything that a pipeline can do in one step: the state
that it leaves, what happens on the way, and what it sends. A step never changes what a pipeline was
begun with, nor whether it is cancelled. -/

namespace CallWatch

namespace Pipeline

/-! ### What a step leaves alone -/

/-- What a pipeline was begun with, and whether it is cancelled. -/
def identity (p : Pipeline) : Nat × Option AnswerTarget × Nat × Bool :=
  (p.generation, p.target, p.window, p.cancelled)

@[simp] theorem identity_complete (p : Pipeline) : p.complete.identity = p.identity := by
  unfold complete
  split <;> rfl

@[simp] theorem identity_onGathered (p : Pipeline)
    (result : Step Gathering (Except CallError (List CallSource))) :
    (p.onGathered result).identity = p.identity := by
  rcases result with g | (e | calls) <;> rfl

@[simp] theorem identity_onResolved (s : Surroundings) (p : Pipeline)
    (result : Step Lookup LookupResult) : (p.onResolved s result).identity = p.identity := by
  rcases result with l | (e | _ | r)
  · rfl
  · rfl
  · rfl
  · exact identity_onGathered _ _

theorem identity_onSession (s : Surroundings) (p : Pipeline) (item : SessionItem) :
    (p.onSession s item).identity = p.identity := by
  rcases item with e | session
  · rfl
  · exact identity_onResolved s _ _

theorem identity_onCalls (s : Surroundings) (p : Pipeline) (found : Combined) :
    (p.onCalls s found).identity = p.identity := by
  rcases found with all | e | _ | _
  · rfl
  · rfl
  · simp only [onCalls]
    split
    · exact identity_complete _
    · rfl
  · rfl

/-! ### The cases -/

/-- Nothing new is to be found about the session. -/
def SessionsQuiet (s : Surroundings) (p : Pipeline) : Prop :=
  ∀ feed, p.sessions = some feed → (feed.next s.store.sessions).1 = .pending

/-- Everything that a pipeline can do in one step. -/
inductive Steps (s : Surroundings) (held : AccountRef → Bool) (p : Pipeline) :
    Pipeline → List Occurrence → Option PipelineOutput → Prop
  /-- It begins to follow the session. -/
  | begin (hp : p.phase = .spawned) :
      Steps s held p { p with sessions := some s.arrangement.sessionFeed, phase := .watching } [] none
  /-- It is cancelled and ends. -/
  | abort (hc : p.cancelled = true) (hp : p.phase ≠ .spawned) : Steps s held p p.finish [] none
  /-- It takes an item about the session. -/
  | consume (item feed feed') (hc : p.cancelled = false) (hp : p.phase = .watching)
      (hs : p.sessions = some feed) (hn : feed.next s.store.sessions = (.item item, feed')) :
      Steps s held p ({ p with sessions := some feed' }.onSession s item)
        (.consumed p.generation item s.store ::
          (p.decided? s held).toList.map fun d => .decided p.generation d) none
  /-- The session is given up. -/
  | loseSession (feed) (hc : p.cancelled = false) (hp : p.phase = .watching)
      (hs : p.sessions = some feed) (hn : (feed.next s.store.sessions).1 = .ended) :
      Steps s held p
        (if p.calls.isNone then { p with sessions := none }.complete else { p with sessions := none })
        [] none
  /-- It looks at its calls. -/
  | look (calls found after) (hc : p.cancelled = false) (hp : p.phase = .watching)
      (hq : p.SessionsQuiet s) (hcalls : p.calls = some calls)
      (hst : CallSource.stirs (s.store.lists held) calls = true)
      (hn : CallSource.poll (s.store.lists held) calls = (found, after)) :
      Steps s held p ({ p with calls := some after }.onCalls s found)
        ((p.decided? s held).toList.map fun d => .decided p.generation d) none
  /-- It looks at its debounce. -/
  | fire (hc : p.cancelled = false) (hp : p.phase = .watching) (hq : p.SessionsQuiet s)
      (hcalls : ∀ calls, p.calls = some calls → CallSource.stirs (s.store.lists held) calls = false) :
      Steps s held p (p.emit (p.debounce.fire s.now)) [] none
  /-- The account of a session is looked up. -/
  | resolve (lookup) (hc : p.cancelled = false) (hp : p.phase = .resolving lookup) :
      Steps s held p (p.onResolved s (lookup.step s))
        ((p.decided? s held).toList.map fun d => .decided p.generation d) none
  /-- The account of the answer target is looked up. -/
  | gather (g) (hc : p.cancelled = false) (hp : p.phase = .gathering g) :
      Steps s held p (p.onGathered (g.step s [p.span]).1) [] none
  /-- It sends a result and goes on. -/
  | send (result) (hc : p.cancelled = false) (hp : p.phase = .sending result .goOn) :
      Steps s held p (p.become .watching) [.emitted p.generation result] (some ⟨p.generation, result⟩)
  /-- It sends a result and ends. -/
  | sendLast (result) (hc : p.cancelled = false) (hp : p.phase = .sending result .finish) :
      Steps s held p p.finish [.emitted p.generation result] (some ⟨p.generation, result⟩)
  /-- It has ended. -/
  | stay (hp : p.phase = .finished) : Steps s held p p [] none

/-! ### They are all -/

/-- A step is one of the cases once it is known what it takes, decides and sends. -/
theorem steps_of {s : Surroundings} {held : AccountRef → Bool} {p p' : Pipeline}
    {output : Option PipelineOutput} {events : List Log.Event} {taken : Option SessionItem}
    {decided : Option Decision} (h : p.step s held = (p', output, events))
    (ht : p.taken? s = taken) (hd : p.decided? s held = decided)
    (hcase : Steps s held p p' ((taken.toList.map fun item => .consumed p.generation item s.store)
      ++ (decided.toList.map fun d => .decided p.generation d)
      ++ output.toList.map fun o => .emitted o.generation o.result) output) :
    Steps s held p (p.step s held).1 (p.occurrences s held) (p.step s held).2.1 := by
  rw [occurrences, h, ht, hd]
  exact hcase

theorem taken?_eq_none {s : Surroundings} {p : Pipeline}
    (h : p.cancelled = true ∨ p.phase ≠ .watching ∨ p.SessionsQuiet s) : p.taken? s = none := by
  unfold taken?
  split
  · next hc hp hs =>
    rcases h with h | h | h
    · rw [hc] at h; cases h
    · exact absurd hp h
    · rw [h _ hs]
  · rfl

theorem decided?_of_quiet {s : Surroundings} {held : AccountRef → Bool} {p : Pipeline}
    (hc : p.cancelled = false) (hp : p.phase = .watching) (hq : p.SessionsQuiet s) :
    p.decided? s held = p.decidedOnCalls? s held := by
  simp only [decided?, hc, hp]
  rcases hs : p.sessions with _ | feed
  · rfl
  · simp only [hq feed hs]

/-- A pipeline looks at its calls once it is known that nothing is new about the session. -/
theorem steps_watchCalls {s : Surroundings} {held : AccountRef → Bool} {p : Pipeline}
    (hc : p.cancelled = false) (hp : p.phase = .watching) (hq : p.SessionsQuiet s)
    (h : p.step s held = (p.watchCalls s held, none, [])) :
    Steps s held p (p.step s held).1 (p.occurrences s held) (p.step s held).2.1 := by
  have ht : p.taken? s = none := taken?_eq_none (.inr (.inr hq))
  have fire (hcalls : ∀ calls, p.calls = some calls →
      CallSource.stirs (s.store.lists held) calls = false)
      (hstep : p.watchCalls s held = p.emit (p.debounce.fire s.now)) :
      Steps s held p (p.step s held).1 (p.occurrences s held) (p.step s held).2.1 := by
    have hnone : p.decided? s held = none := by
      rw [decided?_of_quiet hc hp hq, decidedOnCalls?]
      rcases hcs : p.calls with _ | calls
      · rfl
      · simp [hcalls calls hcs]
    rw [hstep] at h
    exact steps_of h ht hnone (.fire hc hp hq hcalls)
  rcases hcs : p.calls with _ | calls
  · exact fire (fun calls h => by rw [hcs] at h; cases h) (by simp [watchCalls, hcs])
  · rcases hst : CallSource.stirs (s.store.lists held) calls with _ | _
    · refine fire (fun calls' h => ?_) (by simp [watchCalls, hcs, hst])
      rw [hcs] at h
      cases h
      exact hst
    · rcases hn : CallSource.poll (s.store.lists held) calls with ⟨found, after⟩
      have hstep : p.watchCalls s held = { p with calls := some after }.onCalls s found := by
        simp [watchCalls, hcs, hst, hn]
      rw [hstep] at h
      exact steps_of h ht rfl (by simpa using Steps.look calls found after hc hp hq hcs hst hn)

/-- A pipeline looks at the session. -/
theorem steps_watch {s : Surroundings} {held : AccountRef → Bool} {p : Pipeline}
    (hc : p.cancelled = false) (hp : p.phase = .watching) :
    Steps s held p (p.step s held).1 (p.occurrences s held) (p.step s held).2.1 := by
  have h : p.step s held = (p.watch s held, none, []) := by simp [step, hp, hc]
  rcases hs : p.sessions with _ | feed
  · have hq : p.SessionsQuiet s := fun feed hf => by rw [hs] at hf; cases hf
    exact steps_watchCalls hc hp hq (by rw [h]; simp [watch, hs])
  · rcases hn : feed.next s.store.sessions with ⟨found, feed'⟩
    rcases found with item | _ | _
    · have hstep : p.watch s held = { p with sessions := some feed' }.onSession s item := by
        simp [watch, hs, hn]
      have ht : p.taken? s = some item := by simp [taken?, hc, hp, hs, hn]
      rw [hstep] at h
      exact steps_of h ht rfl (by simpa using Steps.consume item feed feed' hc hp hs hn)
    · have hstep : p.watch s held = (if p.calls.isNone then { p with sessions := none }.complete
          else { p with sessions := none }) := by
        simp [watch, hs, hn]
      have ht : p.taken? s = none := by simp [taken?, hc, hp, hs, hn]
      have hd : p.decided? s held = none := by simp [decided?, hc, hp, hs, hn]
      rw [hstep] at h
      exact steps_of h ht hd (.loseSession feed hc hp hs (by rw [hn]))
    · have hq : p.SessionsQuiet s := fun f hf => by
        rw [hs] at hf
        cases hf
        rw [hn]
      exact steps_watchCalls hc hp hq (by rw [h]; simp [watch, hs, hn])

/-- **Every step of a pipeline is one of the cases.** -/
theorem steps (s : Surroundings) (held : AccountRef → Bool) (p : Pipeline) :
    Steps s held p (p.step s held).1 (p.occurrences s held) (p.step s held).2.1 := by
  have taken (h : p.cancelled = true ∨ p.phase ≠ .watching) : p.taken? s = none :=
    taken?_eq_none (h.imp_right .inl)
  rcases hc : p.cancelled with _ | _
  · rcases hp : p.phase with _ | _ | lookup | g | ⟨result, _ | _⟩ | _
    · have h : p.step s held = ((p.begin s).1, none, (p.begin s).2) := by simp [step, hp]
      have hd : p.decided? s held = none := by simp [decided?, hp]
      exact steps_of h (taken (.inr (by simp [hp]))) hd (.begin hp)
    · exact steps_watch hc hp
    · have h : ∃ events, p.step s held = (p.onResolved s (lookup.step s), none, events) := by
        simp [step, hp, hc]
      obtain ⟨events, h⟩ := h
      exact steps_of h (taken (.inr (by simp [hp]))) rfl
        (by simpa using Steps.resolve lookup hc hp)
    · have h : ∃ events, p.step s held = (p.onGathered (g.step s [p.span]).1, none, events) := by
        simp [step, hp, hc]
      obtain ⟨events, h⟩ := h
      have hd : p.decided? s held = none := by simp [decided?, hp]
      exact steps_of h (taken (.inr (by simp [hp]))) hd (.gather g hc hp)
    · have h : p.step s held = (p.become .watching, some ⟨p.generation, result⟩, []) := by
        simp [step, hp, hc]
      have hd : p.decided? s held = none := by simp [decided?, hp]
      exact steps_of h (taken (.inr (by simp [hp]))) hd (.send result hc hp)
    · have h : p.step s held = (p.finish, some ⟨p.generation, result⟩, []) := by
        simp [step, hp, hc]
      have hd : p.decided? s held = none := by simp [decided?, hp]
      exact steps_of h (taken (.inr (by simp [hp]))) hd (.sendLast result hc hp)
    · have h : p.step s held = (p, none, []) := by simp [step, hp]
      have hd : p.decided? s held = none := by simp [decided?, hp]
      exact steps_of h (taken (.inr (by simp [hp]))) hd (.stay hp)
  · have hd : p.decided? s held = none := by simp [decided?, hc]
    by_cases hs : p.phase = .spawned
    · have h : p.step s held = ((p.begin s).1, none, (p.begin s).2) := by simp [step, hs]
      exact steps_of h (taken (.inl hc)) hd (.begin hs)
    by_cases hf : p.phase = .finished
    · have h : p.step s held = (p, none, []) := by simp [step, hf]
      exact steps_of h (taken (.inl hc)) hd (.stay hf)
    have h : p.step s held = (p.finish, none, []) := by
      unfold step
      split
      · next hp => exact absurd hp hs
      · next hp => exact absurd hp hf
      · simp [hc]
    exact steps_of h (taken (.inl hc)) hd (.abort hc hs)

theorem Steps.identity {s : Surroundings} {held : AccountRef → Bool} {p p' : Pipeline}
    {happened : List Occurrence} {output : Option PipelineOutput}
    (h : Steps s held p p' happened output) : p'.identity = p.identity := by
  cases h with
  | begin => rfl
  | abort => rfl
  | consume item => exact identity_onSession s _ item
  | loseSession =>
    split
    · exact identity_complete _
    · rfl
  | look _ found => exact identity_onCalls s _ found
  | fire => rfl
  | resolve => exact identity_onResolved s _ _
  | gather => exact identity_onGathered _ _
  | send => rfl
  | sendLast => rfl
  | stay => rfl

end Pipeline

end CallWatch
