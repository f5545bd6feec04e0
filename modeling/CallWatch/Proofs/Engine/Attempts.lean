import CallWatch.Proofs.World

/-! # What an attempt to answer can do

`Steps s held a store a'` lists everything that an attempt can do in one step: the store and the
attempt that it leaves. A step never changes what an attempt was begun with, and only the answer
itself changes the store. -/

namespace CallWatch

namespace Answering

/-- What an attempt was begun with. -/
def identity (a : Answering) : Nat × UserId × ConversationId × Bool × Option Nat :=
  (a.number, a.userId, a.conversationId, a.bound, a.generation)

@[simp] theorem identity_ask (s : Surroundings) (a : Answering) (q : Question)
    (stage : Wait → AnswerStage) : (a.ask s q stage).1.identity = a.identity := by
  unfold ask
  split <;> rfl

/-- Whether the account that the attempt found lists the call, as far as it can see. -/
def Finds (s : Surroundings) (held : AccountRef → Bool) (a : Answering) (feed : ListFeed) : Prop :=
  ∃ calls, (feed.next (s.store.lists held)).1 = .item (.ok calls) ∧ a.lists calls = true

/-- How an answer that took effect ends. -/
def outcomeOf : Except CallError Unit → AnswerOutcome
  | .ok () => .answered
  | .error e => .failed e

/-- Everything that an attempt can do in one step. -/
inductive Steps (s : Surroundings) (held : AccountRef → Bool) (a : Answering) :
    Store → Answering → Prop
  /-- It is cancelled and ends. -/
  | abort (hc : a.isAborted = true) : Steps s held a s.store (a.inStage (.done .aborted))
  /-- It asks whether the session holds. -/
  | begin (hc : a.isAborted = false) (hs : a.stage = .spawned) :
      Steps s held a s.store (a.ask s .hasValidSession .validity).1
  /-- The session holds, and it asks for the account. -/
  | accept (wait) (hc : a.isAborted = false) (hs : a.stage = .validity wait)
      (hv : s.store.hasValidSession a.userId = true) :
      Steps s held a s.store (a.ask s .userScope .scope).1
  /-- It finds the account. -/
  | enter (wait scope) (hc : a.isAborted = false) (hs : a.stage = .scope wait)
      (hf : s.scope a.userId = .ok scope) :
      Steps s held a s.store (a.inStage (.incoming scope (scope.listFeed .incoming)))
  /-- It finds the call and asks to answer it. -/
  | find (scope feed) (hc : a.isAborted = false) (hs : a.stage = .incoming scope feed)
      (hf : a.Finds s held feed) : Steps s held a s.store (a.ask s .answerCall (.request scope)).1
  /-- It does not find what it looks for, and ends. -/
  | miss (outcome) (hc : a.isAborted = false)
      (hs : (∃ wait, a.stage = .validity wait) ∨ (∃ wait, a.stage = .scope wait) ∨
        ∃ scope feed, a.stage = .incoming scope feed ∧ ¬ a.Finds s held feed) :
      Steps s held a s.store (a.inStage (.done outcome))
  /-- It waits until the answer takes effect. -/
  | request (scope wait) (hc : a.isAborted = false) (hs : a.stage = .request scope wait) :
      Steps s held a s.store (a.inStage (.effect scope
        (.till (s.now + ((s.store.account? scope.account).bind (·.answerDelay)).getD 0))))
  /-- The answer takes effect. -/
  | effect (scope wait account) (hc : a.isAborted = false) (hs : a.stage = .effect scope wait)
      (ha : s.store.account? scope.account = some account) :
      Steps s held a
        (s.store.modify scope.account fun _ => (account.answer a.conversationId).2)
        (a.inStage (.done (outcomeOf (account.answer a.conversationId).1)))
  /-- There is nothing any more for the answer to take effect on. -/
  | vanish (scope wait) (hc : a.isAborted = false) (hs : a.stage = .effect scope wait)
      (ha : s.store.account? scope.account = none) :
      Steps s held a s.store (a.inStage (.done .answered))
  /-- It waits for the list, or has ended. -/
  | stay (hs : (∃ scope feed, a.stage = .incoming scope feed ∧
        (feed.next (s.store.lists held)).1 = .pending) ∨ ∃ outcome, a.stage = .done outcome) :
      Steps s held a s.store a

/-! ### They are all -/

theorem steps_incoming {s : Surroundings} {held : AccountRef → Bool} {a : Answering}
    {scope : Scope} {feed : ListFeed} (hc : a.isAborted = false)
    (hs : a.stage = .incoming scope feed) : Steps s held a (a.step s held).1 (a.step s held).2.1 := by
  rcases hn : (feed.next (s.store.lists held)).1 with (e | calls) | _ | _
  · have h : a.step s held = (s.store, a.fail e) := by simp [step, hc, hs, hn]
    rw [h]
    refine .miss _ hc (.inr (.inr ⟨scope, feed, hs, ?_⟩))
    rintro ⟨calls, hcalls, -⟩
    rw [hn] at hcalls
    cases hcalls
  · rcases hl : a.lists calls with _ | _
    · have h : a.step s held = (s.store, a.inStage (.done .callNotFound), []) := by
        simp [step, hc, hs, hn, hl]
      rw [h]
      refine .miss _ hc (.inr (.inr ⟨scope, feed, hs, ?_⟩))
      rintro ⟨calls', hcalls, hlisted⟩
      rw [hn] at hcalls
      cases hcalls
      rw [hl] at hlisted
      cases hlisted
    · have h : a.step s held = (s.store, a.ask s .answerCall (.request scope)) := by
        simp [step, hc, hs, hn, hl]
      rw [h]
      exact .find scope feed hc hs ⟨calls, hn, hl⟩
  · have h : a.step s held = (s.store, a.inStage (.done .callNotFound), []) := by
      simp [step, hc, hs, hn]
    rw [h]
    refine .miss _ hc (.inr (.inr ⟨scope, feed, hs, ?_⟩))
    rintro ⟨calls, hcalls, -⟩
    rw [hn] at hcalls
    cases hcalls
  · have h : a.step s held = (s.store, a, []) := by simp [step, hc, hs, hn]
    rw [h]
    exact .stay (.inl ⟨scope, feed, hs, hn⟩)

theorem steps_effect {s : Surroundings} {held : AccountRef → Bool} {a : Answering} {scope : Scope}
    {wait : Wait} (hc : a.isAborted = false) (hs : a.stage = .effect scope wait) :
    Steps s held a (a.step s held).1 (a.step s held).2.1 := by
  rcases ha : s.store.account? scope.account with _ | account
  · have h : a.step s held = (s.store, a.inStage (.done .answered), []) := by
      simp [step, hc, hs, ha]
    rw [h]
    exact .vanish scope wait hc hs ha
  · have hcase : Steps s held a _ _ := .effect scope wait account hc hs ha
    rcases hanswer : account.answer a.conversationId with ⟨_ | _, account'⟩
    · rw [hanswer] at hcase
      simpa [step, hc, hs, ha, hanswer, outcomeOf, fail] using hcase
    · rw [hanswer] at hcase
      simpa [step, hc, hs, ha, hanswer, outcomeOf] using hcase

/-- **Every step of an attempt is one of the cases.** -/
theorem steps (s : Surroundings) (held : AccountRef → Bool) (a : Answering) :
    Steps s held a (a.step s held).1 (a.step s held).2.1 := by
  rcases hc : a.isAborted with _ | _
  · rcases hs : a.stage with _ | wait | wait | ⟨scope, feed⟩ | ⟨scope, wait⟩ | ⟨scope, wait⟩ | outcome
    · have h : a.step s held = (s.store, a.ask s .hasValidSession .validity) := by
        simp [step, hc, hs]
      rw [h]
      exact .begin hc hs
    · rcases hv : s.store.hasValidSession a.userId with _ | _
      · have h : a.step s held = (s.store, a.inStage (.done .noValidSession), []) := by
          simp [step, hc, hs, hv]
        rw [h]
        exact .miss _ hc (.inl ⟨wait, hs⟩)
      · have h : a.step s held = (s.store, a.ask s .userScope .scope) := by
          simp [step, hc, hs, hv]
        rw [h]
        exact .accept wait hc hs hv
    · rcases hf : s.scope a.userId with e | scope
      · have h : a.step s held = (s.store, a.fail e) := by simp [step, hc, hs, hf]
        rw [h]
        exact .miss _ hc (.inr (.inl ⟨wait, hs⟩))
      · have h : a.step s held =
            (s.store, a.inStage (.incoming scope (scope.listFeed .incoming)), []) := by
          simp [step, hc, hs, hf]
        rw [h]
        exact .enter wait scope hc hs hf
    · exact steps_incoming hc hs
    · have h : a.step s held = (s.store, a.inStage (.effect scope (.till (s.now +
          ((s.store.account? scope.account).bind (·.answerDelay)).getD 0))), []) := by
        simp [step, hc, hs]
      rw [h]
      exact .request scope wait hc hs
    · exact steps_effect hc hs
    · have h : a.step s held = (s.store, a, []) := by simp [step, hc, hs]
      rw [h]
      exact .stay (.inr ⟨outcome, hs⟩)
  · have h : a.step s held = (s.store, a.inStage (.done .aborted), []) := by simp [step, hc]
    rw [h]
    exact .abort hc

theorem Steps.identity {s : Surroundings} {held : AccountRef → Bool} {a a' : Answering}
    {store : Store} (h : Steps s held a store a') : a'.identity = a.identity := by
  cases h with
  | begin => exact identity_ask s a _ _
  | accept => exact identity_ask s a _ _
  | find => exact identity_ask s a _ _
  | _ => rfl

end Answering

end CallWatch
