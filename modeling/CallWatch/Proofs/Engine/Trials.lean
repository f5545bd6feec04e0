import CallWatch.Proofs.Engine.Attempts
import CallWatch.Proofs.Engine.Following
import CallWatch.Proofs.History
import CallWatch.Proofs.Numbered

/-! # The turns of an attempt to answer

An attempt reads, one after the other, that the user has a valid session, where the account stands,
and that the account lists the call; then it waits for the delay of the account, and the answer takes
effect in one turn. `Stands` says of an attempt what it has read and done so far, stage by stage. It
is kept by whatever else happens and by the turns of the attempt itself. -/

namespace CallWatch

/-! ### The turns of an attempt -/

/-- An attempt that goes on, in the world in which it does. -/
structure Trial where
  world : World
  attempt : Answering

/-- The turn of an attempt that a move is, if it is one. -/
def World.trial? (w : World) (n : Nat) : Move → Option Trial
  | .go (.answering n') => if n' = n then (w.engine.answering? n).map (⟨w, ·⟩) else none
  | _ => none

/-- Whether a move arranges how the store conducts itself. -/
def Move.isArrangement : Move → Bool
  | .arrange _ => true
  | _ => false

/-- Whether a move is the turn of an attempt. -/
def Move.isTurnOf (n : Nat) : Move → Bool
  | .go (.answering n') => n' == n
  | _ => false

/-- An answer that took effect: the attempt as it was then, the account and the instant. -/
structure Effect where
  attempt : Answering
  account : AccountRef
  instant : Nat

/-- The effect that an attempt is about to have. -/
def Answering.effect? (s : Surroundings) (a : Answering) : Option Effect :=
  match a.isAborted, a.stage with
  | false, .effect scope _ =>
    (s.store.account? scope.account).map fun _ => ⟨a, scope.account, s.now⟩
  | _, _ => none

/-- The effect of a move. -/
def World.effect? (w : World) : Move → Option Effect
  | .go (.answering n) => (w.engine.answering? n).bind (·.effect? w.surroundings)
  | _ => none

namespace Trial

/-- The check of the attempt passes: it finds the call listed. -/
def Passes (t : Trial) : Prop :=
  t.attempt.isAborted = false ∧ ∃ scope feed, t.attempt.stage = .incoming scope feed ∧
    t.attempt.Finds t.world.surroundings t.world.engine.holds feed

/-- When the answer is due, once it is known by what it is delayed. -/
def due? (t : Trial) : Option Nat :=
  match t.attempt.isAborted, t.attempt.stage with
  | false, .request scope _ =>
    some (t.world.now + ((t.world.store.account? scope.account).bind (·.answerDelay)).getD 0)
  | _, _ => none

end Trial

namespace History

/-- The turns of an attempt. -/
def trials (h : History) (n : Nat) : List Trial := h.filterMap fun x => x.1.trial? n x.2

/-- Every effect, in order. -/
def effects (h : History) : List Effect := h.filterMap fun x => x.1.effect? x.2

/-- The effects of one attempt. -/
def effectsOf (h : History) (n : Nat) : List Effect := h.effects.filter (·.attempt.number = n)

/-- When the answer of an attempt is due. -/
def due? (h : History) (n : Nat) : Option Nat := (h.trials n).findSome? Trial.due?

variable {h : History} {w : World} {m : Move}

theorem trials_step (h : History) (w : World) (m : Move) (n : Nat) :
    trials (h ++ [(w, m)]) n = h.trials n ++ (w.trial? n m).toList := by
  rcases ht : w.trial? n m with _ | t <;> simp [trials, List.filterMap_append, ht]

theorem effects_step (h : History) (w : World) (m : Move) :
    effects (h ++ [(w, m)]) = h.effects ++ (w.effect? m).toList := by
  rcases he : w.effect? m with _ | e <;> simp [effects, List.filterMap_append, he]

theorem effectsOf_step (h : History) (w : World) (m : Move) (n : Nat) :
    effectsOf (h ++ [(w, m)]) n =
      h.effectsOf n ++ (w.effect? m).toList.filter (·.attempt.number = n) := by
  rw [effectsOf, effects_step, List.filter_append, effectsOf]

end History

/-- The effect of an attempt is at an account that is there. -/
theorem Answering.effect?_spec {s : Surroundings} {a : Answering} {e : Effect}
    (he : a.effect? s = some e) :
    e.attempt = a ∧ ∃ account, s.store.account? e.account = some account := by
  unfold effect? at he
  split at he
  · obtain ⟨account, haccount, rfl⟩ := Option.map_eq_some_iff.mp he
    exact ⟨rfl, account, haccount⟩
  · cases he

/-- The effects of an attempt have its number. -/
theorem Answering.filter_effect? (s : Surroundings) (a : Answering) (n : Nat) :
    (a.effect? s).toList.filter (·.attempt.number = n) =
      if a.number = n then (a.effect? s).toList else [] := by
  rcases he : a.effect? s with _ | e
  · simp
  · by_cases hn : a.number = n <;> simp [(effect?_spec he).1, hn]

/-- What has an effect is an attempt in its turn. -/
theorem World.trial?_of_effect? {w : World} {m : Move} {e : Effect} (he : w.effect? m = some e) :
    w.trial? e.attempt.number m = some ⟨w, e.attempt⟩ := by
  unfold effect? at he
  split at he
  · next n =>
    obtain ⟨a, ha, he⟩ := Option.bind_eq_some_iff.mp he
    have hn : a.number = n := (mem_of_found ha).2
    simp [trial?, (Answering.effect?_spec he).1, hn, ha]
  · cases he

/-- Where an attempt had no turn it had no effect. -/
theorem History.effectsOf_eq_nil {h : History} {n : Nat} (ht : h.trials n = []) :
    h.effectsOf n = [] := by
  refine List.filter_eq_nil_iff.mpr fun e he heq => ?_
  obtain ⟨x, hx, hex⟩ := List.mem_filterMap.mp he
  have htrial := World.trial?_of_effect? hex
  rw [of_decide_eq_true heq] at htrial
  have hmem : (⟨x.1, e.attempt⟩ : Trial) ∈ h.trials n := List.mem_filterMap.mpr ⟨x, hx, htrial⟩
  rw [ht] at hmem
  cases hmem

theorem Wait.isOver_till (now : Nat) : (Wait.till now).isOver now = true := by simp [Wait.isOver]

/-! ### The store -/

namespace Store

/-- Whoever has an account has one that is there. -/
def Grounded (s : Store) : Prop := ∀ user ref, s.find? user = some ref → ref < s.accounts.length

/-- An account lists an incoming call of a conversation. -/
def ListsIncoming (s : Store) (ref : AccountRef) (c : ConversationId) : Prop :=
  ∃ account calls, s.account? ref = some account ∧ account.incoming.value = .ok calls ∧
    ∃ call ∈ calls, call.conversationId = c

theorem length_modify (s : Store) (ref : AccountRef) (f : Account → Account) :
    (s.modify ref f).accounts.length = s.accounts.length := List.length_modify ..

theorem Grounded.modify {s : Store} (h : s.Grounded) (ref : AccountRef) (f : Account → Account) :
    (s.modify ref f).Grounded := by
  intro user ref' hfind
  rw [length_modify]
  exact h user ref' hfind

theorem Grounded.register {s : Store} (h : s.Grounded) (u : SelfUser) : (s.register u).Grounded := by
  intro user ref hfind
  have hlength : (s.register u).accounts.length = s.accounts.length + 1 := by simp [Store.register]
  rw [hlength]
  by_cases heq : user = u.id
  · subst heq
    rw [find?_register] at hfind
    cases hfind
    exact Nat.lt_succ_self _
  · rw [find?, Store.register, List.lookup_cons, beq_false_of_ne heq, lookup_filter_ne heq] at hfind
    exact Nat.lt_succ_of_lt (h user ref hfind)

theorem Grounded.apply {s : Store} (h : s.Grounded) (change : StoreChange) :
    (change.apply s).Grounded := by
  rcases change with item | u | ⟨ref, change⟩
  · exact h
  · exact h.register u
  · exact h.modify ref _

theorem length_apply_le (s : Store) (change : StoreChange) :
    s.accounts.length ≤ (change.apply s).accounts.length := by
  rcases change with item | u | ⟨ref, change⟩
  · exact Nat.le_refl _
  · simp [StoreChange.apply, Store.register]
  · exact Nat.le_of_eq (length_modify s ref _).symm

/-- No change of the store touches what was answered. -/
theorem answered_apply {s : Store} (change : StoreChange) {ref : AccountRef} {account : Account}
    (h : (change.apply s).account? ref = some account) :
    (∃ before, s.account? ref = some before ∧ before.answered = account.answered) ∨
      s.accounts.length ≤ ref ∧ account.answered = [] := by
  rcases change with item | u | ⟨ref', change⟩
  · exact .inl ⟨account, h, rfl⟩
  · simp only [StoreChange.apply, account?, Store.register, List.getElem?_append] at h
    split at h
    · exact .inl ⟨account, h, rfl⟩
    · next hle =>
      obtain rfl := List.mem_singleton.mp (List.mem_of_getElem? h)
      exact .inr ⟨Nat.le_of_not_lt hle, rfl⟩
  · rw [StoreChange.apply, account?_modify] at h
    split at h
    · obtain ⟨before, hbefore, rfl⟩ := Option.map_eq_some_iff.mp h
      refine .inl ⟨before, hbefore, ?_⟩
      rcases change with user | holds | ⟨name, content⟩ | error | delay | establishes
      · rfl
      · rfl
      · cases name <;> rfl
      · rfl
      · rfl
      · rfl
    · exact .inl ⟨account, h, rfl⟩

end Store

/-! ### What an attempt has read and done -/

namespace Answering

/-- An attempt that is in the middle of what it reads. -/
def isReading (a : Answering) : Bool :=
  match a.stage with
  | .scope _ | .incoming .. => true
  | _ => false

/-- The session of the user was found to hold. -/
def Validated (ts : List Trial) (user : UserId) : Prop :=
  ∃ t ∈ ts, (∃ wait, t.attempt.stage = .validity wait) ∧ t.world.store.hasValidSession user = true

/-- The account of the user was found. -/
def Located (ts : List Trial) (user : UserId) (ref : AccountRef) : Prop :=
  ∃ t ∈ ts, (∃ wait, t.attempt.stage = .scope wait) ∧ t.world.store.find? user = some ref

/-- Everything was read that the check asks for: that the session holds, where the account stands,
and that the account lists the call. If it was read at once, it was all true when the list was
read. -/
structure Checked (atOnce : Prop) (ts : List Trial) (user : UserId) (c : ConversationId)
    (ref : AccountRef) : Prop where
  validated : Validated ts user
  located : Located ts user ref
  listed : ∃ t ∈ ts, t.Passes ∧ t.world.store.ListsIncoming ref c ∧
    (atOnce → t.world.store.hasValidSession user = true ∧ t.world.store.find? user = some ref)

/-- The check did not pass so far, and nothing was asked for. -/
structure Unchecked (ts : List Trial) (es : List Effect) : Prop where
  none : es = []
  failing : ∀ t ∈ ts, ¬ t.Passes
  undue : ts.findSome? Trial.due? = .none

/-- What an attempt has read and done so far. -/
def Stands (atOnce : Prop) (now : Nat) (store : Store) (ts : List Trial) (es : List Effect)
    (a : Answering) : Prop :=
  match a.stage with
  | .spawned => Unchecked ts es
  | .validity wait => Unchecked ts es ∧ wait.isOver now = true
  | .scope wait => Unchecked ts es ∧ wait.isOver now = true ∧ Validated ts a.userId ∧
      (atOnce → store.hasValidSession a.userId = true)
  | .incoming scope feed => Unchecked ts es ∧ feed = .live (scope.account, .incoming) none ∧
      scope.account < store.accounts.length ∧ Validated ts a.userId ∧
      Located ts a.userId scope.account ∧
      (atOnce → store.hasValidSession a.userId = true ∧
        store.find? a.userId = some scope.account)
  | .request scope wait => es = [] ∧ ts.findSome? Trial.due? = none ∧ wait.isOver now = true ∧
      scope.account < store.accounts.length ∧
      Checked atOnce ts a.userId a.conversationId scope.account
  | .effect scope wait => es = [] ∧
      (∃ due, wait = .till due ∧ ts.findSome? Trial.due? = some due) ∧
      scope.account < store.accounts.length ∧
      Checked atOnce ts a.userId a.conversationId scope.account
  | .done _ => (es = [] ∧ ((∃ t ∈ ts, t.Passes) → a.bound = true)) ∨
      ∃ e, es = [e] ∧ e.attempt.identity = a.identity ∧
        Checked atOnce ts a.userId a.conversationId e.account ∧
        ∃ due, ts.findSome? Trial.due? = some due ∧ due ≤ e.instant

section Later

variable {atOnce : Prop} {ts : List Trial} {es : List Effect} {user : UserId} {c : ConversationId}
  {ref : AccountRef} {now : Nat} {store : Store} {a : Answering}

theorem Checked.later (h : Checked atOnce ts user c ref) (t : Trial) :
    Checked atOnce (ts ++ [t]) user c ref :=
  ⟨exists_later t h.validated, exists_later t h.located, exists_later t h.listed⟩

theorem Unchecked.later (h : Unchecked ts es) {t : Trial} (hp : ¬ t.Passes) (hd : t.due? = .none) :
    Unchecked (ts ++ [t]) es := by
  refine ⟨h.none, fun t' ht => ?_, by simp [h.undue, hd]⟩
  rcases List.mem_append.mp ht with ht | ht
  · exact h.failing t' ht
  · rwa [List.mem_singleton.mp ht]

/-- An attempt that has not ended had no effect. -/
theorem Stands.effects_eq_nil (h : Stands atOnce now store ts es a)
    (hs : ∀ outcome, a.stage ≠ .done outcome) : es = [] := by
  rcases hstage : a.stage with _ | wait | wait | ⟨scope, feed⟩ | ⟨scope, wait⟩ | ⟨scope, wait⟩ |
    outcome
  all_goals simp only [Stands, hstage] at h
  · exact h.none
  · exact h.1.none
  · exact h.1.none
  · exact h.1.none
  · exact h.1
  · exact h.1
  · exact absurd hstage (hs outcome)

/-- Whatever else happens leaves it as it is, unless it comes in between what is read at once. -/
theorem Stands.later (h : Stands atOnce now store ts es a) {now' : Nat} {store' : Store}
    {a' : Answering} (hnow : now ≤ now') (hlength : store.accounts.length ≤ store'.accounts.length)
    (hstore : atOnce → a.isReading = true → store' = store) (hstage : a'.stage = a.stage)
    (hid : a'.identity = a.identity) : Stands atOnce now' store' ts es a' := by
  have hover (wait : Wait) (h : wait.isOver now = true) : wait.isOver now' = true := by
    rcases wait with instant | _
    · simp only [Wait.isOver, decide_eq_true_eq] at h ⊢
      omega
    · cases h
  have huser : a'.userId = a.userId := congrArg (·.2.1) hid
  have hconversation : a'.conversationId = a.conversationId := congrArg (·.2.2.1) hid
  have hbound : a'.bound = a.bound := congrArg (·.2.2.2.1) hid
  rcases hs : a.stage with _ | wait | wait | ⟨scope, feed⟩ | ⟨scope, wait⟩ | ⟨scope, wait⟩ | outcome
  all_goals simp only [Stands, hs] at h
  all_goals simp only [Stands, hstage, hs, huser, hconversation, hbound, hid]
  · exact h
  · exact ⟨h.1, hover _ h.2⟩
  · obtain ⟨hun, hwait, hval, hnowValid⟩ := h
    refine ⟨hun, hover _ hwait, hval, fun hat => ?_⟩
    rw [hstore hat (by simp [isReading, hs])]
    exact hnowValid hat
  · obtain ⟨hun, hfeed, hlt, hval, hloc, hnowValid⟩ := h
    refine ⟨hun, hfeed, Nat.lt_of_lt_of_le hlt hlength, hval, hloc, fun hat => ?_⟩
    rw [hstore hat (by simp [isReading, hs])]
    exact hnowValid hat
  · obtain ⟨hes, hdue, hwait, hlt, hchecked⟩ := h
    exact ⟨hes, hdue, hover _ hwait, Nat.lt_of_lt_of_le hlt hlength, hchecked⟩
  · obtain ⟨hes, hdue, hlt, hchecked⟩ := h
    exact ⟨hes, hdue, Nat.lt_of_lt_of_le hlt hlength, hchecked⟩
  · exact h

end Later

/-! ### Its own turns -/

section Own

variable {atOnce : Prop} {w : World} {a a' : Answering} {ts : List Trial} {es : List Effect}
  {store : Store}

theorem ask_eq {s : Surroundings} (hs : s.arrangement = .none) (a : Answering) (q : Question)
    (stage : Wait → AnswerStage) : (a.ask s q stage).1 = a.inStage (stage (.till s.now)) := by
  rw [ask, ask_of_none hs]

theorem not_passes (h : ∀ scope feed, a.stage ≠ .incoming scope feed) :
    ¬ Trial.Passes ⟨w, a⟩ := by
  rintro ⟨-, scope, feed, hs, -⟩
  exact h scope feed hs

theorem due?_eq_none (h : ∀ scope wait, a.stage ≠ .request scope wait) :
    Trial.due? ⟨w, a⟩ = none := by
  unfold Trial.due?
  split
  · next hs => exact absurd hs (h _ _)
  · rfl

theorem effect?_eq_none {s : Surroundings} (h : ∀ scope wait, a.stage ≠ .effect scope wait) :
    a.effect? s = none := by
  unfold effect?
  split
  · next hs => exact absurd hs (h _ _)
  · rfl

/-- The first look at a list finds what the store has now. -/
theorem next_subscribe {s : Store} {held : AccountRef → Bool} {place : AccountRef × ListName} :
    (Feed.next (s.lists held) (.live place none)).1 = .item (s.live place).value := by
  simp [Feed.next, Feed.inbox, Live.inbox, Inbox.look, Store.lists, Store.live]

/-- A call that is found is listed by the account. -/
theorem listsIncoming_of_finds {s : Surroundings} {held : AccountRef → Bool} {ref : AccountRef}
    (hf : a.Finds s held (.live (ref, .incoming) none)) (hlt : ref < s.store.accounts.length) :
    s.store.ListsIncoming ref a.conversationId := by
  obtain ⟨calls, hnext, hlisted⟩ := hf
  rw [next_subscribe] at hnext
  have haccount : s.store.account? ref = some s.store.accounts[ref] := List.getElem?_eq_getElem hlt
  simp only [Store.live, haccount, Option.map_some, Option.getD_some, Account.list,
    Look.item.injEq] at hnext
  obtain ⟨call, hmem, heq⟩ := List.any_eq_true.mp hlisted
  exact ⟨_, calls, haccount, hnext, call, hmem, by simpa using heq⟩

theorem scope_eq_ok {s : Surroundings} (hs : s.arrangement = .none) {user : UserId} {scope : Scope}
    (h : s.scope user = .ok scope) :
    s.store.find? user = some scope.account ∧ scope.lists = [] := by
  unfold Surroundings.scope at h
  split at h
  · cases h
  · next ref hfind =>
    cases h
    exact ⟨hfind, by simp [hs, Arrangement.none]⟩

/-- **Every turn of an attempt** adds to what it has read, or is its effect. -/
theorem Stands.own (h : Stands atOnce w.now w.store ts es a) (harr : w.arrangement = .none)
    (hground : w.store.Grounded) (hready : a.isReady w.surroundings w.engine.holds = true)
    (hsteps : a.Steps w.surroundings w.engine.holds store a') :
    Stands atOnce w.now store (ts ++ [⟨w, a⟩])
      (es ++ (a.effect? w.surroundings).toList) a' := by
  have hself : (⟨w, a⟩ : Trial) ∈ ts ++ [⟨w, a⟩] := List.mem_append_right _ List.mem_cons_self
  cases hsteps with
  | abort hc =>
    have hs (outcome) : a.stage ≠ .done outcome := fun hs => by simp [isReady, hs] at hready
    have hnone : a.effect? w.surroundings = none := by simp [effect?, hc]
    refine .inl ⟨by simp [h.effects_eq_nil hs, hnone], fun _ => ?_⟩
    simp only [isAborted, Bool.and_eq_true] at hc
    exact hc.1
  | begin hc hs =>
    rw [ask_eq harr, effect?_eq_none (by simp [hs])]
    simp only [Stands, hs] at h
    simp only [Option.toList_none, List.append_nil]
    exact ⟨h.later (not_passes (by simp [hs])) (due?_eq_none (by simp [hs])),
      Wait.isOver_till w.now⟩
  | accept wait hc hs hv =>
    rw [ask_eq harr, effect?_eq_none (by simp [hs])]
    simp only [Stands, hs] at h
    simp only [Option.toList_none, List.append_nil]
    exact ⟨h.1.later (not_passes (by simp [hs])) (due?_eq_none (by simp [hs])),
      Wait.isOver_till w.now, ⟨_, hself, ⟨wait, hs⟩, hv⟩, fun _ => hv⟩
  | enter wait scope hc hs hf =>
    rw [effect?_eq_none (by simp [hs])]
    simp only [Stands, hs] at h
    simp only [Option.toList_none, List.append_nil]
    obtain ⟨hun, -, hval, hvalid⟩ := h
    obtain ⟨hfind, hlists⟩ := scope_eq_ok harr hf
    exact ⟨hun.later (not_passes (by simp [hs])) (due?_eq_none (by simp [hs])),
      by simp [Scope.listFeed, hlists, Feed.subscribe], hground _ _ hfind, exists_later _ hval,
      ⟨_, hself, ⟨wait, hs⟩, hfind⟩, fun hat => ⟨hvalid hat, hfind⟩⟩
  | find scope feed hc hs hf =>
    rw [ask_eq harr, effect?_eq_none (by simp [hs])]
    simp only [Stands, hs] at h
    simp only [Option.toList_none, List.append_nil]
    obtain ⟨hun, rfl, hlt, hval, hloc, hvalid⟩ := h
    have hdue : Trial.due? ⟨w, a⟩ = none := due?_eq_none (by simp [hs])
    refine ⟨hun.none, by simp [hun.undue, hdue], Wait.isOver_till w.now, hlt,
      exists_later _ hval, exists_later _ hloc, _, hself, ⟨hc, scope, _, hs, hf⟩,
      listsIncoming_of_finds hf hlt, hvalid⟩
  | miss outcome hc hs =>
    have hnone : a.effect? w.surroundings = none := effect?_eq_none fun scope wait hstage => by
      rcases hs with ⟨_, hs⟩ | ⟨_, hs⟩ | ⟨_, _, hs, -⟩ <;> rw [hstage] at hs <;> cases hs
    have hfails : ¬ Trial.Passes ⟨w, a⟩ := by
      rintro ⟨-, scope, feed, hstage, hfinds⟩
      rcases hs with ⟨_, hs⟩ | ⟨_, hs⟩ | ⟨_, _, hs, hmiss⟩ <;> rw [hstage] at hs <;> cases hs
      exact hmiss hfinds
    have hun : Unchecked ts es := by
      rcases hs with ⟨_, hs⟩ | ⟨_, hs⟩ | ⟨_, _, hs, -⟩ <;> simp only [Stands, hs] at h <;> exact h.1
    rw [hnone]
    refine .inl ⟨by simp [hun.none], ?_⟩
    rintro ⟨t, ht, hpasses⟩
    rcases List.mem_append.mp ht with ht | ht
    · exact absurd hpasses (hun.failing t ht)
    · rw [List.mem_singleton.mp ht] at hpasses
      exact absurd hpasses hfails
  | request scope wait hc hs =>
    rw [effect?_eq_none (by simp [hs])]
    simp only [Stands, hs] at h
    simp only [Option.toList_none, List.append_nil]
    obtain ⟨hes, hdue, -, hlt, hchecked⟩ := h
    refine ⟨hes, ⟨_, rfl, ?_⟩, hlt, hchecked.later _⟩
    simp [hdue, Trial.due?, hc, hs]
    rfl
  | effect scope wait account hc hs ha =>
    simp only [Stands, hs] at h
    obtain ⟨rfl, ⟨due, rfl, hdue⟩, -, hchecked⟩ := h
    have heffect : a.effect? w.surroundings = some ⟨a, scope.account, w.now⟩ := by
      simp [effect?, hc, hs, ha]
      rfl
    have hle : due ≤ w.surroundings.now := by
      simpa [isReady, hs, hc, wait?, Wait.isOver] using hready
    rw [heffect]
    refine .inr ⟨_, rfl, rfl, hchecked.later _, due, ?_, hle⟩
    simp [hdue]
  | vanish scope wait hc hs ha =>
    simp only [Stands, hs] at h
    have hsome := List.getElem?_eq_none_iff.mp ha
    exact absurd h.2.2.1 (Nat.not_lt_of_le hsome)
  | stay hs =>
    rcases hs with ⟨scope, feed, hs, hpending⟩ | ⟨outcome, hs⟩
    · simp only [Stands, hs] at h
      rw [h.2.1, next_subscribe] at hpending
      cases hpending
    · simp [isReady, hs] at hready

/-- A turn of an attempt leaves the store as it is, or is its effect: the answer is noted at the
account whether or not it fails, and the attempt ends. -/
theorem Steps.effect_or {s : Surroundings} {held : AccountRef → Bool}
    (h : a.Steps s held store a') :
    store = s.store ∧ a.effect? s = none ∨
      ∃ ref account, a.effect? s = some ⟨a, ref, s.now⟩ ∧ s.store.account? ref = some account ∧
        store = s.store.modify ref (fun _ => (account.answer a.conversationId).2) ∧
        a'.stage = .done (outcomeOf (account.answer a.conversationId).1) := by
  cases h with
  | abort hc => exact .inl ⟨rfl, by simp [effect?, hc]⟩
  | effect scope wait account hc hs ha =>
    exact .inr ⟨scope.account, account, by simp [effect?, hc, hs, ha], ha, rfl, rfl⟩
  | vanish scope wait hc hs ha => exact .inl ⟨rfl, by simp [effect?, hc, hs, ha]⟩
  | begin hc hs => exact .inl ⟨rfl, effect?_eq_none (by simp [hs])⟩
  | accept wait hc hs => exact .inl ⟨rfl, effect?_eq_none (by simp [hs])⟩
  | enter wait scope hc hs => exact .inl ⟨rfl, effect?_eq_none (by simp [hs])⟩
  | find scope feed hc hs => exact .inl ⟨rfl, effect?_eq_none (by simp [hs])⟩
  | request scope wait hc hs => exact .inl ⟨rfl, effect?_eq_none (by simp [hs])⟩
  | miss outcome hc hs =>
    refine .inl ⟨rfl, effect?_eq_none fun scope wait hstage => ?_⟩
    rcases hs with ⟨_, hs⟩ | ⟨_, hs⟩ | ⟨_, _, hs, -⟩ <;> rw [hstage] at hs <;> cases hs
  | stay hs =>
    refine .inl ⟨rfl, effect?_eq_none fun scope wait hstage => ?_⟩
    rcases hs with ⟨_, _, hs, -⟩ | ⟨_, hs⟩ <;> rw [hstage] at hs <;> cases hs

end Own

end Answering

end CallWatch
