import CallWatch.Proofs.Chronicle
import CallWatch.Proofs.Engine.Verdict
import CallWatch.Proofs.Engine.Weighing

/-! # How a pipeline follows the store

`Follows` says for every phase of a pipeline what it knows of the store: which session it saw last,
what a lookup has found so far, and which lists it has shown. It is kept by the steps of the pipeline
and by everything that happens to the store, as long as nothing that a lookup asks changes while one
is on its way. When such a pipeline finds nothing new, the last decision that it came to is the one
that the store stands for. -/

namespace CallWatch

/-- The item about the session that a pipeline took last, with the store as it was then. -/
def Chronicle.lastConsumed (c : Chronicle) (g : Nat) : Option (SessionItem × Store) :=
  (c.filterMap fun entry => match entry.2 with
    | .consumed g' item store => if g' = g then some (item, store) else none
    | _ => none).getLast?

theorem Chronicle.lastConsumed_append_of_not_mem (c : Chronicle) {c' : Chronicle} {g : Nat}
    (h : ∀ n item store, (n, .consumed g item store) ∉ c') :
    (c ++ c').lastConsumed g = c.lastConsumed g := by
  have hnone : (c'.filterMap fun entry => match entry.2 with
      | .consumed g' item store => if g' = g then some (item, store) else none
      | _ => none) = [] := by
    refine List.filterMap_eq_nil_iff.mpr fun entry hentry => ?_
    obtain ⟨n, o⟩ := entry
    rcases o with _ | _ | _ | ⟨g', item, store⟩ | _ | _ | _
    all_goals try rfl
    have hne : g' ≠ g := by
      rintro rfl
      exact h n item store hentry
    simp [hne]
  rw [lastConsumed, List.filterMap_append, hnone, List.append_nil, lastConsumed]

theorem Chronicle.lastConsumed_append_consumed (c : Chronicle) {c' : Chronicle} {g n : Nat}
    {item : SessionItem} {store : Store} (h : ∀ n item store, (n, .consumed g item store) ∉ c') :
    (c ++ (n, .consumed g item store) :: c').lastConsumed g = some (item, store) := by
  have hsplit : c ++ (n, .consumed g item store) :: c' =
      (c ++ [(n, .consumed g item store)]) ++ c' := by simp
  rw [hsplit, lastConsumed_append_of_not_mem _ h, lastConsumed, List.filterMap_append]
  simp

/-! ### Lookups on their way -/

/-- A lookup that asked for the account of a user, or that found it and asked for its name. -/
inductive Lookup.OnItsWay (now : Nat) (earlier : Store) : Lookup → Prop
  | scope (user n) (hn : n ≤ now) : OnItsWay now earlier ⟨user, .scope (.till n)⟩
  | name (user n ref) (hn : n ≤ now) (hfind : earlier.find? user = some ref) :
      OnItsWay now earlier ⟨user, .name ⟨user, ref, []⟩ (.till n)⟩

/-- A lookup that first asks whether the session of the user holds. -/
inductive Lookup.OnItsWayToOwner (now : Nat) (earlier : Store) (l : Lookup) : Prop
  | validity (n) (hn : n ≤ now) (hstage : l.stage = .validity (.till n))
  | valid (hvalid : earlier.hasValidSession l.user = true) (hway : l.OnItsWay now earlier)

theorem Lookup.OnItsWay.later {now now' : Nat} {earlier : Store} {l : Lookup}
    (h : l.OnItsWay now earlier) (hnow : now ≤ now') : l.OnItsWay now' earlier := by
  cases h with
  | scope user n hn => exact .scope user n (Nat.le_trans hn hnow)
  | name user n ref hn hfind => exact .name user n ref (Nat.le_trans hn hnow) hfind

theorem Lookup.OnItsWayToOwner.later {now now' : Nat} {earlier : Store} {l : Lookup}
    (h : l.OnItsWayToOwner now earlier) (hnow : now ≤ now') : l.OnItsWayToOwner now' earlier := by
  cases h with
  | validity n hn hstage => exact .validity n (Nat.le_trans hn hnow) hstage
  | valid hvalid hway => exact .valid hvalid (hway.later hnow)

/-- The answer to a lookup on its way is there. -/
theorem Lookup.OnItsWay.isOver {now : Nat} {earlier : Store} {l : Lookup}
    (h : l.OnItsWay now earlier) : l.wait.isOver now = true := by
  cases h with
  | scope user n hn => simpa [Lookup.wait, Wait.isOver] using hn
  | name user n ref hn => simpa [Lookup.wait, Wait.isOver] using hn

theorem Lookup.OnItsWayToOwner.isOver {now : Nat} {earlier : Store} {l : Lookup}
    (h : l.OnItsWayToOwner now earlier) : l.wait.isOver now = true := by
  cases h with
  | validity n hn hstage => simpa [Lookup.wait, hstage, Wait.isOver] using hn
  | valid _ hway => exact hway.isOver

section Lookups

variable {s : Surroundings} {earlier : Store} {l : Lookup}

theorem ask_of_none (hs : s.arrangement = .none) (user : UserId) (q : Question) :
    s.ask user q = .ok (.till s.now) := by
  simp [Surroundings.ask, hs, Arrangement.none]

theorem displayName_eq (halike : earlier.Alike s.store) {user : UserId} {ref : AccountRef}
    (hfind : earlier.find? user = some ref) : s.displayName ref = earlier.nameOf user := by
  have hname (st : Store) : ((st.account? ref).map (·.selfUser.displayName)) =
      (st.told ref).map (·.1.displayName) := by
    rw [Store.told, Option.map_map]; rfl
  have haccount : earlier.accountOf? user = earlier.account? ref := by
    rw [Store.accountOf?, hfind, Option.bind_some]
  rw [Surroundings.displayName, Store.nameOf, haccount, hname, hname, halike.told]

/-- What comes of a step of a lookup. -/
theorem Lookup.OnItsWay.step (h : l.OnItsWay s.now earlier) (hs : s.arrangement = .none)
    (halike : earlier.Alike s.store) :
    (∃ next, l.step s = .on next ∧ next.user = l.user ∧ next.OnItsWay s.now earlier) ∨
      (∃ e, l.step s = .done (.error e)) ∨
      ∃ r, l.step s = .done (.ok (some r)) ∧ earlier.resolved? l.user = some r := by
  cases h with
  | scope user n hn =>
    rcases hfind : earlier.find? user with _ | ref
    · refine .inr (.inl ⟨.sessionNotFound user, ?_⟩)
      simp [Lookup.step, Surroundings.scope, halike.find, hfind]
    · refine .inl ⟨⟨user, .name ⟨user, ref, []⟩ (.till s.now)⟩, ?_, rfl,
        .name user _ ref (Nat.le_refl _) hfind⟩
      simp [Lookup.step, Surroundings.scope, halike.find, hfind, Lookup.ask, ask_of_none hs, hs,
        Arrangement.none]
  | name user n ref hn hfind =>
    refine .inr (.inr ⟨⟨user, ⟨user, ref, []⟩, s.displayName ref⟩, rfl, ?_⟩)
    rw [Store.resolved?, hfind, displayName_eq halike hfind]
    rfl

/-- What comes of a step of the lookup of an owner. -/
theorem Lookup.OnItsWayToOwner.step (h : l.OnItsWayToOwner s.now earlier)
    (hs : s.arrangement = .none) (halike : earlier.Alike s.store) :
    (∃ next, l.step s = .on next ∧ next.user = l.user ∧ next.OnItsWayToOwner s.now earlier) ∨
      (∃ e, l.step s = .done (.error e)) ∨
      l.step s = .done (.ok (earlier.owner? l.user)) := by
  cases h with
  | validity n hn hstage =>
    rcases hvalid : earlier.hasValidSession l.user with _ | _
    · refine .inr (.inr ?_)
      simp [Lookup.step, hstage, halike.hasValidSession, hvalid, Store.owner?]
    · refine .inl ⟨⟨l.user, .scope (.till s.now)⟩, ?_, rfl,
        .valid hvalid (.scope l.user _ (Nat.le_refl _))⟩
      simp [Lookup.step, hstage, halike.hasValidSession, hvalid, Lookup.ask, ask_of_none hs]
  | valid hvalid hway =>
    rcases hway.step hs halike with ⟨next, hstep, huser, hnext⟩ | hfail | ⟨r, hstep, hr⟩
    · exact .inl ⟨next, hstep, huser, .valid (huser ▸ hvalid) hnext⟩
    · exact .inr (.inl hfail)
    · refine .inr (.inr ?_)
      rw [hstep, Store.owner?, hvalid, if_pos rfl, hr]

end Lookups

/-! ### What a pipeline knows -/

namespace Pipeline

/-- The pipeline saw this session last, when the store was as it was earlier. -/
structure HasSeen (store : Store) (c : Chronicle) (p : Pipeline) (session : Option Session)
    (earlier : Store) : Prop where
  consumed : c.lastConsumed p.generation = some (.ok session, earlier)
  feed : ∃ version, p.sessions = some (.live () (some version)) ∧
    store.session.ShowedAt version (.ok session)
  kept : earlier.Keeps store

/-- What a pipeline knows that watches the store. -/
inductive Watches (store : Store) (c : Chronicle) (p : Pipeline) : Prop
  /-- It has not looked yet. -/
  | unseen (hfeed : p.sessions = some (.live () none)) (hcalls : p.calls = none)
  /-- Nobody is signed in. -/
  | signedOut (session earlier) (hseen : p.HasSeen store c session earlier)
      (huser : validUser? session = none) (hcalls : p.calls = none)
      (hoffered : p.debounce.lastOffered = some (.stop .noValidSession))
  /-- The calls of the user are set up. -/
  | ready (session earlier user r) (hseen : p.HasSeen store c session earlier)
      (huser : validUser? session = some user) (hr : earlier.resolved? user = some r)
      (hcalls : p.calls = some (newSources earlier r p.target))
  /-- The calls of the user were shown, and a decision was offered. -/
  | shown (session earlier user r sources) (hseen : p.HasSeen store c session earlier)
      (huser : validUser? session = some user) (hr : earlier.resolved? user = some r)
      (hcalls : p.calls = some sources)
      (hcaught : CallSource.AllCaught store (newSources earlier r p.target) sources)
      (hoffered : p.debounce.lastOffered = some (.ofCalls (CallSource.joined sources)))

/-- What a pipeline knows that looks the account of a session up. -/
structure Resolves (now : Nat) (store : Store) (c : Chronicle) (p : Pipeline) (l : Lookup) :
    Prop where
  seen : ∃ session earlier, p.HasSeen store c session earlier ∧
    validUser? session = some l.user ∧ earlier.Alike store ∧ l.OnItsWay now earlier

/-- What a pipeline knows that looks the account of the answer target up. -/
structure Gathers (now : Nat) (store : Store) (c : Chronicle) (p : Pipeline) (g : Gathering) :
    Prop where
  seen : ∃ session earlier user, p.HasSeen store c session earlier ∧
    validUser? session = some user ∧ earlier.Alike store ∧
    earlier.resolved? user = some g.session ∧ p.target = some g.target ∧
    g.lookup.user = g.target.userId ∧ g.lookup.OnItsWayToOwner now earlier

/-- What a pipeline knows, phase by phase. A failure ends what it knows. -/
def Follows (now : Nat) (store : Store) (c : Chronicle) (p : Pipeline) : Prop :=
  match p.phase with
  | .spawned => p.calls = none
  | .watching => p.Watches store c
  | .resolving l => p.Resolves now store c l
  | .gathering g => p.Gathers now store c g
  | .sending (.ok _) .goOn => p.Watches store c
  | .sending (.error _) .finish => True
  | .sending _ _ => False
  | .finished => True

/-- Whether the pipeline is in the middle of a lookup. -/
def isLookingUp (p : Pipeline) : Bool :=
  match p.phase with
  | .resolving _ | .gathering _ => true
  | _ => false

/-! ### Whatever else happens -/

section Elsewhere

variable {now now' : Nat} {store store' : Store} {c c' : Chronicle} {p : Pipeline}

theorem HasSeen.grows {session : Option Session} {earlier : Store}
    (h : p.HasSeen store c session earlier) (hg : store.Grows store')
    (hc : c'.lastConsumed p.generation = c.lastConsumed p.generation) :
    p.HasSeen store' c' session earlier := by
  obtain ⟨version, hfeed, hversion⟩ := h.feed
  exact ⟨hc.trans h.consumed, ⟨version, hfeed, hversion.grows hg.session⟩,
    fun user ref hfind => hg.find user ref (h.kept user ref hfind)⟩

theorem Watches.grows (h : p.Watches store c) (hg : store.Grows store')
    (hc : c'.lastConsumed p.generation = c.lastConsumed p.generation) : p.Watches store' c' := by
  cases h with
  | unseen hfeed hcalls => exact .unseen hfeed hcalls
  | signedOut session earlier hseen huser hcalls hoffered =>
    exact .signedOut session earlier (hseen.grows hg hc) huser hcalls hoffered
  | ready session earlier user r hseen huser hr hcalls =>
    exact .ready session earlier user r (hseen.grows hg hc) huser hr hcalls
  | shown session earlier user r sources hseen huser hr hcalls hcaught hoffered =>
    exact .shown session earlier user r sources (hseen.grows hg hc) huser hr hcalls
      (hcaught.grows hg) hoffered

/-- What a pipeline knows survives whatever it does not do itself. -/
theorem Follows.grows (h : p.Follows now store c) (hnow : now ≤ now') (hg : store.Grows store')
    (halike : p.isLookingUp = true → store.Alike store')
    (hc : c'.lastConsumed p.generation = c.lastConsumed p.generation) :
    p.Follows now' store' c' := by
  unfold Follows at h ⊢
  split at h
  · exact h
  · exact Watches.grows h hg hc
  · next l hp =>
    obtain ⟨session, earlier, hseen, huser, hsame, hway⟩ := h.seen
    exact ⟨session, earlier, hseen.grows hg hc, huser,
      hsame.trans (halike (by simp [isLookingUp, hp])), hway.later hnow⟩
  · next g hp =>
    obtain ⟨session, earlier, user, hseen, huser, hsame, hr, htarget, hlookup, hway⟩ := h.seen
    exact ⟨session, earlier, user, hseen.grows hg hc, huser,
      hsame.trans (halike (by simp [isLookingUp, hp])), hr, htarget, hlookup, hway.later hnow⟩
  · exact Watches.grows h hg hc
  · trivial
  · exact h.elim
  · trivial

theorem HasSeen.congr {p' : Pipeline} {session : Option Session} {earlier : Store}
    (h : p.HasSeen store c session earlier) (hgen : p'.generation = p.generation)
    (hsessions : p'.sessions = p.sessions) : p'.HasSeen store c session earlier :=
  ⟨hgen ▸ h.consumed, hsessions ▸ h.feed, h.kept⟩

/-- What a pipeline knows is about what it follows and the decision that it came to last. -/
theorem Watches.congr {p' : Pipeline} (h : p.Watches store c) (hgen : p'.generation = p.generation)
    (htarget : p'.target = p.target) (hsessions : p'.sessions = p.sessions)
    (hcalls : p'.calls = p.calls)
    (hoffered : p'.debounce.lastOffered = p.debounce.lastOffered) : p'.Watches store c := by
  cases h with
  | unseen hfeed hnone => exact .unseen (hsessions.trans hfeed) (hcalls.trans hnone)
  | signedOut session earlier hseen huser hnone hlast =>
    exact .signedOut session earlier (hseen.congr hgen hsessions) huser (hcalls.trans hnone)
      (hoffered.trans hlast)
  | ready session earlier user r hseen huser hr hnew =>
    exact .ready session earlier user r (hseen.congr hgen hsessions) huser hr
      (by rw [hcalls, hnew, htarget])
  | shown session earlier user r sources hseen huser hr hsources hcaught hlast =>
    exact .shown session earlier user r sources (hseen.congr hgen hsessions) huser hr
      (hcalls.trans hsources) (by rw [htarget]; exact hcaught) (hoffered.trans hlast)

/-- Cancelling a pipeline does not change what it knows. -/
theorem Follows.cancel (h : p.Follows now store c) (b : Bool) :
    ({ p with cancelled := b } : Pipeline).Follows now store c := by
  unfold Follows at h ⊢
  split at h
  · next hp =>
    simp only [hp]
    exact h
  · next hp =>
    simp only [hp]
    exact Watches.congr h rfl rfl rfl rfl rfl
  · next l hp =>
    simp only [hp]
    obtain ⟨session, earlier, hseen, hrest⟩ := h.seen
    exact ⟨session, earlier, hseen.congr rfl rfl, hrest⟩
  · next g hp =>
    simp only [hp]
    obtain ⟨session, earlier, user, hseen, hrest⟩ := h.seen
    exact ⟨session, earlier, user, hseen.congr rfl rfl, hrest⟩
  · next d hp =>
    simp only [hp]
    exact Watches.congr h rfl rfl rfl rfl rfl
  · next e hp => simp only [hp]
  · exact h.elim
  · next hp => simp only [hp]

end Elsewhere

/-! ### The steps of the pipeline -/

section Steps

variable {s : Surroundings} {c : Chronicle} {p q : Pipeline} {session : Option Session}
  {earlier : Store} {user : UserId} {r : Resolved}

/-- Whatever passes the debounce, the pipeline goes on watching. -/
theorem follows_emit {passed : Debounce × Option Decision} {now : Nat} {store : Store}
    (h : (q.emit passed).Watches store c) : (q.emit passed).Follows now store c := by
  rcases passed with ⟨debounce, _ | d⟩ <;> exact h

/-- The lookup of the account of the answer target goes on, fails, or finds it. -/
theorem follows_onGathered (hseen : q.HasSeen s.store c session earlier)
    (huser : validUser? session = some user) (halike : earlier.Alike s.store)
    (hr : earlier.resolved? user = some r)
    {result : Step Gathering (Except CallError (List CallSource))}
    (hresult : (∃ t lookup, result = .on ⟨r, t, lookup⟩ ∧ q.target = some t ∧
        lookup.user = t.userId ∧ lookup.OnItsWayToOwner s.now earlier) ∨
      (∃ e, result = .done (.error e)) ∨
      result = .done (.ok (newSources earlier r q.target))) :
    (q.onGathered result).Follows s.now s.store c := by
  rcases hresult with ⟨t, lookup, rfl, htarget, hlookup, hway⟩ | ⟨e, rfl⟩ | rfl
  · exact ⟨session, earlier, user, hseen.congr rfl rfl, huser, halike, hr, htarget, hlookup, hway⟩
  · trivial
  · exact .ready session earlier user r (hseen.congr rfl rfl) huser hr rfl

/-- The calls are set up at once, or the account of the answer target is looked up. -/
theorem start_spec (hs : s.arrangement = .none) (target : Option AnswerTarget) :
    (∃ t lookup, Gathering.start s r target = .on ⟨r, t, lookup⟩ ∧ target = some t ∧
        lookup.user = t.userId ∧ lookup.OnItsWayToOwner s.now earlier) ∨
      Gathering.start s r target = .done (.ok (newSources earlier r target)) := by
  rcases target with _ | t
  · exact .inr rfl
  · refine .inl ⟨t, ⟨t.userId, .validity (.till s.now)⟩, ?_, rfl, rfl,
      .validity s.now (Nat.le_refl _) rfl⟩
    simp [Gathering.start, Lookup.ofUser, Lookup.ask, ask_of_none hs]

/-- The lookup of the account of a session goes on, fails, or finds it. -/
theorem follows_onResolved (hs : s.arrangement = .none)
    (hseen : q.HasSeen s.store c session earlier) (huser : validUser? session = some user)
    (halike : earlier.Alike s.store) {result : Step Lookup LookupResult}
    (hresult : (∃ next, result = .on next ∧ next.user = user ∧ next.OnItsWay s.now earlier) ∨
      (∃ e, result = .done (.error e)) ∨
      ∃ r, result = .done (.ok (some r)) ∧ earlier.resolved? user = some r) :
    (q.onResolved s result).Follows s.now s.store c := by
  rcases hresult with ⟨next, rfl, rfl, hway⟩ | ⟨e, rfl⟩ | ⟨r, rfl, hr⟩
  · exact ⟨session, earlier, hseen.congr rfl rfl, huser, halike, hway⟩
  · trivial
  · refine follows_onGathered hseen huser halike hr ?_
    rcases start_spec hs q.target with hon | hdone
    · exact .inl hon
    · exact .inr (.inr hdone)

/-- The pipeline takes a session. -/
theorem follows_onSession (hs : s.arrangement = .none) (session : Option Session)
    (hseen : ({ q with calls := none } : Pipeline).HasSeen s.store c session s.store) :
    (q.onSession s (.ok session)).Follows s.now s.store c := by
  rcases huser : validUser? session with _ | user
  · have hcurrent : Lookup.ofCurrent s session = .done (.ok none) := by
      rcases session with _ | session
      · rfl
      · rcases hvalid : session.isValid with _ | _
        · simp [Lookup.ofCurrent, hvalid]
        · simp [validUser?, hvalid] at huser
    rw [onSession, hcurrent]
    refine follows_emit (.signedOut session s.store (hseen.congr rfl rfl) huser rfl ?_)
    exact Debounce.lastOffered_offer _ _ _
  · rw [onSession]
    refine follows_onResolved hs hseen huser (.refl _) (.inl ?_)
    refine ⟨⟨user, .scope (.till s.now)⟩, ?_, rfl, .scope user _ (Nat.le_refl _)⟩
    rcases session with _ | session
    · cases huser
    · rcases hvalid : session.isValid with _ | _
      · simp [validUser?, hvalid] at huser
      · obtain rfl : session.userId = user := by simpa [validUser?, hvalid] using huser
        simp [Lookup.ofCurrent, hvalid, Lookup.ofSession, Lookup.ask, ask_of_none hs]

/-- The sources that a watching pipeline has, as far as they were shown. -/
theorem Watches.sources {store : Store} (h : p.Watches store c) {calls : List CallSource}
    (hcalls : p.calls = some calls) : ∃ session earlier user r,
      p.HasSeen store c session earlier ∧ validUser? session = some user ∧
        earlier.resolved? user = some r ∧
        CallSource.Known store (newSources earlier r p.target) calls := by
  cases h with
  | unseen _ hnone => cases hcalls.symm.trans hnone
  | signedOut _ _ _ _ hnone => cases hcalls.symm.trans hnone
  | ready session earlier user r hseen huser hr hnew =>
    cases hcalls.symm.trans hnew
    exact ⟨session, earlier, user, r, hseen, huser, hr, List.forall₂_same.mpr fun s _ => .inl rfl⟩
  | shown session earlier user r sources hseen huser hr hsources hcaught =>
    cases hcalls.symm.trans hsources
    exact ⟨session, earlier, user, r, hseen, huser, hr, hcaught.known⟩

/-- The pipeline looks at its calls. -/
theorem follows_onCalls (h : p.Watches s.store c) {held : AccountRef → Bool}
    {calls after : List CallSource} {found : Combined} (hcalls : p.calls = some calls)
    (hst : CallSource.stirs (s.store.lists held) calls = true)
    (hpoll : CallSource.poll (s.store.lists held) calls = (found, after)) :
    ({ p with calls := some after }.onCalls s found).Follows s.now s.store c := by
  obtain ⟨session, earlier, user, r, hseen, huser, hr, hknown⟩ := h.sources hcalls
  obtain ⟨hnew, hlive, -⟩ := newSources_spec hr hseen.kept p.target
  have hisNew : ∀ new ∈ newSources earlier r p.target, new.IsNew := fun new hn => (hnew new hn).1
  have hgiven := hknown.isGiven (fun new hn => (hnew new hn).2) held
  rw [CallSource.stirs_eq hknown hisNew hlive] at hst
  rcases CallSource.poll_spec hisNew hknown hgiven hst with ⟨e, hfail⟩ | ⟨hall, hlists⟩
  · rw [hpoll] at hfail
    rw [show found = .failed e from hfail]
    trivial
  · rw [hpoll] at hall hlists
    rw [show found = .lists (CallSource.joined after) from hlists]
    refine follows_emit
      (.shown session earlier user r after (hseen.congr rfl rfl) huser hr rfl hall ?_)
    exact Debounce.lastOffered_offer _ _ _

/-- **Every step of a pipeline keeps what it knows of the store up to date.** -/
theorem Follows.steps {held : AccountRef → Bool} {p' : Pipeline} {happened : List Occurrence}
    {output : Option PipelineOutput} (h : p.Follows s.now s.store c) (hlive : p.FollowsLive)
    (hs : s.arrangement = .none) (hstep : p.Steps s held p' happened output) :
    p'.Follows s.now s.store (c ++ happened.map (s.now, ·)) := by
  -- All but one of the steps take no item about the session.
  have noted (hnone : ∀ g item store, .consumed g item store ∉ happened) :
      p.Follows s.now s.store (c ++ happened.map (s.now, ·)) := by
    refine h.grows (Nat.le_refl _) (.refl _) (fun _ => .refl _) ?_
    exact c.lastConsumed_append_of_not_mem fun n item store hmem =>
      hnone _ _ _ (Chronicle.mem_of_mem_noted hmem)
  have watches {store : Store} {c : Chronicle} (hp : p.phase = .watching)
      (h : p.Follows s.now store c) : p.Watches store c := by
    simpa only [Follows, hp] using h
  cases hstep with
  | begin hp =>
    have hcalls : p.calls = none := by simpa only [Follows, hp] using h
    exact .unseen (by simp [hs, Arrangement.none, Arrangement.sessionFeed, Feed.subscribe]) hcalls
  | abort => trivial
  | consume item feed feed' hc hp hfeed hn =>
    obtain ⟨seen, hseen⟩ := hlive.of_watching hp
    rw [hseen] at hfeed
    cases hfeed
    rw [next_live] at hn
    obtain ⟨hitem, rfl⟩ := Prod.mk.injEq .. ▸ hn
    split at hitem
    · cases hitem
    · injection hitem with hvalue
      rcases item with e | session
      · trivial
      · refine follows_onSession hs session
          ⟨?_, ⟨_, rfl, Nat.le_refl _, fun _ => hvalue⟩, fun _ _ h => h⟩
        refine c.lastConsumed_append_consumed fun n item store hmem => ?_
        have ho := Chronicle.mem_of_mem_noted hmem
        simp at ho
  | loseSession feed hc hp hfeed hn => exact absurd hn (hlive.next_ne_ended hp hfeed _)
  | look calls found after hc hp hq hcalls hst hn =>
    exact follows_onCalls (watches hp (noted (by simp))) hcalls hst hn
  | fire hc hp =>
    have hw := watches hp (noted (by simp))
    exact follows_emit (hw.congr rfl rfl rfl rfl (Debounce.lastOffered_fire _ _))
  | resolve lookup hc hp =>
    have hfollows := noted (by simp)
    simp only [Follows, hp] at hfollows
    obtain ⟨session, earlier, hseen, huser, halike, hway⟩ := hfollows.seen
    exact follows_onResolved hs hseen huser halike (hway.step hs halike)
  | gather g hc hp =>
    have hfollows := noted (by simp)
    simp only [Follows, hp] at hfollows
    obtain ⟨session, earlier, user, hseen, huser, halike, hr, htarget, hlookup, hway⟩ :=
      hfollows.seen
    refine follows_onGathered hseen huser halike hr ?_
    rcases hway.step hs halike with ⟨next, hnext, hsame, hgo⟩ | ⟨e, hfail⟩ | hdone
    · exact .inl ⟨g.target, next, by simp [Gathering.step, hnext], htarget, hsame.trans hlookup, hgo⟩
    · exact .inr (.inl ⟨e, by simp [Gathering.step, hfail, Gathering.finish, Except.map]⟩)
    · refine .inr (.inr ?_)
      simp [Gathering.step, hdone, Gathering.finish, Except.map, newSources, htarget, hlookup]
  | send result hc hp =>
    have hfollows := noted (by simp)
    rcases result with e | d
    · simp only [Follows, hp] at hfollows
    · simp only [Follows, hp] at hfollows
      exact Watches.congr hfollows rfl rfl rfl rfl rfl
  | sendLast => trivial
  | stay hp => simp only [Follows, hp]

/-- **A pipeline that finds nothing new came last to the decision that the store stands for.** -/
theorem Watches.verdict {store : Store} (h : p.Watches store c) {held : AccountRef → Bool}
    (hsessions : p.sessions.any (fun f => (f.inbox store.sessions).stirs) = false)
    (hcalls : p.calls.any (CallSource.stirs (store.lists held)) = false) :
    ∃ session earlier, c.lastConsumed p.generation = some (.ok session, earlier) ∧
      store.session.value = .ok session ∧
      p.debounce.lastOffered = some (store.verdict earlier p.target) := by
  have current {session earlier} (hseen : p.HasSeen store c session earlier) :
      store.session.value = .ok session := by
    obtain ⟨version, hfeed, hshown⟩ := hseen.feed
    refine hshown.2 ?_
    by_contra hne
    simp [hfeed, Feed.inbox, Live.inbox, Store.sessions, Inbox.stirs, hne] at hsessions
  cases h with
  | unseen hfeed => simp [hfeed, Feed.inbox, Live.inbox, Store.sessions, Inbox.stirs] at hsessions
  | signedOut session earlier hseen huser _ hoffered =>
    refine ⟨session, earlier, hseen.consumed, current hseen, ?_⟩
    rw [hoffered, Store.verdict, current hseen]
    simp only [huser]
  | ready session earlier user r hseen huser hr hnew =>
    obtain ⟨hspec, ⟨new, hmem, place, hfeed⟩, -⟩ := newSources_spec hr hseen.kept p.target
    have hknown : CallSource.Known store (newSources earlier r p.target)
        (newSources earlier r p.target) := List.forall₂_same.mpr fun _ _ => .inl rfl
    have hgiven := hknown.isGiven (fun new hn => (hspec new hn).2) held
    rw [hnew, Option.any_some, CallSource.stirs_eq hknown (fun new hn => (hspec new hn).1)
      ⟨new, hmem, place, hfeed⟩, List.any_eq_false] at hcalls
    exact absurd (CallSource.stirs_of_new (hspec new hmem).1 hfeed (hgiven new hmem))
      (hcalls _ (List.mem_map_of_mem hmem))
  | shown session earlier user r sources hseen huser hr hsources hcaught hoffered =>
    obtain ⟨hspec, hlive, hcandidates⟩ := newSources_spec hr hseen.kept p.target
    have hisNew : ∀ new ∈ newSources earlier r p.target, new.IsNew := fun new hn => (hspec new hn).1
    have hgiven := hcaught.known.isGiven (fun new hn => (hspec new hn).2) held
    rw [hsources, Option.any_some, CallSource.stirs_eq hcaught.known hisNew hlive] at hcalls
    refine ⟨session, earlier, hseen.consumed, current hseen, ?_⟩
    rw [hoffered, CallSource.joined_of_still hcaught hisNew hgiven hcalls, hcandidates,
      Store.verdict, current hseen]
    simp only [huser]

end Steps

end Pipeline

end CallWatch
