import CallWatch.Proofs.Engine.Sources

/-! # What the store stands for

The decision that a store stands for, told without any pipeline: the first of the established and the
outgoing calls of the signed-in user and of the calls to be answered, or a stop. Names and validities
are those of an earlier store, the one of which a pipeline last asked them.

`newSources` are the sources that a pipeline sets up for this; what they show when nothing is left to
be seen is what the store stands for. -/

namespace CallWatch

/-- The user of a session that holds. -/
def validUser? (session : Option Session) : Option UserId :=
  match session with
  | some session => if session.isValid then some session.userId else none
  | none => none

namespace Store

/-- The calls that a list of a user holds now. -/
def callsOf (s : Store) (user : UserId) (name : ListName) : List Call :=
  match s.accountOf? user with
  | some account =>
    match (account.list name).value with
    | .ok calls => calls
    | .error _ => []
  | none => []

/-- The name that a user goes by. -/
def nameOf (s : Store) (user : UserId) : String :=
  ((s.accountOf? user).map (·.selfUser.displayName)).getD ""

/-- A call of a user as it is shown. -/
def entry (s : Store) (user : UserId) (call : Call) : Notification := ⟨user, call, s.nameOf user⟩

/-- The calls to choose from, with names and validities as they were in an earlier store: established
and outgoing ones of the user, and the incoming ones that are to be answered. -/
def candidates (s earlier : Store) (user : UserId) (target : Option AnswerTarget) :
    List Notification :=
  (s.callsOf user .established).map (earlier.entry user)
    ++ (s.callsOf user .outgoing).map (earlier.entry user)
    ++ match target with
      | none => []
      | some t =>
        if earlier.hasValidSession t.userId then
          ((s.callsOf t.userId .incoming).filter (·.conversationId == t.conversationId)).map
            (earlier.entry t.userId)
        else []

/-- The decision that the store stands for. -/
def verdict (s earlier : Store) (target : Option AnswerTarget) : Decision :=
  match s.session.value with
  | .ok session =>
    match validUser? session with
    | some user => .ofCalls (s.candidates earlier user target)
    | none => .stop .noValidSession
  | .error _ => .stop .noValidSession

/-- A user as a lookup finds it. -/
def resolved? (s : Store) (user : UserId) : Option Resolved :=
  (s.find? user).map fun ref => ⟨user, ⟨user, ref, []⟩, s.nameOf user⟩

/-- The owner of the call to be answered, if its session holds. -/
def owner? (s : Store) (user : UserId) : Option Resolved :=
  if s.hasValidSession user then s.resolved? user else none

/-- A user keeps its account. -/
def Keeps (earlier s : Store) : Prop :=
  ∀ user ref, earlier.find? user = some ref → s.find? user = some ref

theorem resolved?_eq_some {s : Store} {user : UserId} {r : Resolved} (h : s.resolved? user = some r) :
    ∃ ref, s.find? user = some ref ∧ r = ⟨user, ⟨user, ref, []⟩, s.nameOf user⟩ := by
  obtain ⟨ref, hfind, rfl⟩ := Option.map_eq_some_iff.mp h
  exact ⟨ref, hfind, rfl⟩

theorem isRegistered_of_find? {s : Store} {user : UserId} {ref : AccountRef}
    (h : s.find? user = some ref) : s.isRegistered ref = true := by
  rw [isRegistered, List.any_eq_true]
  rw [find?, List.lookup_eq_some_iff] at h
  obtain ⟨before, after, heq, -⟩ := h
  exact ⟨(user, ref), by simp [heq], by simp⟩

/-- The live list of a user is the one that its account holds. -/
theorem callsOf_eq {s : Store} {user : UserId} {ref : AccountRef} (h : s.find? user = some ref)
    (name : ListName) : s.callsOf user name =
      match (s.live (ref, name)).value with
      | .ok calls => calls
      | .error _ => [] := by
  have haccount : s.accountOf? user = s.account? ref := by rw [accountOf?, h, Option.bind_some]
  rw [callsOf, haccount, live]
  rcases s.account? ref with _ | a <;> rfl

end Store

/-! ### The sources that are set up -/

/-- The sources for a user, and for the call to be answered. -/
def newSources (earlier : Store) (r : Resolved) (target : Option AnswerTarget) : List CallSource :=
  CallSource.ofSession r ++
    [match target with
      | none => .nothing r.userId
      | some t => .ofTarget t (earlier.owner? t.userId)]

section NewSources

variable {store earlier : Store} {user : UserId} {r : Resolved}

/-- A source that was just set up follows a list of an account that somebody has, if any. -/
def CallSource.IsRegistered (store : Store) (new : CallSource) : Prop :=
  ∀ place seen, new.feed = .live place seen → store.isRegistered place.1 = true

/-- The lists of an account that somebody has are given, also after they were shown. -/
theorem CallSource.Known.isGiven {news sources : List CallSource}
    (h : CallSource.Known store news sources) (hnew : ∀ new ∈ news, new.IsRegistered store)
    (held : AccountRef → Bool) (s : CallSource) (hs : s ∈ sources) : s.IsGiven store held := by
  intro place seen hfeed
  obtain ⟨new, hmem, hr⟩ := exists_of_mem_right h hs
  have hregistered : store.isRegistered place.1 = true := by
    rcases hr with rfl | hcaught
    · exact hnew s hmem place seen hfeed
    · cases hcaught with
      | live place' version calls hfeed' =>
        cases hfeed
        exact hnew new hmem place none hfeed'
      | nothing => cases hfeed
  simp [Store.lists, hregistered]

/-- A list of an account that a lookup found is new, is given, and shows the calls of its user. -/
theorem ofList_spec (hr : earlier.resolved? user = some r) (hkept : earlier.Keeps store)
    (name : ListName) (only : Option ConversationId) :
    (CallSource.ofList r name only).IsNew ∧
      (∃ place, (CallSource.ofList r name only).feed = .live place none) ∧
      (CallSource.ofList r name only).IsRegistered store ∧
      CallSource.nowShown store (CallSource.ofList r name only) =
        (match only with
          | none => store.callsOf user name
          | some c => (store.callsOf user name).filter (·.conversationId == c)).map
            (earlier.entry user) := by
  obtain ⟨ref, hfind, rfl⟩ := Store.resolved?_eq_some hr
  have hnow := hkept user ref hfind
  refine ⟨⟨rfl, rfl, .inl ⟨(ref, name), rfl⟩⟩, ⟨(ref, name), rfl⟩, ?_, ?_⟩
  · rintro place seen ⟨⟩
    exact Store.isRegistered_of_find? hnow
  · rw [Store.callsOf_eq hnow]
    simp only [CallSource.nowShown, CallSource.ofList, Scope.listFeed, List.lookup_nil,
      Option.getD_none, Feed.subscribe]
    rcases (store.live (ref, name)).value with e | calls
    · cases only <;> rfl
    · cases only <;> rfl

theorem resolved?_of_hasValidSession {s : Store} (h : s.hasValidSession user = true) :
    ∃ r, s.resolved? user = some r := by
  rw [Store.hasValidSession, Store.accountOf?] at h
  rcases hfind : s.find? user with _ | ref
  · simp [hfind] at h
  · exact ⟨_, by rw [Store.resolved?, hfind]; rfl⟩

theorem nothing_spec (user : UserId) :
    (CallSource.nothing user).IsNew ∧ (CallSource.nothing user).IsRegistered store ∧
      CallSource.nowShown store (CallSource.nothing user) = [] :=
  ⟨⟨rfl, rfl, .inr rfl⟩, (by rintro place seen ⟨⟩), rfl⟩

/-- The source for the call to be answered. -/
theorem ofTarget_spec (hkept : earlier.Keeps store) (t : AnswerTarget) :
    (CallSource.ofTarget t (earlier.owner? t.userId)).IsNew ∧
      (CallSource.ofTarget t (earlier.owner? t.userId)).IsRegistered store ∧
      CallSource.nowShown store (CallSource.ofTarget t (earlier.owner? t.userId)) =
        if earlier.hasValidSession t.userId then
          ((store.callsOf t.userId .incoming).filter (·.conversationId == t.conversationId)).map
            (earlier.entry t.userId)
        else [] := by
  rcases hvalid : earlier.hasValidSession t.userId with _ | _
  · have howner : earlier.owner? t.userId = none := by simp [Store.owner?, hvalid]
    rw [howner]
    exact nothing_spec t.userId
  · obtain ⟨r, hr⟩ := resolved?_of_hasValidSession hvalid
    have howner : earlier.owner? t.userId = some r := by simp [Store.owner?, hvalid, hr]
    obtain ⟨hnew, -, hregistered, hshown⟩ := ofList_spec hr hkept .incoming (some t.conversationId)
    rw [howner]
    exact ⟨hnew, hregistered, hshown⟩

/-- What answers the call, or nothing. -/
theorem last_newSources_spec (hkept : earlier.Keeps store) (r : Resolved)
    (target : Option AnswerTarget) : ∃ last, newSources earlier r target =
      [.ofList r .established none, .ofList r .outgoing none, last] ∧ last.IsNew ∧
        last.IsRegistered store ∧ CallSource.nowShown store last =
          match target with
          | none => []
          | some t =>
            if earlier.hasValidSession t.userId then
              ((store.callsOf t.userId .incoming).filter (·.conversationId == t.conversationId)).map
                (earlier.entry t.userId)
            else [] := by
  rcases target with _ | t
  · exact ⟨_, rfl, nothing_spec r.userId⟩
  · exact ⟨_, rfl, ofTarget_spec hkept t⟩

theorem newSources_spec (hr : earlier.resolved? user = some r) (hkept : earlier.Keeps store)
    (target : Option AnswerTarget) :
    (∀ new ∈ newSources earlier r target, new.IsNew ∧ new.IsRegistered store) ∧
      (∃ new ∈ newSources earlier r target, ∃ place, new.feed = .live place none) ∧
      ((newSources earlier r target).map (CallSource.nowShown store)).flatten =
        store.candidates earlier user target := by
  obtain ⟨last, hlast, hnew, hregistered, hshown⟩ := last_newSources_spec hkept r target
  obtain ⟨hnew₁, hlive₁, hregistered₁, hshown₁⟩ := ofList_spec hr hkept .established none
  obtain ⟨hnew₂, -, hregistered₂, hshown₂⟩ := ofList_spec hr hkept .outgoing none
  rw [hlast]
  refine ⟨?_, ⟨_, List.mem_cons_self, hlive₁⟩, ?_⟩
  · simp only [List.forall_mem_cons]
    exact ⟨⟨hnew₁, hregistered₁⟩, ⟨hnew₂, hregistered₂⟩, ⟨hnew, hregistered⟩, by simp⟩
  · simp only [List.map_cons, List.map_nil, hshown₁, hshown₂, hshown, List.flatten_cons,
      List.flatten_nil, List.append_nil, Store.candidates, List.append_assoc]

end NewSources

end CallWatch
