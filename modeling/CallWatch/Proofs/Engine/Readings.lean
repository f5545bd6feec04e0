import CallWatch.Proofs.Engine.Sources
import CallWatch.Proofs.History

/-! # What some turns of a pipeline read

The turns of a pipeline since it took an item about the session say where everything comes from that
it holds: `Reads` of the account that it looked up, `SetUp` of the sources that it began with,
`Derives` of what became of a source since then, and `Warrants` of a notification. More turns change
none of this, and whatever a look at the sources shows is warranted by the turns, the one of the look
included. -/

namespace CallWatch

namespace Pipeline

/-- The lookup that a pipeline waits for. -/
def lookup? (p : Pipeline) : Option Lookup :=
  match p.phase with
  | .resolving lookup => some lookup
  | .gathering g => some g.lookup
  | _ => none

/-- The account that a pipeline finds next. -/
def found? (s : Surroundings) (p : Pipeline) : Option Resolved :=
  match p.cancelled, p.lookup? with
  | false, some lookup =>
    match lookup.step s with
    | .done (.ok found) => found
    | _ => none
  | _, _ => none

end Pipeline

/-- The account that the pipeline finds. -/
def Turn.found? (t : Turn) : Option Resolved := t.pipeline.found? t.world.surroundings

namespace Turns

/-! ### What was read in some turns -/

/-- The first of these turns took a valid session of this user. -/
def Opens (ts : List Turn) (user : UserId) : Prop :=
  ∃ first rest session, ts = first :: rest ∧ first.taken? = some (.ok (some session)) ∧
    session.isValid = true ∧ session.userId = user

/-- A user was found to have a valid session. -/
def Validates (ts : List Turn) (user : UserId) : Prop :=
  ∃ t ∈ ts, t.world.store.hasValidSession user = true

/-- The account of a user was found: first where it stands, then the name that it goes by. -/
structure Reads (ts : List Turn) (user : UserId) (r : Resolved) : Prop where
  userId : r.userId = user
  entered : ∃ t ∈ ts, t.world.surroundings.scope user = .ok r.scope
  named : ∃ t ∈ ts, t.found? = some r ∧
    r.displayName = t.world.surroundings.displayName r.scope.account

/-- A feed of a list offered a call. -/
def Offers (ts : List Turn) : ListFeed → Call → Prop
  | .live place _, call =>
    ∃ t ∈ ts, ∃ calls, (t.world.store.live place).value = .ok calls ∧ call ∈ calls
  | .script items, call => ∃ calls, .ok calls ∈ items ∧ call ∈ calls
  | .silent, _ => False

/-- A source, as it was set up, gives a notification: a call that its feed offered, shown under the
account of the source. -/
def Gives (ts : List Turn) (new : CallSource) (n : Notification) : Prop :=
  n.userId = new.userId ∧ n.displayName = new.displayName ∧
    (∀ c, new.only = some c → n.call.conversationId = c) ∧ Offers ts new.feed n.call

/-- What is left of a feed after some looks at it. -/
def Remains : ListFeed → ListFeed → Prop
  | .live place _, .live place' _ => place' = place
  | .script items, .script items' => ∀ x ∈ items', x ∈ items
  | .silent, .silent => True
  | _, _ => False

/-- A source after some looks at it: it shows nothing but what it was set up to give. -/
structure Derives (ts : List Turn) (new s : CallSource) : Prop where
  userId : s.userId = new.userId
  displayName : s.displayName = new.displayName
  only : s.only = new.only
  feed : Remains new.feed s.feed
  latest : ∀ shown, s.latest = some shown → ∀ n ∈ shown, Gives ts new n

/-- The sources that are set up for the session of the first turn. -/
inductive SetUp (ts : List Turn) (target : Option AnswerTarget) : List CallSource → Prop
  /-- Those of its account alone. -/
  | alone (user r other) (ho : Opens ts user) (hr : Reads ts user r) :
      SetUp ts target (CallSource.ofSession r ++ [.nothing other])
  /-- Those of its account, and that of the account that is to answer a call. -/
  | owned (user r t owner) (ho : Opens ts user) (hr : Reads ts user r) (ht : target = some t)
      (hv : Validates ts t.userId) (hown : Reads ts t.userId owner) :
      SetUp ts target
        (CallSource.ofSession r ++ [.ofList owner .incoming (some t.conversationId)])

/-- A notification comes from the sources that are set up for the session of the first turn. -/
def Warrants (ts : List Turn) (target : Option AnswerTarget) (n : Notification) : Prop :=
  ∃ news, SetUp ts target news ∧ ∃ new ∈ news, Gives ts new n

/-! ### Later turns -/

section Later

variable {ts : List Turn} (t : Turn)

theorem Opens.later {user : UserId} (h : Opens ts user) : Opens (ts ++ [t]) user := by
  obtain ⟨first, rest, session, rfl, h⟩ := h
  exact ⟨first, rest ++ [t], session, rfl, h⟩

theorem Reads.later {user : UserId} {r : Resolved} (h : Reads ts user r) :
    Reads (ts ++ [t]) user r :=
  ⟨h.userId, exists_later t h.entered, exists_later t h.named⟩

theorem Offers.later {feed : ListFeed} {call : Call} (h : Offers ts feed call) :
    Offers (ts ++ [t]) feed call := by
  rcases feed with ⟨place, seen⟩ | items | _
  · exact exists_later t h
  · exact h
  · exact h

theorem Gives.later {new : CallSource} {n : Notification} (h : Gives ts new n) :
    Gives (ts ++ [t]) new n :=
  ⟨h.1, h.2.1, h.2.2.1, h.2.2.2.later t⟩

theorem Derives.later {new s : CallSource} (h : Derives ts new s) : Derives (ts ++ [t]) new s :=
  ⟨h.userId, h.displayName, h.only, h.feed, fun shown hs n hn => (h.latest shown hs n hn).later t⟩

theorem SetUp.later {target : Option AnswerTarget} {news : List CallSource}
    (h : SetUp ts target news) : SetUp (ts ++ [t]) target news := by
  cases h with
  | alone user r other ho hr => exact .alone user r other (ho.later t) (hr.later t)
  | owned user r target owner ho hr ht hv hown =>
    exact .owned user r target owner (ho.later t) (hr.later t) ht (exists_later t hv)
      (hown.later t)

theorem Warrants.later {target : Option AnswerTarget} {n : Notification}
    (h : Warrants ts target n) : Warrants (ts ++ [t]) target n := by
  obtain ⟨news, hnews, new, hmem, hgives⟩ := h
  exact ⟨news, hnews.later t, new, hmem, hgives.later t⟩

end Later

/-! ### Sources as they are set up -/

theorem Remains.refl (feed : ListFeed) : Remains feed feed := by
  rcases feed with ⟨place, seen⟩ | items | _
  · exact rfl
  · exact fun _ h => h
  · trivial

theorem Derives.refl {ts : List Turn} {new : CallSource} (h : new.latest = none) :
    Derives ts new new :=
  ⟨rfl, rfl, rfl, .refl _, fun shown hs => by rw [h] at hs; cases hs⟩

theorem SetUp.derives {ts : List Turn} {target : Option AnswerTarget} {news : List CallSource}
    (h : SetUp ts target news) : List.Forall₂ (Derives ts) news news := by
  have hnew (new : CallSource) (hmem : new ∈ news) : new.latest = none := by
    cases h with
    | alone user r other =>
      simp only [CallSource.ofSession, List.cons_append, List.nil_append, List.mem_cons,
        List.not_mem_nil, or_false] at hmem
      rcases hmem with rfl | rfl | rfl <;> rfl
    | owned user r target owner =>
      simp only [CallSource.ofSession, List.cons_append, List.nil_append, List.mem_cons,
        List.not_mem_nil, or_false] at hmem
      rcases hmem with rfl | rfl | rfl <;> rfl
  exact List.forall₂_same.mpr fun new hmem => .refl (hnew new hmem)

/-! ### A look at the sources -/

/-- After a look a source shows what it showed before, or a list that was there to be taken. -/
def Took (s after : Source) : Prop :=
  after.latest = s.latest ∨ ∃ l, .ok l ∈ s.inbox.ready ∧ after.latest = some l

theorem mem_splitFailure {l : List Notification} {ready : List CallList}
    (h : l ∈ (Source.splitFailure ready).1) : .ok l ∈ ready := by
  induction ready with
  | nil => cases h
  | cons x rest ih =>
    rcases x with e | l'
    · cases h
    · rcases List.mem_cons.mp h with rfl | h
      · exact List.mem_cons_self
      · exact List.mem_cons_of_mem _ (ih h)

theorem took_drain (changed : Bool) (s : Source) : Took s (Combined.drain changed s).2 := by
  simp only [Combined.drain]
  split
  · exact .inl rfl
  · have hlatest : ((Source.splitFailure s.inbox.ready).1.getLast? <|> s.latest) = s.latest ∨
        ∃ l, .ok l ∈ s.inbox.ready ∧
          ((Source.splitFailure s.inbox.ready).1.getLast? <|> s.latest) = some l := by
      rcases hlast : (Source.splitFailure s.inbox.ready).1.getLast? with _ | l
      · exact .inl rfl
      · exact .inr ⟨l, mem_splitFailure (List.mem_of_getLast? hlast), rfl⟩
    split <;> exact hlatest

theorem took_drainAll (changed : Bool) (sources : List Source) :
    List.Forall₂ Took sources (Combined.drainAll changed sources).2 := by
  have same (l : List Source) : List.Forall₂ Took l l :=
    List.forall₂_same.mpr fun _ _ => .inl rfl
  induction sources generalizing changed with
  | nil => exact .nil
  | cons s rest ih =>
    have hdrain := took_drain changed s
    rw [Combined.drainAll]
    split
    · next heq =>
      rw [heq] at hdrain
      exact .cons hdrain (ih _)
    · next heq =>
      rw [heq] at hdrain
      exact .cons hdrain (same rest)

theorem took_poll (sources : List Source) :
    List.Forall₂ Took sources (Combined.poll sources).2 := by
  have h := took_drainAll false sources
  rw [Combined.poll]
  split
  · next heq => rwa [heq] at h
  · next heq => rwa [heq] at h
  · next heq =>
    rw [heq] at h
    split
    · exact h
    · split <;> exact h

/-- What a look finds is what the sources show after it. -/
theorem lists_poll {sources : List Source} {all : List Notification}
    (h : (Combined.poll sources).1 = .lists all) :
    all = Combined.joined (Combined.poll sources).2 := by
  rcases hdrain : Combined.drainAll false sources with ⟨changed | e | _, after⟩
  · by_cases hall : (changed && after.all (·.latest.isSome)) = true
    · have heq : Combined.poll sources = (.lists (Combined.joined after), after) := by
        simp only [Combined.poll, hdrain, hall, if_true]
      rw [heq] at h ⊢
      cases h
      rfl
    · simp only [Combined.poll, hdrain, hall] at h
      by_cases hended : after.all (·.ended) = true <;> simp [hended] at h
  · simp [Combined.poll, hdrain] at h
  · simp [Combined.poll, hdrain] at h

theorem Remains.leave {new feed : ListFeed} (h : Remains new feed)
    (board : Board (AccountRef × ListName) Listing) (left : Nat) :
    Remains new (feed.leave board left) := by
  rcases new with ⟨place, seen⟩ | items | _ <;> rcases feed with ⟨place', seen'⟩ | items' | _
  all_goals first | exact absurd h id | skip
  · rw [Feed.leave]
    split <;> exact h
  · exact fun x hx => h x (List.mem_of_mem_drop hx)
  · trivial

/-- What a source shows of a list that is there to be taken, it was set up to give. -/
theorem gives_of_ready {ts : List Turn} {t : Turn} (ht : t ∈ ts) {held : AccountRef → Bool}
    {new s : CallSource} (h : Derives ts new s) {shown : List Notification}
    (hready : .ok shown ∈ (s.load (t.world.store.lists held)).inbox.ready) {n : Notification}
    (hn : n ∈ shown) : Gives ts new n := by
  obtain ⟨calls, hcalls, rfl⟩ :
      ∃ calls, .ok calls ∈ (s.feed.inbox (t.world.store.lists held)).ready ∧
        shown = s.shown calls := by
    obtain ⟨listing, hmem, heq⟩ := List.mem_map.mp hready
    rcases listing with e | calls
    · cases heq
    · cases heq
      exact ⟨calls, hmem, rfl⟩
  obtain ⟨call, hcall, rfl⟩ := List.mem_map.mp hn
  have honly : (∀ c, s.only = some c → call.conversationId = c) ∧ call ∈ calls := by
    rcases hs : s.only with _ | c
    · rw [hs] at hcall
      exact ⟨by simp, hcall⟩
    · rw [hs] at hcall
      obtain ⟨hmem, heq⟩ := List.mem_filter.mp hcall
      exact ⟨by rintro _ ⟨⟩; simpa using heq, hmem⟩
  refine ⟨h.userId, h.displayName, h.only ▸ honly.1, ?_⟩
  have hfeed := h.feed
  generalize new.feed = feed at hfeed ⊢
  rcases feed with ⟨place, seen⟩ | items | _ <;> rcases hs : s.feed with ⟨place', seen'⟩ | items' | _
  all_goals rw [hs] at hfeed hcalls
  all_goals first | exact absurd hfeed id | skip
  · obtain rfl : place' = place := hfeed
    refine ⟨t, ht, calls, ?_, honly.2⟩
    simp only [Feed.inbox, Live.inbox] at hcalls
    split at hcalls
    · cases hcalls
    · exact (List.mem_singleton.mp hcalls).symm
  · exact ⟨calls, hfeed _ hcalls, honly.2⟩
  · cases hcalls

/-- A source after a look shows nothing but what it was set up to give. -/
theorem Derives.look {ts : List Turn} {t : Turn} (ht : t ∈ ts) {held : AccountRef → Bool}
    {new s : CallSource} (h : Derives ts new s) {after : Source}
    (htook : Took (s.load (t.world.store.lists held)) after) :
    Derives ts new (s.store (t.world.store.lists held) after) := by
  refine ⟨h.userId, h.displayName, h.only, ?_, fun shown hs n hn => ?_⟩
  · rw [CallSource.store]
    split
    · exact h.feed
    · exact h.feed.leave _ _
  · rcases htook with hsame | ⟨l, hready, hl⟩
    · exact h.latest shown (hsame.symm.trans hs) n hn
    · rw [hl.symm.trans hs |> Option.some.inj] at hready
      exact gives_of_ready ht h hready hn

/-- The sources after a look still show nothing but what they were set up to give. -/
theorem derives_look {ts : List Turn} {t : Turn} (ht : t ∈ ts) {held : AccountRef → Bool}
    {news sources : List CallSource} (h : List.Forall₂ (Derives ts) news sources)
    {after : List Source}
    (htook : List.Forall₂ Took (sources.map (·.load (t.world.store.lists held))) after) :
    List.Forall₂ (Derives ts) news
      (CallSource.storeAll (t.world.store.lists held) sources after) := by
  induction h generalizing after with
  | nil => exact .nil
  | cons hr _ ih =>
    cases htook with
    | cons ha hrest => exact .cons (hr.look ht ha) (ih hrest)

/-- **What a look at the calls finds** comes from what was set up. -/
theorem poll_gives {ts : List Turn} {t : Turn} (ht : t ∈ ts) {held : AccountRef → Bool}
    {news sources after : List CallSource} {found : Combined}
    (h : List.Forall₂ (Derives ts) news sources)
    (hpoll : CallSource.poll (t.world.store.lists held) sources = (found, after)) :
    List.Forall₂ (Derives ts) news after ∧
      ∀ all, found = .lists all → ∀ n ∈ all, ∃ new ∈ news, Gives ts new n := by
  have htook := took_poll (sources.map (·.load (t.world.store.lists held)))
  rcases hp : Combined.poll (sources.map (·.load (t.world.store.lists held))) with ⟨found', after'⟩
  rw [hp] at htook
  rw [CallSource.poll, hp] at hpoll
  cases hpoll
  have hderives := derives_look ht h htook
  refine ⟨hderives, fun all hfound n hn => ?_⟩
  subst hfound
  have hall : all = Combined.joined (Combined.poll
      (sources.map (·.load (t.world.store.lists held)))).2 := lists_poll (congrArg Prod.fst hp)
  rw [hp] at hall
  rw [hall, Combined.joined] at hn
  obtain ⟨shown, hshown, hn⟩ := List.mem_flatten.mp hn
  obtain ⟨a, ha, hlatest⟩ := List.mem_filterMap.mp hshown
  have hlength : after'.length = sources.length := by simpa using htook.length_eq.symm
  have hmem : a.latest ∈ (CallSource.storeAll (t.world.store.lists held) sources after').map
      (·.latest) := by
    rw [CallSource.latest_storeAll _ hlength]
    exact List.mem_map_of_mem ha
  obtain ⟨s, hs, heq⟩ := List.mem_map.mp hmem
  obtain ⟨new, hnew, hderive⟩ := exists_of_mem_right hderives hs
  exact ⟨new, hnew, hderive.latest shown (heq.trans hlatest) n hn⟩

/-- **What is set up for a session gives** calls of its account, or those that an account is to
answer. -/
theorem SetUp.gives {ts : List Turn} {target : Option AnswerTarget} {news : List CallSource}
    (h : SetUp ts target news) {new : CallSource} (hnew : new ∈ news) {n : Notification}
    (hn : Gives ts new n) :
    ∃ user r, Opens ts user ∧ Reads ts user r ∧
      ((n.userId = user ∧ n.displayName = r.displayName ∧
          ∃ name, (name = .established ∨ name = .outgoing) ∧
            Offers ts (r.scope.listFeed name) n.call) ∨
        ∃ owner, target = some ⟨n.userId, n.call.conversationId⟩ ∧ Validates ts n.userId ∧
          Reads ts n.userId owner ∧ n.displayName = owner.displayName ∧
          Offers ts (owner.scope.listFeed .incoming) n.call) := by
  obtain ⟨huser, hname, honly, hoffers⟩ := hn
  have own {user : UserId} {r : Resolved} (hr : Reads ts user r) (name : ListName)
      (heq : new = .ofList r name none) :
      n.userId = user ∧ n.displayName = r.displayName ∧
        Offers ts (r.scope.listFeed name) n.call := by
    subst heq
    exact ⟨huser.trans hr.userId, hname, hoffers⟩
  have ofSession {user : UserId} {r : Resolved} (hr : Reads ts user r)
      (hmem : new ∈ CallSource.ofSession r) :
      n.userId = user ∧ n.displayName = r.displayName ∧
        ∃ name, (name = .established ∨ name = .outgoing) ∧
          Offers ts (r.scope.listFeed name) n.call := by
    simp only [CallSource.ofSession, List.mem_cons, List.not_mem_nil, or_false] at hmem
    rcases hmem with heq | heq
    · obtain ⟨hu, hd, ho⟩ := own hr _ heq
      exact ⟨hu, hd, _, .inl rfl, ho⟩
    · obtain ⟨hu, hd, ho⟩ := own hr _ heq
      exact ⟨hu, hd, _, .inr rfl, ho⟩
  cases h with
  | alone user r other ho hr =>
    rcases List.mem_append.mp hnew with hmem | hmem
    · exact ⟨user, r, ho, hr, .inl (ofSession hr hmem)⟩
    · obtain rfl := List.mem_singleton.mp hmem
      obtain ⟨calls, hcalls, hcall⟩ := hoffers
      cases List.mem_singleton.mp hcalls
      cases hcall
  | owned user r t owner ho hr ht hv hown =>
    rcases List.mem_append.mp hnew with hmem | hmem
    · exact ⟨user, r, ho, hr, .inl (ofSession hr hmem)⟩
    · obtain rfl := List.mem_singleton.mp hmem
      have hu : n.userId = t.userId := huser.trans hown.userId
      have hc : n.call.conversationId = t.conversationId := honly _ rfl
      refine ⟨user, r, ho, hr, .inr ⟨owner, ?_, hu ▸ hv, hu ▸ hown, hname, hoffers⟩⟩
      rw [ht, hu, hc]

/-! ### Lookups -/

/-- A lookup that asked for a name had found the account. -/
def Enters (ts : List Turn) (l : Lookup) : Prop :=
  ∀ scope wait, l.stage = .name scope wait → ∃ t ∈ ts, t.world.surroundings.scope l.user = .ok scope

/-- A lookup that asked more than whether the session holds was told that it does. -/
def Admits (ts : List Turn) (l : Lookup) : Prop :=
  (∃ wait, l.stage = .validity wait) ∨ Validates ts l.user

theorem ask_cases (s : Surroundings) (user : UserId) (q : Question) (stage : Wait → LookupStage) :
    (∃ wait, Lookup.ask s user q stage = .on ⟨user, stage wait⟩) ∨
      ∃ e, Lookup.ask s user q stage = .done (.error e) := by
  unfold Lookup.ask
  split
  · exact .inl ⟨_, rfl⟩
  · exact .inr ⟨_, rfl⟩

/-- What a lookup has found so far is kept when it goes on, and what it comes to was read. -/
theorem Enters.step {ts : List Turn} {t : Turn} {l : Lookup} (h : Enters ts l)
    (hc : t.pipeline.cancelled = false) (hl : t.pipeline.lookup? = some l) :
    (∀ next, l.step t.world.surroundings = .on next → next.user = l.user ∧
      Enters (ts ++ [t]) next ∧ (Admits ts l → Admits (ts ++ [t]) next)) ∧
    ∀ r, l.step t.world.surroundings = .done (.ok (some r)) → Reads (ts ++ [t]) l.user r ∧
      (Admits ts l → Validates (ts ++ [t]) l.user) := by
  have hself : t ∈ ts ++ [t] := List.mem_append_right _ List.mem_cons_self
  rcases hs : l.stage with wait | wait | ⟨scope, wait⟩
  · simp only [Lookup.step, hs]
    split
    · next hvalid =>
      rcases ask_cases t.world.surroundings l.user .userScope .scope with ⟨wait', heq⟩ | ⟨e, heq⟩
      · rw [heq]
        refine ⟨?_, by simp⟩
        rintro next ⟨⟩
        exact ⟨rfl, by simp [Enters], fun _ => .inr ⟨t, hself, hvalid⟩⟩
      · rw [heq]
        simp
    · simp
  · simp only [Lookup.step, hs]
    have hadmits (hadmits : Admits ts l) : Validates ts l.user :=
      hadmits.resolve_left (by simp [hs])
    rcases hscope : t.world.surroundings.scope l.user with e | scope
    · simp
    · simp only
      rcases ask_cases t.world.surroundings l.user .selfUser (.name scope) with
        ⟨wait', heq⟩ | ⟨e, heq⟩
      · rw [heq]
        refine ⟨?_, by simp⟩
        rintro next ⟨⟩
        refine ⟨rfl, ?_, fun h => .inr (exists_later t (hadmits h))⟩
        rintro _ _ ⟨⟩
        exact ⟨t, hself, hscope⟩
      · rw [heq]
        simp
  · have hstep : l.step t.world.surroundings = .done (.ok (some ⟨l.user, scope,
        t.world.surroundings.displayName scope.account⟩)) := by simp [Lookup.step, hs]
    rw [hstep]
    refine ⟨by simp, ?_⟩
    rintro r ⟨⟩
    refine ⟨⟨rfl, exists_later t (h scope wait hs), t, hself, ?_, rfl⟩, fun h => ?_⟩
    · simp [Turn.found?, Pipeline.found?, hc, hl, hstep]
    · exact exists_later t (h.resolve_left (by simp [hs]))

end Turns

end CallWatch
