import CallWatch.Proofs.Debounce
import CallWatch.Proofs.Engine.Convergence
import CallWatch.Proofs.Engine.Origins
import CallWatch.Proofs.Engine.Readings

/-! # Where notifications come from

Every notification that a pipeline sends was read since the pipeline took its last item about the
session: that item was a valid session, the account was found for it, and the call was in one of the
lists of that account. The one exception is a call to be answered, which comes from the incoming
calls of the account that is to answer it, found in the same way. Nothing of a session before
survives.

`Sourced ts p` says so of a pipeline in each of its phases, `ts` being its turns since that item. -/

namespace CallWatch

/-! ### What a pipeline knows -/

namespace Pipeline

open Turns

/-- The calls that a pipeline follows were set up for the session that it took last. -/
def Knows (ts : List Turn) (p : Pipeline) : Prop :=
  ∀ calls, p.calls = some calls → ∃ news, SetUp ts p.target news ∧
    List.Forall₂ (Derives ts) news calls

/-- What a pipeline has to show for what it is at. -/
def PhaseSourced (ts : List Turn) (p : Pipeline) : Prop :=
  match p.phase with
  | .spawned => p.calls = none
  | .watching => p.Knows ts
  | .resolving lookup => p.calls = none ∧ Opens ts lookup.user ∧ Enters ts lookup
  | .gathering g => p.calls = none ∧ (∃ user, Opens ts user ∧ Reads ts user g.session) ∧
      p.target = some g.target ∧ g.lookup.user = g.target.userId ∧ Enters ts g.lookup ∧
      Admits ts g.lookup
  | .sending result next => (next = .goOn → p.Knows ts) ∧
      ∀ n, result = .ok (.update n) → Warrants ts p.target n
  | .finished => True

/-- Everything that a pipeline shows comes from the session that it took last. -/
structure Sourced (ts : List Turn) (p : Pipeline) : Prop where
  sound : p.debounce.Sound
  phase : p.PhaseSourced ts

namespace Sourced

variable {ts : List Turn} {p p' : Pipeline}

theorem knows_of_none (h : p.calls = none) : p.Knows ts := fun calls hcalls => by
  rw [h] at hcalls
  cases hcalls

theorem new (ts : List Turn) (g : Nat) (target : Option AnswerTarget) (window : Nat) :
    (Pipeline.new g target window).Sourced ts :=
  ⟨.ofWindow window, rfl⟩

theorem knows_later (h : p.Knows ts) (t : Turn) : p.Knows (ts ++ [t]) := by
  intro calls hcalls
  obtain ⟨news, hnews, hderives⟩ := h calls hcalls
  exact ⟨news, hnews.later t, hderives.imp fun _ _ h => h.later t⟩

theorem watching (hs : p.debounce.Sound) (hp : p.phase = .watching) (hk : p.Knows ts) :
    p.Sourced ts :=
  ⟨hs, by simpa only [PhaseSourced, hp] using hk⟩

theorem fail (hs : p.debounce.Sound) (e : CallError) : (p.fail e).Sourced ts :=
  ⟨hs, by simp, by simp⟩

theorem emit {passed : Debounce × Option Decision} (hs : passed.1.Sound) (hk : p.Knows ts)
    (hw : ∀ n, passed.2 = some (.update n) → Warrants ts p.target n) :
    (p.emit passed).Sourced ts := by
  refine ⟨hs, ?_⟩
  rcases passed with ⟨debounce, _ | d⟩
  · exact hk
  · exact ⟨fun _ => hk, fun n hn => hw n (by cases hn; rfl)⟩

theorem offer (hs : p.debounce.Sound) (hk : p.Knows ts) {d : Decision} (now : Nat)
    (hw : ∀ n, d = .update n → Warrants ts p.target n) : (p.offer d now).Sourced ts :=
  emit (hs.offer d now) hk fun n hn => hw n (Debounce.eq_of_offer hn).symm

theorem fire (hs : p.debounce.Sound) (hk : p.Knows ts) (now : Nat) :
    (p.emit (p.debounce.fire now)).Sourced ts :=
  emit (hs.fire now) hk fun n hn => by cases hs.isStop_of_fire hn

theorem complete (hs : p.debounce.Sound) : p.complete.Sourced ts := by
  have hflush := hs.flush
  have hstop (d : Decision) : p.debounce.flush.2 = some d → d.isStop = true := hs.isStop_of_flush
  unfold Pipeline.complete
  rcases hf : p.debounce.flush with ⟨debounce, _ | d⟩
  · rw [hf] at hflush
    exact ⟨hflush, trivial⟩
  · rw [hf] at hflush hstop
    refine ⟨hflush, by simp, fun n hn => ?_⟩
    cases hn
    cases hstop _ rfl

theorem onGathered (hs : p.debounce.Sound)
    {result : Step Gathering (Except CallError (List CallSource))}
    (hon : ∀ g, result = .on g → (p.become (.gathering g)).PhaseSourced ts)
    (hdone : ∀ calls, result = .done (.ok calls) → SetUp ts p.target calls) :
    (p.onGathered result).Sourced ts := by
  rcases result with g | (e | calls)
  · exact ⟨hs, hon g rfl⟩
  · exact fail hs e
  · refine ⟨hs, ?_⟩
    rintro _ ⟨⟩
    exact ⟨calls, hdone calls rfl, (hdone calls rfl).derives⟩

/-- The calls of a session are set up once its account was read. -/
theorem start (hs : p.debounce.Sound) (hnone : p.calls = none) {user : UserId} {r : Resolved}
    (ho : Opens ts user) (hr : Reads ts user r) (s : Surroundings) :
    (p.onGathered (Gathering.start s r p.target)).Sourced ts := by
  rcases htarget : p.target with _ | target
  · refine onGathered hs (by simp [Gathering.start]) ?_
    rintro _ ⟨⟩
    exact .alone user r _ ho hr
  · simp only [Gathering.start, Lookup.ofUser]
    rcases ask_cases s target.userId .hasValidSession .validity with ⟨wait, heq⟩ | ⟨e, heq⟩
    · rw [heq]
      refine onGathered hs ?_ (by simp)
      rintro g ⟨⟩
      exact ⟨hnone, ⟨user, ho, hr⟩, htarget, rfl, by simp [Enters], .inl ⟨wait, rfl⟩⟩
    · rw [heq]
      exact fail hs e

/-- What comes of the account of a session being looked up. -/
theorem onResolved (hs : p.debounce.Sound) (hnone : p.calls = none) {user : UserId}
    (ho : Opens ts user) {result : Step Lookup LookupResult} (s : Surroundings)
    (hon : ∀ next, result = .on next → next.user = user ∧ Enters ts next)
    (hdone : ∀ r, result = .done (.ok (some r)) → Reads ts user r) :
    (p.onResolved s result).Sourced ts := by
  rcases result with next | (e | _ | r)
  · obtain ⟨huser, henters⟩ := hon next rfl
    exact ⟨hs, hnone, huser ▸ ho, henters⟩
  · exact fail hs e
  · exact offer hs (knows_of_none hnone) s.now (by simp)
  · exact start hs hnone ho (hdone r rfl) s

/-- What comes of an item about the session: nothing of the session before is left. -/
theorem onSession (hs : p.debounce.Sound) {t : Turn} {item : SessionItem}
    (ht : t.taken? = some item) (s : Surroundings) : (p.onSession s item).Sourced [t] := by
  have nobody : ({ p with calls := none }.offer (.stop .noValidSession) s.now).Sourced [t] :=
    offer (p := { p with calls := none }) hs (knows_of_none rfl) s.now (by simp)
  rcases item with e | _ | session
  · exact fail hs e
  · exact nobody
  · rcases hvalid : session.isValid with _ | _
    · simpa [Pipeline.onSession, Lookup.ofCurrent, hvalid, Pipeline.onResolved] using nobody
    · have hopens : Opens [t] session.userId := ⟨t, [], session, rfl, ht, hvalid, rfl⟩
      refine onResolved (p := { p with calls := none }) hs rfl hopens s ?_ ?_
      · intro next hnext
        simp only [Lookup.ofCurrent, hvalid, if_true, Lookup.ofSession] at hnext
        rcases ask_cases s session.userId .userScope .scope with ⟨wait, heq⟩ | ⟨e, heq⟩
        · rw [heq] at hnext
          cases hnext
          exact ⟨rfl, by simp [Enters]⟩
        · rw [heq] at hnext
          cases hnext
      · intro r hr
        simp only [Lookup.ofCurrent, hvalid, if_true, Lookup.ofSession] at hr
        rcases ask_cases s session.userId .userScope .scope with ⟨wait, heq⟩ | ⟨e, heq⟩ <;>
          rw [heq] at hr <;> cases hr

/-- What comes of a look at the calls. -/
theorem onCalls (hs : p.debounce.Sound) (hp : p.phase = .watching) (hk : p.Knows ts)
    {found : Combined} (hfound : ∀ all, found = .lists all → ∀ n ∈ all, Warrants ts p.target n)
    (s : Surroundings) : (p.onCalls s found).Sourced ts := by
  rcases found with all | e | _ | _
  · refine offer hs hk s.now fun n hn => hfound all rfl n ?_
    rcases all with _ | ⟨m, all⟩
    · cases hn
    · cases hn
      exact List.mem_cons_self
  · exact fail hs e
  · simp only [Pipeline.onCalls]
    split
    · exact complete (p := { p with calls := none }) hs
    · exact watching (p := { p with calls := none }) hs hp (knows_of_none rfl)
  · exact watching hs hp hk

/-- Every step of a pipeline keeps it sourced. -/
theorem steps {w : World} {happened : List Occurrence} {output : Option PipelineOutput}
    (h : p.Sourced ts) (hsteps : p.Steps w.surroundings w.engine.holds p' happened output) :
    p'.Sourced (History.sinceItemStep ts ⟨w, p⟩) := by
  set t : Turn := ⟨w, p⟩ with ht
  have hself : t ∈ ts ++ [t] := List.mem_append_right _ List.mem_cons_self
  have hphase := h.phase
  have quiet (hq : p.cancelled = true ∨ p.phase ≠ .watching ∨ p.SessionsQuiet w.surroundings) :
      History.sinceItemStep ts t = ts ++ [t] :=
    History.sinceItemStep_of_not_taken ts (taken?_eq_none hq)
  cases hsteps with
  | begin hp =>
    rw [quiet (.inr (.inl (by simp [hp])))]
    simp only [PhaseSourced, hp] at hphase
    exact ⟨h.sound, knows_of_none hphase⟩
  | abort hc => exact ⟨h.sound, trivial⟩
  | consume item feed feed' hc hp hsessions hn =>
    have htaken : t.taken? = some item := by
      simp [ht, Turn.taken?, taken?, hc, hp, hsessions, World.surroundings] at hn ⊢
      simp [hn]
    rw [History.sinceItemStep_of_taken ts htaken]
    exact onSession (p := { p with sessions := some feed' }) h.sound htaken w.surroundings
  | loseSession feed hc hp hsessions hn =>
    have htaken : t.taken? = none := by
      simp [ht, Turn.taken?, taken?, hc, hp, hsessions, hn]
    rw [History.sinceItemStep_of_not_taken ts htaken]
    simp only [PhaseSourced, hp] at hphase
    split
    · exact complete (p := { p with sessions := none }) h.sound
    · exact watching (p := { p with sessions := none }) h.sound hp (knows_later hphase t)
  | look calls found after hc hp hq hcalls hst hn =>
    rw [quiet (.inr (.inr hq))]
    simp only [PhaseSourced, hp] at hphase
    obtain ⟨news, hnews, hderives⟩ := hphase calls hcalls
    obtain ⟨hafter, hgives⟩ := poll_gives hself (hderives.imp fun _ _ h => h.later t) hn
    have hset := hnews.later t
    refine onCalls (p := { p with calls := some after }) h.sound hp ?_ (fun all hall n hmem => ?_) _
    · rintro _ ⟨⟩
      exact ⟨news, hset, hafter⟩
    · exact ⟨news, hset, hgives all hall n hmem⟩
  | fire hc hp hq =>
    rw [quiet (.inr (.inr hq))]
    simp only [PhaseSourced, hp] at hphase
    exact fire h.sound (knows_later hphase t) _
  | resolve lookup hc hp =>
    rw [quiet (.inr (.inl (by simp [hp])))]
    simp only [PhaseSourced, hp] at hphase
    obtain ⟨hnone, hopens, henters⟩ := hphase
    obtain ⟨hon, hdone⟩ := henters.step (t := t) hc (by simp [ht, lookup?, hp])
    exact onResolved h.sound hnone (hopens.later t) _
      (fun next hnext => ⟨(hon next hnext).1, (hon next hnext).2.1⟩) fun r hr => (hdone r hr).1
  | gather g hc hp =>
    rw [quiet (.inr (.inl (by simp [hp])))]
    simp only [PhaseSourced, hp] at hphase
    obtain ⟨hnone, ⟨user, hopens, hreads⟩, htarget, huser, henters, hadmits⟩ := hphase
    obtain ⟨hon, hdone⟩ := henters.step (t := t) hc (by simp [ht, lookup?, hp])
    rcases hstep : g.lookup.step w.surroundings with next | (e | _ | owner)
    · have hnext : (g.step w.surroundings [p.span]).1 = .on { g with lookup := next } := by
        simp [Gathering.step, hstep]
      obtain ⟨huser', henters', hadmits'⟩ := hon next hstep
      rw [hnext]
      exact ⟨h.sound, hnone, ⟨user, hopens.later t, hreads.later t⟩, htarget,
        huser'.trans huser, henters', hadmits' hadmits⟩
    · have hnext : (g.step w.surroundings [p.span]).1 = .done (.error e) := by
        simp [Gathering.step, hstep, Gathering.finish, Except.map]
      rw [hnext]
      exact fail h.sound e
    · have hnext : (g.step w.surroundings [p.span]).1 =
          .done (.ok (CallSource.ofSession g.session ++ [.nothing g.target.userId])) := by
        simp [Gathering.step, hstep, Gathering.finish, Except.map, CallSource.ofTarget]
      rw [hnext]
      refine onGathered h.sound (by simp) ?_
      rintro _ ⟨⟩
      exact .alone user _ _ (hopens.later t) (hreads.later t)
    · have hnext : (g.step w.surroundings [p.span]).1 = .done (.ok (CallSource.ofSession g.session ++
          [.ofList owner .incoming (some g.target.conversationId)])) := by
        simp [Gathering.step, hstep, Gathering.finish, Except.map, CallSource.ofTarget]
      obtain ⟨howner, hvalid⟩ := hdone owner hstep
      rw [hnext]
      refine onGathered h.sound (by simp) ?_
      rintro _ ⟨⟩
      exact .owned user _ g.target owner (hopens.later t) (hreads.later t) htarget
        (huser ▸ hvalid hadmits) (huser ▸ howner)
  | send result hc hp =>
    rw [quiet (.inr (.inl (by simp [hp])))]
    simp only [PhaseSourced, hp] at hphase
    exact watching (p := p.become .watching) h.sound rfl (knows_later (hphase.1 trivial) t)
  | sendLast => exact ⟨h.sound, trivial⟩
  | stay hp => exact ⟨h.sound, by simp [PhaseSourced, hp]⟩

end Sourced

end Pipeline

/-- A pipeline sends what it was about to send. -/
theorem Pipeline.Steps.sending_of_emitted {s : Surroundings} {held : AccountRef → Bool}
    {p p' : Pipeline} {happened : List Occurrence} {output : Option PipelineOutput}
    (h : p.Steps s held p' happened output) {g : Nat} {result : DecisionResult}
    (he : .emitted g result ∈ happened) :
    p.generation = g ∧ ∃ next, p.phase = .sending result next := by
  cases h with
  | send _ _ hp =>
    cases List.mem_singleton.mp he
    exact ⟨rfl, _, hp⟩
  | sendLast _ _ hp =>
    cases List.mem_singleton.mp he
    exact ⟨rfl, _, hp⟩
  | _ => simp at he

namespace World

open Turns

/-- Every pipeline is sourced by its turns since it took its last item about the session. -/
theorem Runs.sourced {config : EngineConfig} {admitted : World → Move → Prop} {h : History}
    {w : World} (hr : Runs admitted (new config) h w) :
    ∀ p ∈ w.engine.pipelines, p.Sourced (h.sinceItem p.generation) := by
  refine hr.keeps (I := fun h w => ∀ p ∈ w.engine.pipelines, p.Sourced (h.sinceItem p.generation))
    (by simp [new, Engine.new]) ?_
  clear hr h w
  intro h w m w' happened hr hi _ ha hstep
  have ho := hr.reached.orderly
  -- Other moves are no turn of any pipeline, and leave what it is at.
  have other (hm : ∀ g, m ≠ .go (.pipeline g)) (g : Nat) :
      History.sinceItem (h ++ [(w, m)]) g = h.sinceItem g := by
    refine History.sinceItem_of_no_turn h ?_
    unfold turn?
    split
    · exact absurd rfl (hm _)
    · rfl
  cases hstep with
  | outside _ e' _ hout =>
    intro p hp
    rw [other (by rintro g rfl; cases hout.isRequest)]
    refine hi p ?_
    cases hout <;> exact hp
  | control e' _ _ hcon =>
    intro q hq
    rw [other (by simp)]
    rcases hcon.mem_pipelines hq with ⟨p, hp, b, rfl⟩ | ⟨g, target, rfl⟩
    · exact ⟨(hi p hp).sound, (hi p hp).phase⟩
    · exact .new _ g target _
  | pipeline g p p' _ output hp _ hsteps =>
    intro q hq
    obtain ⟨rfl, -⟩ := ho.mem_advancePipeline hp hsteps.identity hq
    obtain ⟨hmem, rfl⟩ := Engine.pipeline?_mem hp
    have hgen : q.generation = p.generation := congrArg (·.1) hsteps.identity
    rw [hgen, History.sinceItem_of_turn h (t := ⟨w, p⟩) (by simp [turn?, hp])]
    exact (hi p hmem).steps hsteps
  | _ =>
    intro p hp
    rw [other (by simp)]
    exact hi p hp

/-- What is sent was about to be sent by the pipeline, in its turn. -/
theorem Moves.emitted {w w' : World} {m : Move} {happened : List Occurrence}
    (hstep : w.Moves m w' happened) {g : Nat} {result : DecisionResult}
    (he : .emitted g result ∈ happened) :
    ∃ p ∈ w.engine.pipelines, p.generation = g ∧ ∃ next, p.phase = .sending result next := by
  cases hstep with
  | outside _ e' _ hout => cases hout <;> simp at he
  | control e' _ _ hcon => cases hcon <;> simp at he
  | pipeline g' p p' _ output hp _ hsteps =>
    obtain ⟨rfl, next, hphase⟩ := hsteps.sending_of_emitted he
    exact ⟨p, (Engine.pipeline?_mem hp).1, rfl, next, hphase⟩
  | _ => simp at he

/-- **Accounts are not mixed.** Whenever a pipeline sends an update, the last item that it took about
the session was a valid session, and its account was read for that item: where it stands, and then
the name that it goes by. The update shows either a call that the established or the outgoing list of
that account has offered since, under that user and that name; or, if the pipeline was begun to
answer a call, a call of that conversation that the incoming list of the account that is to answer
has offered since, under that user and its name, both read since, after the user was found to have a
valid session. Nothing that was read before that item is shown. -/
theorem Runs.updates_unmixed {config : EngineConfig} {admitted : World → Move → Prop} {h : History}
    {w : World} (hr : Runs admitted (new config) h w) {m : Move} (ha : w.allows m = true) {g : Nat}
    {n : Notification} (he : .emitted g (.ok (.update n)) ∈ w.occurrences m) :
    ∃ first rest session r, h.sinceItem g = first :: rest ∧
      first.taken? = some (.ok (some session)) ∧ (∀ t ∈ rest, t.taken? = none) ∧
      session.isValid = true ∧ Reads (h.sinceItem g) session.userId r ∧
      ((n.userId = session.userId ∧ n.displayName = r.displayName ∧
          ∃ name, (name = .established ∨ name = .outgoing) ∧
            Offers (h.sinceItem g) (r.scope.listFeed name) n.call) ∨
        ∃ owner, w.chronicle.BeganFor g (.answerCall n.userId n.call.conversationId) ∧
          Validates (h.sinceItem g) n.userId ∧ Reads (h.sinceItem g) n.userId owner ∧
          n.displayName = owner.displayName ∧
          Offers (h.sinceItem g) (owner.scope.listFeed .incoming) n.call) := by
  obtain ⟨p, hmem, rfl, next, hphase⟩ := (moves ha).emitted he
  have hsourced := (hr.sourced p hmem).phase
  simp only [Pipeline.PhaseSourced, hphase] at hsourced
  obtain ⟨news, hnews, new, hnew, hgives⟩ := hsourced.2 n rfl
  obtain ⟨how, hbegan, htarget⟩ := hr.reached.originates.pipelines p hmem
  obtain ⟨user, r, ⟨first, rest, session, hts, htaken, hvalid, rfl⟩, hreads, hshown⟩ :=
    hnews.gives hnew hgives
  refine ⟨first, rest, session, r, hts, htaken,
    fun t ht => History.taken?_of_mem_sinceItem hts ht, hvalid, hreads, hshown.imp_right ?_⟩
  rintro ⟨owner, heq, hshown⟩
  rw [htarget] at heq
  refine ⟨owner, ?_, hshown⟩
  rcases how with _ | ⟨user, conversation⟩
  · cases heq
  · cases heq
    exact hbegan

/-- A start with a call that is established, up to where its notification is to be sent. -/
def established : List Move :=
  [.store (.register alice), .store (.account 0 (.list .established (.ok [ringing]))),
    .store (.session (.ok (some (.valid alice.id)))), .start, .submit (.start .default),
    .go .controller] ++ List.replicate 5 (.go (.pipeline 1))

theorem updates_unmixed_established :
    Runs anyMove (new default) ((new default).history established)
        ((new default).run established) ∧
      .emitted 1 (.ok (.update ⟨alice.id, ringing, "alice"⟩)) ∈
        ((new default).run established).occurrences (.go (.pipeline 1)) ∧
      ∃ (session : Session) (r : Resolved), session.isValid = true ∧
        Reads (((new default).history established).sinceItem 1) session.userId r := by
  have hr : Runs anyMove (new default) ((new default).history established)
      ((new default).run established) := runs_run (fun _ _ => trivial) (by decide)
  have he : .emitted 1 (.ok (.update ⟨alice.id, ringing, "alice"⟩)) ∈
      ((new default).run established).occurrences (.go (.pipeline 1)) :=
    List.mem_singleton.mpr rfl
  obtain ⟨-, -, session, r, -, -, -, hvalid, hreads, -⟩ := hr.updates_unmixed (by decide) he
  exact ⟨hr, he, session, r, hvalid, hreads⟩

end World

end CallWatch
