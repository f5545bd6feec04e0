import CallWatch.Proofs.Engine.Delivery
import CallWatch.Proofs.Engine.Following

/-! # The engine converges to the store

However a run goes, once nothing is left to be taken, what stands in the slot is what the store stands
for, as far as the action that was processed last is a start whose pipeline did not fail; a stop may
still be held back.

This takes one invariant along the run, `Tracks`: the pipeline knows the store (`Follows`), its
debounce is sound, and the engine delivers what passes the debounce (`Delivers`). -/

namespace CallWatch

open Chronicle

namespace Pipeline

variable {now : Nat} {store : Store} {c : Chronicle} {p p' : Pipeline}

theorem Follows.endsByFailure (h : p.Follows now store c) : p.EndsByFailure := by
  intro result next hp
  simp only [Follows, hp] at h
  rcases result with e | d <;> rcases next with _ | _
  · exact h.elim
  · exact .inr ⟨e, rfl, rfl⟩
  · exact .inl ⟨d, rfl, rfl⟩
  · exact h.elim

/-- The debounce is tuned and sound, and holds nothing back for longer than its window. -/
structure Tempered (window now : Nat) (p : Pipeline) : Prop where
  tuning : p.debounce.window = window
  sound : p.debounce.Sound
  dueBy : p.debounce.DueBy now

theorem Tempered.new (g : Nat) (target : Option AnswerTarget) (w now : Nat) :
    (Pipeline.new g target w).Tempered (min w Debounce.maxWindow) now :=
  ⟨rfl, .ofWindow w, fun _ _ h => (by cases h)⟩

theorem Tempered.steps {window : Nat} {happened : List Occurrence}
    {output : Option PipelineOutput} (h : p.Tempered window now)
    (hstep : p.Weighs now p' happened output) : p'.Tempered window now := by
  have kept (hdebounce : p'.debounce = p.debounce) : p'.Tempered window now :=
    ⟨hdebounce ▸ h.tuning, hdebounce ▸ h.sound, hdebounce ▸ h.dueBy⟩
  cases hstep with
  | offer d _ _ _ _ _ hdebounce =>
    replace hdebounce : p'.debounce = (p.debounce.offer d now).1 := hdebounce
    refine ⟨?_, ?_, ?_⟩ <;> rw [hdebounce]
    · rw [Debounce.window_offer, h.tuning]
    · exact h.sound.offer d now
    · exact h.dueBy.offer d
  | fire _ _ _ hp =>
    have hdebounce : p'.debounce = (p.debounce.fire now).1 := hp ▸ rfl
    refine ⟨?_, ?_, ?_⟩ <;> rw [hdebounce]
    · rw [Debounce.window_fire, h.tuning]
    · exact h.sound.fire now
    · exact h.dueBy.fire
  | send _ _ _ _ _ hdebounce => exact kept hdebounce
  | leave _ _ _ hdebounce => exact kept hdebounce
  | quit _ _ _ hdebounce => exact kept hdebounce

/-- **A pipeline that has no news watches and finds nothing new.** -/
theorem watching_of_hasNews_eq_false {s : Surroundings} {held : AccountRef → Bool}
    (h : p.Follows s.now store c) (hp : p.phase ≠ .finished)
    (hnews : p.hasNews s held true = false) :
    p.phase = .watching ∧ p.Watches store c ∧
      p.sessions.any (fun f => (f.inbox s.store.sessions).stirs) = false ∧
      p.calls.any (CallSource.stirs (s.store.lists held)) = false := by
  rw [hasNews] at hnews
  rcases hphase : p.phase with _ | _ | l | g | _ | _
  · simp [isReady, hphase] at hnews
  · simp only [isReady, hphase, Bool.or_eq_false_iff] at hnews
    obtain ⟨⟨⟨-, hsessions⟩, hcalls⟩, -⟩ := hnews
    exact ⟨rfl, by simpa only [Follows, hphase] using h, hsessions, hcalls⟩
  · simp only [Follows, hphase] at h
    obtain ⟨session, earlier, -, -, -, hway⟩ := h.seen
    simp only [isReady, hphase, Bool.or_eq_false_iff] at hnews
    cases hway.isOver.symm.trans hnews.2
  · simp only [Follows, hphase] at h
    obtain ⟨session, earlier, user, -, -, -, -, -, -, hway⟩ := h.seen
    simp only [isReady, hphase, Bool.or_eq_false_iff] at hnews
    cases hway.isOver.symm.trans hnews.2
  · simp [isReady, hphase] at hnews
  · exact absurd hphase hp

end Pipeline

namespace World

/-- Runs over a store that answers at once and truly. It leaves no pause within a lookup, so nothing
that one asks changes while it is on its way, whatever else happens. The engine is not told to end,
and nobody is registered twice. -/
def storeMoves (w : World) (m : Move) : Prop :=
  m ≠ .stop ∧ m ≠ .release ∧ (∀ arrangement, m ≠ .arrange arrangement) ∧
    (∀ u, m = .store (.register u) → w.store.find? u.id = none) ∧
    ∀ change, m = .store change → change.isTold = true →
      ∀ p ∈ w.engine.pipelines, p.isLookingUp = false

/-- The engine keeps track of the store. -/
structure Tracks (config : EngineConfig) (w : World) : Prop where
  arrangement : w.arrangement = .none
  live : ∀ p ∈ w.engine.pipelines, p.FollowsLive
  follows : ∀ p ∈ w.engine.pipelines, p.Follows w.now w.store w.chronicle
  tempered : ∀ p ∈ w.engine.pipelines,
    p.Tempered (min config.stopDebounce Debounce.maxWindow) w.now
  delivers : w.engine.Delivers w.chronicle

namespace Tracks

variable {config : EngineConfig} {w : World}

theorem new (config : EngineConfig) : (World.new config).Tracks config where
  arrangement := rfl
  live := by simp [World.new, Engine.new]
  follows := by simp [World.new, Engine.new]
  tempered := by simp [World.new, Engine.new]
  delivers := .new config

/-- What lets the pipelines be, apart from cancelling one or beginning a new one, keeps track of a
store that grows. -/
theorem of_frame (h : w.Tracks config) (w' : World) (c' : Chronicle)
    (harrangement : w'.arrangement = w.arrangement) (hnow : w.now ≤ w'.now)
    (hgrows : w.store.Grows w'.store)
    (halike : ∀ p ∈ w.engine.pipelines, p.isLookingUp = true → w.store.Alike w'.store)
    (hpipelines : ∀ q ∈ w'.engine.pipelines,
      (∃ p ∈ w.engine.pipelines, ∃ b, q = { p with cancelled := b }) ∨
        ∃ g target, q = .new g target config.stopDebounce)
    (hchronicle : w'.chronicle = w.chronicle ++ c')
    (hconsumed : ∀ n g item store, (n, .consumed g item store) ∉ c')
    (hdelivers : w'.engine.Delivers w'.chronicle) : w'.Tracks config := by
  constructor
  case arrangement =>
    rw [harrangement, h.arrangement]
  case live =>
    intro q hq
    rcases hpipelines q hq with ⟨p, hp, b, rfl⟩ | ⟨g, target, rfl⟩
    · exact h.live p hp
    · exact .inl rfl
  case follows =>
    intro q hq
    rcases hpipelines q hq with ⟨p, hp, b, rfl⟩ | ⟨g, target, rfl⟩
    · refine ((h.follows p hp).grows hnow hgrows (halike p hp) ?_).cancel b
      rw [hchronicle]
      exact w.chronicle.lastConsumed_append_of_not_mem fun n item store =>
        hconsumed n p.generation item store
    · rfl
  case tempered =>
    intro q hq
    rcases hpipelines q hq with ⟨p, hp, b, rfl⟩ | ⟨g, target, rfl⟩
    · have htempered := h.tempered p hp
      exact ⟨htempered.tuning, htempered.sound, htempered.dueBy.later hnow⟩
    · exact .new _ _ _ _
  case delivers =>
    exact hdelivers

/-- What leaves the pipelines and the channel alone keeps track of a store that grows. -/
theorem of_store (h : w.Tracks config) (w' : World) (harrangement : w'.arrangement = w.arrangement)
    (hnow : w.now ≤ w'.now) (hgrows : w.store.Grows w'.store)
    (halike : ∀ p ∈ w.engine.pipelines, p.isLookingUp = true → w.store.Alike w'.store)
    (hpipelines : w'.engine.pipelines = w.engine.pipelines)
    (hchronicle : w'.chronicle = w.chronicle ++ []) (hdelivers : w'.engine.Delivers w'.chronicle) :
    w'.Tracks config :=
  h.of_frame w' [] harrangement hnow hgrows halike
    (fun q hq => .inl ⟨q, hpipelines ▸ hq, q.cancelled, rfl⟩) hchronicle (by simp) hdelivers

theorem pipeline (h : w.Tracks config) (ho : w.engine.Orderly) {g : Nat} {p p' : Pipeline}
    {happened : List Occurrence} {output : Option PipelineOutput}
    (hp : w.engine.pipeline? g = some p)
    (hstep : p.Steps w.surroundings w.engine.holds p' happened output) :
    World.Tracks config
      ({ w with engine := w.engine.advancePipeline p' output }.noting w.now happened) := by
  obtain ⟨hmem, -⟩ := Engine.pipeline?_mem hp
  have hlive := h.live p hmem
  have hfollows' : p'.Follows w.now w.store (w.chronicle ++ happened.map (w.now, ·)) :=
    (h.follows p hmem).steps hlive h.arrangement hstep
  have only (q) (hq : q ∈ (w.engine.advancePipeline p' output).pipelines) : q = p' :=
    (ho.mem_advancePipeline hp hstep.identity hq).1
  constructor
  case arrangement =>
    exact h.arrangement
  case live =>
    intro q hq
    rw [only q hq]
    exact hlive.steps (by rw [surroundings, h.arrangement]; rfl) hstep
  case follows =>
    intro q hq
    rw [only q hq]
    exact hfollows'
  case tempered =>
    intro q hq
    rw [only q hq]
    exact (h.tempered p hmem).steps (hstep.weighs hlive)
  case delivers =>
    exact h.delivers.advancePipeline ho hp hlive (h.follows p hmem).endsByFailure
      hfollows'.endsByFailure hstep w.now

theorem moves (h : w.Tracks config) (hw : Reached config w) {m : Move} (hm : storeMoves w m)
    {w' : World} {happened : List Occurrence} (hstep : w.Moves m w' happened) :
    (w'.noting w.now happened).Tracks config := by
  obtain ⟨hstop, hrelease, harrange, hregister, htold⟩ := hm
  have unconsumed (hnone : ∀ g item store, .consumed g item store ∉ happened) (n g item store) :
      (n, .consumed g item store) ∉ happened.map (w.now, ·) :=
    fun hmem => hnone _ _ _ (mem_of_mem_noted hmem)
  cases hstep with
  | outside _ e' _ hout =>
    refine h.of_frame _ (happened.map (w.now, ·)) rfl (Nat.le_refl _) (.refl _) (fun _ _ _ => .refl _)
      ?_ rfl (unconsumed ?_) (h.delivers.outside ⟨hstop, hrelease⟩ hout w.now)
    · intro q hq
      have hsame : e'.pipelines = w.engine.pipelines := by cases hout <;> rfl
      exact .inl ⟨q, hsame ▸ hq, q.cancelled, rfl⟩
    · intro g item store
      cases hout <;> simp
  | store change =>
    refine h.of_store _ rfl (Nat.le_refl _) (Store.grows_apply change fun u hu => ?_) ?_ rfl rfl
      (by simpa [noting] using h.delivers)
    · exact hregister u (hu ▸ rfl)
    · intro p hp hlooking
      refine Store.alike_apply change ?_
      by_contra hne
      rw [htold change rfl (by simpa using hne) p hp] at hlooking
      cases hlooking
  | arrange arrangement => exact absurd rfl (harrange arrangement)
  | pass ms =>
    exact h.of_store _ rfl (Nat.le_add_right _ _) (.refl _) (fun _ _ _ => .refl _) rfl rfl
      (by simpa [noting] using h.delivers)
  | control e' _ _ hcon =>
    have ht := hw.tuned
    have hcl : w.engine.queue.closed = false := ht.closed.trans h.delivers.working.shutdown
    refine h.of_frame _ (happened.map (w.now, ·)) rfl (Nat.le_refl _) (.refl _) (fun _ _ _ => .refl _)
      ?_ rfl (unconsumed ?_) (h.delivers.controls hw.accounts hw.orderly hcl hcon w.now)
    · intro q hq
      rw [← ht.tuning]
      exact hcon.mem_pipelines hq
    · intro g item store
      cases hcon <;> simp
  | pipeline g p p' _ output hp _ hsteps => exact h.pipeline hw.orderly hp hsteps
  | answering n a ha =>
    obtain ⟨hgrows, halike⟩ := a.grows_step w.surroundings w.engine.holds
    refine h.of_store _ rfl (Nat.le_refl _) hgrows (fun _ _ _ => halike) rfl rfl ?_
    exact h.delivers.of_eq _ rfl (h.delivers.working.of_eq rfl rfl) (fun _ _ hh => hh) rfl rfl rfl
      rfl rfl

end Tracks

theorem Leads.tracks {config : EngineConfig} {w : World} (h : Leads storeMoves (.new config) w) :
    w.Tracks config :=
  h.keeps_reached (fun _ _ _ _ hw hi hm hstep => hi.moves hw hm hstep) .refl (.new config)

/-! ### Where a settled engine stands -/

/-- A decision stands in the slot for an action, or it is a stop that the pipeline of this generation
still holds back, and what stands in the slot meanwhile is a decision for the same action. -/
def ComesTo (w : World) (window g : Nat) (t : Ticket) (d : Decision) : Prop :=
  (∃ q, w.engine.slot.value = some q ∧ q.ticket = t ∧ q.result = .ok d) ∨
    d.isStop = true ∧
      (∀ q, w.engine.slot.value = some q → q.ticket = t ∧ ∃ d', q.result = .ok d') ∧
      ∃ p ∈ w.engine.pipelines, ∃ due, p.generation = g ∧ p.debounce.pending = some (d, due) ∧
        due ≤ w.now + window ∧ (w.AtRest → w.now < due)

/-- With an empty channel and nothing about to be sent, what passed last stands in the slot. -/
theorem slot_of_reports {e : Engine} {p : Pipeline} (h : e.Reports p) (hch : e.channel = [])
    (hp : p.phase = .watching) :
    e.slot.value.map (·.result) = p.debounce.lastForwarded.map .ok := by
  have hidle : p.outgoing? = none := by simp [Pipeline.outgoing?, hp]
  rcases h with ⟨error, hfailing⟩ | hr
  · cases hp.symm.trans hfailing
  · rw [← hr, hidle, Engine.arrived, hch]
    cases e.slot.value <;> rfl

/-- What a sound debounce was offered last stands in the slot, or is held back. -/
theorem comesTo_of_slot {w : World} {window : Nat} {p : Pipeline} {t : Ticket} {d : Decision}
    (ho : w.engine.Orderly) (hmem : p ∈ w.engine.pipelines) (htempered : p.Tempered window w.now)
    (hoffered : p.debounce.lastOffered = some d)
    (hticket : ∀ q, w.engine.slot.value = some q → q.ticket = t)
    (hphase : p.phase = .watching)
    (hslot : w.engine.slot.value.map (·.result) = p.debounce.lastForwarded.map .ok) :
    w.ComesTo window p.generation t d := by
  rcases hpending : p.debounce.pending with _ | ⟨held, due⟩
  · have hpassed := htempered.sound.passed hpending
    rw [hpassed, hoffered] at hslot
    obtain ⟨q, hq, hresult⟩ := Option.map_eq_some_iff.mp hslot
    exact .inl ⟨q, hq, hticket q hq, hresult⟩
  · obtain ⟨hlast, hstop⟩ := htempered.sound.held held due hpending
    obtain rfl : held = d := Option.some.inj (hlast.symm.trans hoffered)
    refine .inr ⟨hstop, fun q hq => ⟨hticket q hq, ?_⟩, p, hmem, due, rfl, hpending, ?_,
      fun hrest => ?_⟩
    · rw [hq] at hslot
      obtain ⟨d', -, hresult⟩ := Option.map_eq_some_iff.mp hslot.symm
      exact ⟨d', hresult.symm⟩
    · rw [← htempered.tuning]
      exact htempered.dueBy held due hpending
    · have hready := hrest.isReady_eq_false ho hmem
      simp only [Pipeline.isReady, hphase, Debounce.deadline, hpending, Option.map_some,
        Option.any_some, Bool.or_eq_false_iff, decide_eq_false_iff_not, Nat.not_le] at hready
      exact hready.2

/-- **A settled engine stands where its store does.** If the action that was processed last is a
start for which no failure was published, then a pipeline was begun for it, has taken the session
that is current, and comes to the decision that the store stands for, with the names and the validity
that the store told when the pipeline took that session. -/
theorem Leads.converges {config : EngineConfig} {w : World}
    (h : Leads storeMoves (.new config) w) (hsettled : w.Settled) {t : Ticket} {how : StartAction}
    (hlast : w.chronicle.lastProcessed = some (t, .start how)) (hok : ¬ w.chronicle.Failed t) :
    ∃ g session earlier, (∃ n, (n, .began g t) ∈ w.chronicle) ∧
      w.chronicle.lastConsumed g = some (.ok session, earlier) ∧
      w.store.session.value = .ok session ∧
      w.ComesTo (min config.stopDebounce Debounce.maxWindow) g t
        (w.store.verdict earlier how.target?) := by
  have htracks := h.tracks
  have ho := h.reached.orderly
  rcases htracks.delivers.engaged t how hlast with ⟨g, hg⟩ | ⟨g, hcur⟩ | hfailed
  · exact absurd hsettled (not_settled_of_retiring ho hg)
  · obtain ⟨-, hgen, ⟨n, hbegan⟩, -⟩ := h.reached.accounts.active _ hcur
    obtain ⟨hcontroller, -, -⟩ := ho.current _ hcur
    have hch : w.engine.channel = [] := by
      have hidle := hsettled.1
      simp only [Engine.controllerReady, hcontroller, Bool.or_eq_false_iff] at hidle
      simpa using hidle.2
    have hcarries := htracks.delivers.carries _ how hcur hlast
    rcases hps : w.engine.pipelines with _ | ⟨p, ps⟩
    · -- The pipeline that is gone has sent a failure.
      obtain ⟨o, ho, -⟩ := hcarries.gone hps
      rw [hch] at ho
      cases ho
    · have hmem : p ∈ w.engine.pipelines := by simp [hps]
      have hnews := hsettled.2 p hmem
      rw [Engine.hasRoom, hch] at hnews
      obtain ⟨hphase, hwatches, hsessions, hcalls⟩ :=
        Pipeline.watching_of_hasNews_eq_false (htracks.follows p hmem) (ho.unfinished p hmem) hnews
      obtain ⟨session, earlier, hconsumed, hcurrent, hoffered⟩ := hwatches.verdict hsessions hcalls
      obtain rfl : p.generation = g := (ho.newest p hmem).trans hgen.symm
      rw [hcarries.target p hmem] at hoffered
      exact ⟨p.generation, session, earlier, ⟨n, mem_of_mem_recent hbegan⟩, hconsumed, hcurrent,
        comesTo_of_slot ho hmem (htracks.tempered p hmem) hoffered hcarries.slot hphase
          (slot_of_reports (hcarries.reports p hmem) hch hphase)⟩
  · exact absurd hfailed hok

/-- An account that is signed in, and another one with a call to be answered. -/
def alice : SelfUser := ⟨⟨"alice", ""⟩, none, some "alice"⟩

def bob : SelfUser := ⟨⟨"bob", ""⟩, none, some "bob"⟩

def ringing : Call := .new ⟨"room", ""⟩ ⟨"caller", ""⟩ .incoming

/-- Both accounts are there. -/
def peopled : World :=
  ((new default).after (.store (.register alice))).after (.store (.register bob))

/-- A start that answers the call of the other account, up to where its notification is published. -/
def answered : List Move :=
  [.store (.account 1 (.list .incoming (.ok [ringing]))),
    .store (.session (.ok (some (.valid alice.id)))), .start,
    .submit (.start (.answerCall bob.id ringing.conversationId)), .go .controller]
    ++ List.replicate 9 (.go (.pipeline 1)) ++ [.go .controller]

theorem converges_answered :
    let w := peopled.run answered
    Leads storeMoves (new default) w ∧ w.Settled ∧
      w.chronicle.lastProcessed = some (⟨1⟩, .start (.answerCall bob.id ringing.conversationId)) ∧
      ¬ w.chronicle.Failed ⟨1⟩ ∧ w.ComesTo 200 1 ⟨1⟩ (.update ⟨bob.id, ringing, "bob"⟩) := by
  intro w
  have hregister (v : World) (u : SelfUser) (hu : v.store.find? u.id = none)
      (hp : v.engine.pipelines = []) : Step storeMoves v (v.after (.store (.register u))) :=
    ⟨.store (.register u), ⟨by simp, by simp, by simp, fun u' h => by cases h; exact hu,
      by simp [hp]⟩, rfl, rfl⟩
  have hpeopled : Leads storeMoves (new default) peopled :=
    (Relation.ReflTransGen.single (hregister _ alice rfl rfl)).tail (hregister _ bob (by decide) rfl)
  have hplain (v) (m) (hm : m ∈ answered) : storeMoves v m := by
    simp only [answered, List.mem_append, List.mem_cons, List.mem_replicate, List.not_mem_nil,
      or_false] at hm
    rcases hm with ((rfl | rfl | rfl | rfl | rfl) | ⟨-, rfl⟩) | rfl
    all_goals simp [storeMoves, StoreChange.isTold]
  have h : Leads storeMoves (new default) w := hpeopled.trans (leads_run hplain (by decide))
  have hsettled : w.Settled := by unfold Settled; decide
  have hlast : w.chronicle.lastProcessed =
      some (⟨1⟩, .start (.answerCall bob.id ringing.conversationId)) := rfl
  have hok : ¬ w.chronicle.Failed ⟨1⟩ := by
    rintro ⟨x, hx, error, herror⟩
    have hpublished : w.chronicle.publishedFor ⟨1⟩ =
        [(⟨1, ⟨1⟩, .ok (.update ⟨bob.id, ringing, "bob"⟩)⟩, some 1)] := rfl
    rw [hpublished, List.mem_singleton] at hx
    subst hx
    cases herror
  obtain ⟨g, session, earlier, ⟨n, hbegan⟩, hconsumed, -, hcomes⟩ := h.converges hsettled hlast hok
  have hone : g = 1 := by
    have hall : (w.chronicle.filterMap fun entry => match entry.2 with
        | .began g _ => some g
        | _ => none) = [1] := rfl
    exact List.mem_singleton.mp (hall ▸ List.mem_filterMap.mpr ⟨_, hbegan, rfl⟩)
  subst hone
  cases hconsumed
  exact ⟨h, hsettled, hlast, hok, hcomes⟩

end World

end CallWatch
