import CallWatch.Proofs.Engine.Publishing
import CallWatch.Proofs.Engine.Weighing

/-! # No stop comes too early

A stop for want of calls or of a valid session is sent only if the pipeline came to it a whole window
before and to nothing else since, as long as the sessions do not end. What is published was sent.

`Steady c g d n` says of the chronicle that since the instant `n` the pipeline `g` came to no decision
but `d`. What the debounce holds back is steady since its instant was set (`Patient`), and so is what
is about to be sent. What is on its way to the controller was steady when it was sent (`Matured`);
until it is published the pipeline may come to something else. -/

namespace CallWatch

open Chronicle

/-! ### Steadiness -/

/-- Since this instant the pipeline came to this decision and to no other. -/
def Chronicle.Steady (c : Chronicle) (g : Nat) (d : Decision) (since : Nat) : Prop :=
  ∃ before later, c = before ++ (since, .decided g d) :: later ∧
    ∀ n d', (n, .decided g d') ∈ later → d' = d

/-- The pipeline came to this stop a whole window before this instant, and to nothing else since. -/
def Chronicle.HeldBack (window : Nat) (c : Chronicle) (g : Nat) (r : StopReason) (n : Nat) : Prop :=
  ∃ since, Steady c g (.stop r) since ∧ since + window ≤ n

/-- The pipeline came to want of a valid session a whole window before this instant, and took no valid
session since. -/
def Chronicle.LoggedOut (window : Nat) (c : Chronicle) (g n : Nat) : Prop :=
  ∃ before later since, c = before ++ (since, .decided g (.stop .noValidSession)) :: later ∧
    since + window ≤ n ∧ ∀ m user store, (m, .consumed g (.ok (some (.valid user))) store) ∉ later

/-- The pipeline sent a stop at this instant. It had come to it a whole window before and to nothing
else since, and whatever else it had ever come to was a window old. -/
def Chronicle.Matured (window : Nat) (c : Chronicle) (g : Nat) (r : StopReason) (sent : Nat) :
    Prop :=
  ∃ before later, c = before ++ (sent, .emitted g (.ok (.stop r))) :: later ∧
    HeldBack window before g r sent ∧
    ∀ n d, (n, .decided g d) ∈ before → d ≠ .stop r → n + window ≤ sent

/-- The instants of what happened ascend. -/
def Chronicle.Ascends (c : Chronicle) : Prop := c.Pairwise fun a b => a.1 ≤ b.1

/-- Nothing that happened is another decision of the pipeline. -/
theorem Chronicle.Steady.append {c : Chronicle} {g : Nat} {d : Decision} {since : Nat}
    (h : Steady c g d since) {c' : Chronicle} (hc : ∀ n d', (n, .decided g d') ∈ c' → d' = d) :
    Steady (c ++ c') g d since := by
  obtain ⟨before, later, rfl, hlater⟩ := h
  refine ⟨before, later ++ c', by simp, fun n d' hd => ?_⟩
  rcases List.mem_append.mp hd with hd | hd
  · exact hlater n d' hd
  · exact hc n d' hd

/-- Where the instants ascend, what else the pipeline came to is a window old. -/
theorem Chronicle.HeldBack.of_other {window : Nat} {c : Chronicle} {g : Nat} {r : StopReason}
    {n : Nat} (h : HeldBack window c g r n) (hc : c.Ascends) {m : Nat} {d : Decision}
    (hd : (m, .decided g d) ∈ c) (hne : d ≠ .stop r) : m + window ≤ n := by
  obtain ⟨since, ⟨before, later, rfl, hlater⟩, hle⟩ := h
  rcases List.mem_append.mp hd with hd | hd
  · have hearlier : m ≤ since := (List.pairwise_append.mp hc).2.2 _ hd _ (.head _)
    omega
  · rcases List.mem_cons.mp hd with hd | hd
    · cases hd
      exact absurd rfl hne
    · exact absurd (hlater m d hd) hne

theorem Chronicle.Matured.append {window : Nat} {c : Chronicle} {g : Nat} {r : StopReason}
    {sent : Nat} (h : Matured window c g r sent) (c' : Chronicle) :
    Matured window (c ++ c') g r sent := by
  obtain ⟨before, later, rfl, hheld⟩ := h
  exact ⟨before, later ++ c', by simp, hheld⟩

/-- The decision of a pipeline that an entry notes. -/
def Chronicle.decision? (g : Nat) (entry : Nat × Occurrence) : Option Decision :=
  match entry.2 with
  | .decided g' d => if g' = g then some d else none
  | _ => none

/-- Whether an entry notes that the pipeline took a valid session, or something else that it took or
came to. -/
def Chronicle.signedIn? (g : Nat) (entry : Nat × Occurrence) : Option Bool :=
  match entry.2 with
  | .consumed g' (.ok (some session)) _ => if g' = g then some session.isValid else none
  | .decided g' _ => if g' = g then some false else none
  | _ => none

/-- A steady pipeline came to no other decision last. -/
theorem Chronicle.Steady.eq_of_getLast? {c : Chronicle} {g since : Nat} {d d' : Decision}
    (h : Steady c g d since) (hlast : (c.filterMap (decision? g)).getLast? = some d') : d' = d := by
  obtain ⟨before, later, rfl, hlater⟩ := h
  rcases reading_of_getLast? (x := d) (by simp [decision?]) hlast with heq | ⟨⟨n, o⟩, ho, hd⟩
  · exact heq
  · cases o with
    | decided g' d'' =>
      obtain ⟨rfl, rfl⟩ : g' = g ∧ d'' = d' := by simpa [decision?] using hd
      exact hlater n d'' ho
    | _ => cases hd

/-- A pipeline that is logged out took no valid session last. -/
theorem Chronicle.LoggedOut.getLast?_ne {window : Nat} {c : Chronicle} {g n : Nat}
    (h : LoggedOut window c g n) : (c.filterMap (signedIn? g)).getLast? ≠ some true := by
  obtain ⟨before, later, since, rfl, -, hlater⟩ := h
  intro hlast
  rcases reading_of_getLast? (x := false) (by simp [signedIn?]) hlast with heq | ⟨⟨m, o⟩, ho, hs⟩
  · cases heq
  · cases o with
    | consumed g' item store =>
      rcases item with _ | _ | ⟨user, status⟩
      · cases hs
      · cases hs
      · obtain ⟨rfl, rfl⟩ : g' = g ∧ status = .valid := by
          simpa [signedIn?, Session.isValid] using hs
        exact hlater m user store ho
    | decided g' d => simp [signedIn?] at hs
    | _ => cases hs

/-- A pipeline that is patient with stops: what its debounce holds back has been steady since a
window before it is due, and what it is about to send has been steady for a window. -/
structure Pipeline.Patient (window now : Nat) (c : Chronicle) (p : Pipeline) : Prop where
  tuning : p.debounce.window = window
  sound : p.debounce.Sound
  pending : ∀ d due, p.debounce.pending = some (d, due) →
    ∃ since, c.Steady p.generation d since ∧ since + window ≤ due
  ripe : ∀ r next, p.phase = .sending (.ok (.stop r)) next → c.HeldBack window p.generation r now

namespace Pipeline.Patient

variable {window now : Nat} {c : Chronicle} {p p' : Pipeline}

theorem new (g : Nat) (target : Option AnswerTarget) (w now : Nat) (c : Chronicle) :
    (Pipeline.new g target w).Patient (min w Debounce.maxWindow) now c :=
  ⟨rfl, .ofWindow w, fun _ _ h => (by cases h), fun _ _ h => (by cases h)⟩

/-- Whatever is no decision of the pipeline leaves it patient, and so does time. -/
theorem of_eq (h : p.Patient window now c) {now' : Nat} (hnow : now ≤ now') {c' : Chronicle}
    (hc : ∀ n d, (n, .decided p.generation d) ∉ c') (hgen : p'.generation = p.generation)
    (hdebounce : p'.debounce = p.debounce) (hphase : ∀ r next,
      p'.phase = .sending (.ok (.stop r)) next → p.phase = .sending (.ok (.stop r)) next) :
    p'.Patient window now' (c ++ c') := by
  have steady {d since} (hsteady : c.Steady p.generation d since) :
      Chronicle.Steady (c ++ c') p'.generation d since := by
    rw [hgen]
    exact hsteady.append fun n d' hd => absurd hd (hc n d')
  constructor
  · rw [hdebounce, h.tuning]
  · rw [hdebounce]; exact h.sound
  · intro d due hd
    rw [hdebounce] at hd
    obtain ⟨since, hsteady, hle⟩ := h.pending d due hd
    exact ⟨since, steady hsteady, hle⟩
  · intro r next hp
    obtain ⟨since, hsteady, hle⟩ := h.ripe r next (hphase r next hp)
    exact ⟨since, steady hsteady, by omega⟩

/-- What passes the debounce is sent. -/
theorem ripe_of_emit {q : Pipeline} {passed : Debounce × Option Decision} {r : StopReason}
    {next : AfterSending} (h : (q.emit passed).phase = .sending (.ok (.stop r)) next) :
    passed.2 = some (.stop r) := by
  simp only [emit] at h
  split at h
  · next d hd =>
    cases h
    exact hd
  · cases h

theorem offer (h : p.Patient window now c) (d : Decision) {c' : Chronicle}
    (hc : ∀ n d, (n, .decided p.generation d) ∉ c') (hgen : p'.generation = p.generation)
    (hdebounce : p'.debounce = (p.offer d now).debounce) (hphase : p'.phase = (p.offer d now).phase) :
    p'.Patient window now (c ++ (c' ++ [(now, .decided p.generation d)])) := by
  have hnew : Chronicle.Steady (c ++ (c' ++ [(now, .decided p.generation d)])) p.generation d now :=
    ⟨c ++ c', [], by simp, by simp⟩
  replace hdebounce : p'.debounce = (p.debounce.offer d now).1 := hdebounce
  constructor
  · rw [hdebounce, Debounce.window_offer, h.tuning]
  · rw [hdebounce]; exact h.sound.offer d now
  · intro d' due hd
    rw [hdebounce] at hd
    rw [hgen]
    rcases p.debounce.offer_cases d now with ⟨hlast, heq⟩ | ⟨-, -, -, heq⟩ | ⟨-, -, heq⟩
    · -- The same decision again: the instant stays.
      rw [heq] at hd
      obtain ⟨since, hsteady, hle⟩ := h.pending d' due hd
      have hsame : d = d' := Option.some.inj (hlast.symm.trans (h.sound.held d' due hd).1)
      refine ⟨since, hsteady.append fun n d'' hd'' => ?_, hle⟩
      rcases List.mem_append.mp hd'' with hd'' | hd''
      · exact absurd hd'' (hc n d'')
      · cases List.mem_singleton.mp hd''
        exact hsame
    · -- A stop: the window begins now.
      rw [heq] at hd
      cases hd
      exact ⟨now, hnew, Nat.le_of_eq (by rw [h.tuning])⟩
    · rw [heq, Debounce.pending_forward] at hd
      cases hd
  · intro r next hp
    rw [hphase] at hp
    have hpassed := ripe_of_emit hp
    rw [hgen]
    rcases p.debounce.offer_cases d now with ⟨-, heq⟩ | ⟨-, -, -, heq⟩ | ⟨-, hpass, heq⟩
    · rw [heq] at hpassed
      cases hpassed
    · rw [heq] at hpassed
      cases hpassed
    · -- A stop passes at once only if there is no window.
      rw [heq] at hpassed
      obtain rfl := Debounce.eq_of_forward hpassed
      have hzero : window = 0 := h.tuning ▸ hpass.resolve_left (by simp [Decision.isStop])
      exact ⟨now, hnew, by omega⟩

theorem fire (h : p.Patient window now c) :
    (p.emit (p.debounce.fire now)).Patient window now c := by
  constructor
  · exact (Debounce.window_fire _ _).trans h.tuning
  · exact h.sound.fire now
  · intro d due hd
    replace hd : (p.debounce.fire now).1.pending = some (d, due) := hd
    rcases p.debounce.fire_cases now with ⟨heq, -⟩ | ⟨d', due', -, -, heq⟩
    · rw [heq] at hd
      exact h.pending d due hd
    · rw [heq, Debounce.pending_forward] at hd
      cases hd
  · intro r next hp
    have hpassed := ripe_of_emit hp
    rcases p.debounce.fire_cases now with ⟨heq, -⟩ | ⟨d, due, hpending, hdue, heq⟩
    · rw [heq] at hpassed
      cases hpassed
    · rw [heq] at hpassed
      obtain rfl := Debounce.eq_of_forward hpassed
      obtain ⟨since, hsteady, hle⟩ := h.pending _ due hpending
      exact ⟨since, hsteady, by omega⟩

theorem steps (h : p.Patient window now c) (hlive : p.FollowsLive) {s : Surroundings}
    {held : AccountRef → Bool} {happened : List Occurrence} {output : Option PipelineOutput}
    (hnow : s.now = now) (hstep : p.Steps s held p' happened output) :
    p'.Patient window now (c ++ happened.map (now, ·)) := by
  have hgen : p'.generation = p.generation := congrArg (·.1) hstep.identity
  have quiet (hnone : ∀ g d, .decided g d ∉ happened) (n : Nat) (d : Decision) :
      (n, .decided p.generation d) ∉ happened.map (now, ·) :=
    fun hd => hnone _ _ (mem_of_mem_noted hd)
  cases hstep.weighs hlive with
  | offer d before hbefore _ hhappened _ hdebounce hphase =>
    rw [hnow] at hdebounce hphase
    rw [hhappened, List.map_append]
    exact h.offer d (fun n d hd => hbefore _ _ (mem_of_mem_noted hd)) hgen hdebounce hphase
  | fire _ hhappened _ hp =>
    rw [hhappened, hp, hnow, List.map_nil, List.append_nil]
    exact h.fire
  | send result next _ hhappened _ hdebounce hphase =>
    refine h.of_eq (Nat.le_refl _) (quiet (by simp [hhappened])) hgen hdebounce fun r next' hp => ?_
    rw [hphase] at hp
    cases next <;> cases hp
  | leave _ hnone _ hdebounce hphase =>
    exact h.of_eq (Nat.le_refl _) (quiet hnone) hgen hdebounce
      fun r next hp => absurd hp (hphase.2 _ next)
  | quit _ hhappened _ hdebounce hphase =>
    refine h.of_eq (Nat.le_refl _) (quiet (by simp [hhappened])) hgen hdebounce fun r next hp => ?_
    rw [hphase] at hp
    cases hp

end Pipeline.Patient

/-! ### Along a run -/

/-- What was sent as a stop had matured, and was sent at the instant at which it is published if the
clock is prompt. -/
def Chronicle.Waited (window : Nat) (prompt : Prop) (before : Chronicle) (n : Nat) (p : Published)
    (source : Option Nat) : Prop :=
  ∀ g r, source = some g → p.result = .ok (.stop r) →
    ∃ sent, Matured window before g r sent ∧ sent ≤ n ∧ (prompt → sent = n)

namespace World

/-- Runs in which the sessions do not end. If the clock is prompt, time passes only when nobody can
go on. -/
def liveMoves (prompt : Prop) (w : World) (m : Move) : Prop :=
  (∀ a, m = .arrange a → a.sessions = none) ∧ (prompt → ∀ ms, m = .pass ms → w.AtRest)

theorem Reached.ascends {config : EngineConfig} {w : World} (h : Reached config w) :
    w.chronicle.Ascends := by
  have hboth : w.chronicle.Ascends ∧ ∀ entry ∈ w.chronicle, entry.1 ≤ w.now := by
    refine Leads.keeps (I := fun w => w.chronicle.Ascends ∧ ∀ entry ∈ w.chronicle, entry.1 ≤ w.now)
      ?_ h ⟨.nil, by simp [new]⟩
    rintro w m w' happened ⟨hascends, hpast⟩ - hstep
    have hnow : w.now ≤ w'.now := by cases hstep <;> simp
    rw [hstep.chronicle_noting]
    constructor
    · refine List.pairwise_append.mpr ⟨hascends, List.pairwise_map.mpr (List.pairwise_of_forall fun _ _ => Nat.le_refl _),
        fun entry hentry later hlater => ?_⟩
      obtain ⟨o, -, rfl⟩ := List.mem_map.mp hlater
      exact hpast entry hentry
    · intro entry hentry
      rcases List.mem_append.mp hentry with hentry | hentry
      · exact Nat.le_trans (hpast entry hentry) hnow
      · obtain ⟨o, -, rfl⟩ := List.mem_map.mp hentry
        exact hnow
  exact hboth.1

/-- Every stop waits for its window, wherever it is. -/
structure Waits (config : EngineConfig) (prompt : Prop) (w : World) : Prop where
  sessions : w.arrangement.sessions = none
  live : ∀ p ∈ w.engine.pipelines, p.FollowsLive
  patient : ∀ p ∈ w.engine.pipelines,
    p.Patient (min config.stopDebounce Debounce.maxWindow) w.now w.chronicle
  channel : ∀ o ∈ w.engine.channel, ∀ r, o.result = .ok (.stop r) →
    ∃ sent, Matured (min config.stopDebounce Debounce.maxWindow) w.chronicle o.generation r sent ∧
      sent ≤ w.now ∧ (prompt → w.engine.controller ≠ .ended → sent = w.now)
  unstarted : w.engine.controller = .unstarted → w.engine.channel = []
  published : EveryPublication (Waited (min config.stopDebounce Debounce.maxWindow) prompt)
    w.chronicle

namespace Waits

variable {config : EngineConfig} {prompt : Prop} {w : World}

theorem new (config : EngineConfig) (prompt : Prop) : (World.new config).Waits config prompt where
  sessions := rfl
  live := by simp [World.new, Engine.new]
  patient := by simp [World.new, Engine.new]
  channel := by simp [World.new, Engine.new]
  unstarted := fun _ => rfl
  published := .nil _

/-- What lets the pipelines be, apart from cancelling one or beginning a new one, and only takes from
the channel, lets every stop wait. -/
theorem of_frame (h : w.Waits config prompt) (w' : World) (c' : Chronicle)
    (hsessions : w'.arrangement.sessions = none) (hnow : w.now ≤ w'.now)
    (hpipelines : ∀ q ∈ w'.engine.pipelines,
      (∃ p ∈ w.engine.pipelines, ∃ b, q = { p with cancelled := b }) ∨
        ∃ g target, q = .new g target config.stopDebounce)
    (hchannel : ∀ o ∈ w'.engine.channel, o ∈ w.engine.channel)
    (hprompt : prompt → w'.engine.channel ≠ [] → w'.engine.controller ≠ .ended →
      w.engine.controller ≠ .ended ∧ w'.now = w.now)
    (hunstarted : w'.engine.controller = .unstarted → w'.engine.channel = [])
    (hchronicle : w'.chronicle = w.chronicle ++ c')
    (hdecided : ∀ n g d, (n, .decided g d) ∉ c')
    (hpublished : EveryPublication (Waited (min config.stopDebounce Debounce.maxWindow) prompt)
      (w.chronicle ++ c')) : w'.Waits config prompt := by
  constructor
  case sessions =>
    exact hsessions
  case live =>
    intro q hq
    rcases hpipelines q hq with ⟨p, hp, b, rfl⟩ | ⟨g, target, rfl⟩
    · exact h.live p hp
    · exact .inl rfl
  case patient =>
    intro q hq
    rw [hchronicle]
    rcases hpipelines q hq with ⟨p, hp, b, rfl⟩ | ⟨g, target, rfl⟩
    · exact (h.patient p hp).of_eq hnow (fun n d => hdecided n _ d) rfl rfl fun _ _ h => h
    · exact .new _ _ _ _ _
  case channel =>
    intro o ho r hr
    obtain ⟨sent, hmatured, hle, heq⟩ := h.channel o (hchannel o ho) r hr
    refine ⟨sent, hchronicle ▸ hmatured.append c', Nat.le_trans hle hnow, fun hp hc => ?_⟩
    obtain ⟨hc', hnow'⟩ := hprompt hp (List.ne_nil_of_mem ho) hc
    rw [heq hp hc', hnow']
  case unstarted =>
    exact hunstarted
  case published =>
    rw [hchronicle]
    exact hpublished

theorem outside (h : w.Waits config prompt) {m : Move} {e' : Engine} {happened : List Occurrence}
    (hout : w.engine.Outside m e' happened) :
    World.Waits config prompt ({ w with engine := e' }.noting w.now happened) := by
  have hpublished := h.published.append_of_published_eq_nil (hout.readings w.now).2
  have same {q : Pipeline} (hq : q ∈ w.engine.pipelines) :
      ∃ p ∈ w.engine.pipelines, ∃ b, q = { p with cancelled := b } := ⟨q, hq, q.cancelled, rfl⟩
  have frame (e' : Engine) (hpipelines : e'.pipelines = w.engine.pipelines)
      (hchannel : e'.channel = w.engine.channel)
      (hcontroller : e'.controller = w.engine.controller ∨ w.engine.channel = [])
      (hdecided : ∀ g d, .decided g d ∉ happened) :
      World.Waits config prompt ({ w with engine := e' }.noting w.now happened) := by
    refine h.of_frame _ (happened.map (w.now, ·)) h.sessions (Nat.le_refl _)
      (fun q hq => .inl (same (hpipelines ▸ hq))) (fun o ho => hchannel ▸ ho) ?_ ?_ rfl ?_ hpublished
    · intro _ hne hc
      rcases hcontroller with heq | hnil
      · exact ⟨heq ▸ hc, rfl⟩
      · exact absurd (hchannel.trans hnil) hne
    · intro hc
      rcases hcontroller with heq | hnil
      · exact hchannel.trans (h.unstarted (heq ▸ hc))
      · exact hchannel.trans hnil
    · exact fun n g d hd => hdecided _ _ (mem_of_mem_noted hd)
  cases hout with
  | same => exact frame w.engine rfl rfl (.inl rfl) (by simp)
  | accept _ a => exact frame _ rfl rfl (.inl rfl) (by simp)
  | discard a => exact frame _ rfl rfl (.inl rfl) (by simp)
  | start hc => exact frame _ rfl rfl (.inr (h.unstarted hc)) (by simp)
  | stop => exact frame _ rfl rfl (.inl rfl) (by simp)

/-- What is published for a pipeline was in the channel, and what is there is not late. -/
theorem control (h : w.Waits config prompt) (ht : w.engine.Tuned config) {e' : Engine}
    {happened : List Occurrence} (hcon : w.engine.Controls e' happened) :
    World.Waits config prompt ({ w with engine := e' }.noting w.now happened) := by
  refine h.of_frame _ (happened.map (w.now, ·)) h.sessions (Nat.le_refl _) ?_
    (fun o => hcon.mem_channel) ?_ ?_ rfl ?_ (h.published.append ?_)
  · intro q hq
    rw [← ht.tuning]
    exact hcon.mem_pipelines hq
  · intro _ _ hc
    refine ⟨fun hended => hc ?_, rfl⟩
    exact (congrArg (·.controller) (hcon.eq_of_away (.inr hended))).trans hended
  · intro hc
    have heq : e' = w.engine := hcon.eq_of_unstarted hc
    exact (congrArg (·.channel) heq).trans (h.unstarted (heq ▸ hc))
  · exact fun n g d hd => hcon.not_decided _ _ (mem_of_mem_noted hd)
  · intro before n p source later hsplit g r hg hr
    subst hg
    have hmem : (n, .published p (some g)) ∈ happened.map (w.now, ·) := by simp [hsplit]
    obtain ⟨o, ho, heq⟩ := List.mem_map.mp hmem
    cases heq
    obtain ⟨hc, sent, hin, rfl, hresult⟩ := hcon.published ho
    obtain ⟨n, hmatured, hle, heq⟩ := h.channel sent hin r (hresult.trans hr)
    exact ⟨n, hmatured.append before, hle, fun hp => heq hp (by simp [hc])⟩

/-- What a pipeline sends it was about to send. -/
theorem pipeline (h : w.Waits config prompt) (ho : w.engine.Orderly) (hc : w.chronicle.Ascends)
    {g : Nat} {p p' : Pipeline} {happened : List Occurrence} {output : Option PipelineOutput}
    (hp : w.engine.pipeline? g = some p)
    (hstep : p.Steps w.surroundings w.engine.holds p' happened output) :
    World.Waits config prompt
      ({ w with engine := w.engine.advancePipeline p' output }.noting w.now happened) := by
  obtain ⟨hmem, -⟩ := Engine.pipeline?_mem hp
  have only (q) (hq : q ∈ (w.engine.advancePipeline p' output).pipelines) : q = p' :=
    (ho.mem_advancePipeline hp hstep.identity hq).1
  constructor
  case sessions =>
    exact h.sessions
  case live =>
    intro q hq
    rw [only q hq]
    exact (h.live p hmem).steps h.sessions hstep
  case patient =>
    intro q hq
    rw [only q hq]
    exact (h.patient p hmem).steps (h.live p hmem) rfl hstep
  case channel =>
    intro o ho' r hr
    rcases List.mem_append.mp ho' with ho' | ho'
    · obtain ⟨sent, hmatured, hle⟩ := h.channel o ho' r hr
      exact ⟨sent, hmatured.append _, hle⟩
    · cases hstep.weighs (h.live p hmem) with
      | send result next hsending hhappened houtput =>
        rw [houtput, Option.toList_some, List.mem_singleton] at ho'
        subst ho'
        replace hr : result = .ok (.stop r) := hr
        rw [hr] at hsending hhappened
        have hheld := (h.patient p hmem).ripe r next hsending
        refine ⟨w.now, ⟨w.chronicle, [], ?_, hheld, fun n d hd hne => hheld.of_other hc hd hne⟩,
          Nat.le_refl _, fun _ _ => rfl⟩
        rw [hhappened]; rfl
      | offer _ _ _ _ _ houtput => simp [houtput] at ho'
      | fire _ _ houtput => simp [houtput] at ho'
      | leave _ _ houtput => simp [houtput] at ho'
      | quit _ _ houtput => simp [houtput] at ho'
  case unstarted =>
    intro hc
    rw [(ho.away (.inl hc)).2] at hmem
    cases hmem
  case published =>
    exact h.published.append_of_published_eq_nil (hstep.readings w.now).2.1

end Waits

/-- When nobody can go on, nothing is in the channel of a controller that has not ended. -/
theorem channel_eq_nil_of_atRest {w : World} (ho : w.engine.Orderly) (hrest : w.AtRest)
    (hunstarted : w.engine.controller = .unstarted → w.engine.channel = [])
    (hc : w.engine.controller ≠ .ended) : w.engine.channel = [] := by
  rcases hcon : w.engine.controller with _ | _ | ⟨g, errand⟩ | _
  · exact hunstarted hcon
  · have hready := hrest .controller (by simp [Engine.tasks])
    by_contra hne
    simp [Engine.isReady, Engine.controllerReady, hcon, hne] at hready
  · exact absurd hrest (not_atRest_of_retiring ho hcon)
  · exact absurd hcon hc

theorem Moves.waits {config : EngineConfig} {prompt : Prop} {w w' : World} {m : Move}
    {happened : List Occurrence} (hw : Reached config w) (h : w.Waits config prompt)
    (hm : w.liveMoves prompt m) (hstep : w.Moves m w' happened) :
    (w'.noting w.now happened).Waits config prompt := by
  have same (w' : World) (hengine : w'.engine = w.engine)
      (hsessions : w'.arrangement.sessions = none) (hnow : w.now ≤ w'.now)
      (hchronicle : w'.chronicle = w.chronicle) (hprompt : prompt → w'.engine.channel ≠ [] →
        w'.engine.controller ≠ .ended → w'.now = w.now) : w'.Waits config prompt := by
    refine h.of_frame w' [] hsessions hnow ?_ ?_ ?_ ?_ ?_ ?_ ?_
    · exact fun q hq => .inl ⟨q, hengine ▸ hq, q.cancelled, rfl⟩
    · exact fun o ho => hengine ▸ ho
    · exact fun hp hne hc => ⟨hengine ▸ hc, hprompt hp hne hc⟩
    · rw [hengine]; exact h.unstarted
    · rw [hchronicle, List.append_nil]
    · simp
    · rw [List.append_nil]; exact h.published
  cases hstep with
  | outside _ e' _ hout => exact h.outside hout
  | store change =>
    exact same _ rfl h.sessions (Nat.le_refl _) (List.append_nil _) fun _ _ _ => rfl
  | arrange a =>
    exact same _ rfl (hm.1 a rfl) (Nat.le_refl _) (List.append_nil _) fun _ _ _ => rfl
  | pass ms =>
    refine same _ rfl h.sessions (Nat.le_add_right _ _) (List.append_nil _) fun hp hne hc => ?_
    exact absurd (channel_eq_nil_of_atRest hw.orderly (hm.2 hp ms rfl) h.unstarted hc) hne
  | control e' _ _ hcon => exact h.control hw.tuned hcon
  | pipeline g p p' _ output hp _ hsteps => exact h.pipeline hw.orderly hw.ascends hp hsteps
  | answering n a =>
    refine h.of_frame _ [] h.sessions (Nat.le_refl _) (fun q hq => .inl ⟨q, hq, q.cancelled, rfl⟩)
      (fun _ ho => ho) (fun _ _ hc => ⟨hc, rfl⟩) h.unstarted rfl (by simp) ?_
    rw [List.append_nil]
    exact h.published

/-- **No stop comes too early.** In every run over live sessions, a stop that is published for want
of calls or of a valid session was sent by the pipeline that was begun for its action. That pipeline
had come to exactly this stop a whole window before it was sent, and to no other decision between. So
whatever else it came to before is a window old, and a stop that something else takes the place of
within its window is never sent. If time passes only when nobody can go on, it was published at the
instant at which it was sent. -/
theorem Reached.no_premature_stop {config : EngineConfig} {prompt : Prop} {w : World}
    (h : Leads (liveMoves prompt) (new config) w) :
    EveryPublication (fun before n p source => ∀ r, p.result = .ok (.stop r) →
      r ≠ .actionStopCalled → ∃ g sent, source = some g ∧ (∃ k, (k, .began g p.ticket) ∈ before) ∧
        Matured (min config.stopDebounce Debounce.maxWindow) before g r sent ∧ sent ≤ n ∧
        (prompt → sent = n)) w.chronicle := by
  have hw : Reached config w := h.reached
  have hwaits : w.Waits config prompt := Leads.keeps_reached
    (I := fun w => w.Waits config prompt)
    (fun _ _ _ _ hw hi hm hstep => hstep.waits hw hi hm) .refl h (.new config prompt)
  intro before n p source later hsplit r hr hne
  have hwarranted := hw.warranted before n p source later hsplit
  rcases source with _ | g
  · have hstop := hwarranted.2
    rw [hr] at hstop
    cases hstop
    exact absurd rfl hne
  · obtain ⟨-, ⟨k, hk⟩, -⟩ := hwarranted
    obtain ⟨sent, hmatured, hle, heq⟩ := hwaits.published before n p _ later hsplit g r rfl hr
    exact ⟨g, sent, rfl, ⟨k, mem_of_mem_recent hk⟩, hmatured, hle, heq⟩

/-- A start without a session, up to the point where its stop is held back. -/
def heldBack : List Move :=
  [.start, .submit (.start .default), .go .controller, .go (.pipeline 1), .go (.pipeline 1)]

/-- The stop is due, is sent and is published. -/
def letGo : List Move := [.go (.pipeline 1), .go (.pipeline 1), .go .controller]

theorem no_premature_stop_heldBack :
    let w := (((new default).run heldBack).after (.pass 200)).run letGo
    Leads (liveMoves True) (new default) w ∧
      w.chronicle.published.map (·.1.result) = [.ok (.stop .noValidSession)] ∧
      Matured 200 w.chronicle.dropLast 1 .noValidSession 200 := by
  have calm (moves : List Move) (hcalm : ∀ m ∈ moves, (∀ ms, m ≠ .pass ms) ∧ ∀ a, m ≠ .arrange a)
      (v) (m) (hm : m ∈ moves) : liveMoves True v m :=
    ⟨fun a h => absurd h ((hcalm m hm).2 a), fun _ ms h => absurd h ((hcalm m hm).1 ms)⟩
  have hheld : Leads (liveMoves True) (new default) ((new default).run heldBack) :=
    leads_run (calm _ (by simp [heldBack])) (by decide)
  have hrest : ((new default).run heldBack).AtRest := by unfold AtRest; decide
  have hpass : Step (liveMoves True) ((new default).run heldBack)
      (((new default).run heldBack).after (.pass 200)) :=
    ⟨.pass 200, ⟨by simp, fun _ _ _ => hrest⟩, rfl, rfl⟩
  have hgo : Leads (liveMoves True) (((new default).run heldBack).after (.pass 200))
      ((((new default).run heldBack).after (.pass 200)).run letGo) :=
    leads_run (calm _ (by simp [letGo])) (by decide)
  have h := (hheld.tail hpass).trans hgo
  obtain ⟨g, sent, hg, -, hmatured, -, hsent⟩ :=
    Reached.no_premature_stop h _ 200 ⟨1, ⟨1⟩, .ok (.stop .noValidSession)⟩ (some 1) [] rfl
      .noValidSession rfl (by simp)
  cases hg
  rw [hsent trivial] at hmatured
  exact ⟨h, rfl, hmatured⟩

/-! ### Until the publication -/

/-- Runs over streams that do not complete: nothing with an end is arranged, and no account is
replaced. -/
def unendingMoves (w : World) (m : Move) : Prop :=
  (∀ a, m = .arrange a →
      a.sessions = none ∧ ∀ entry ∈ a.lists, ∀ items, entry.2 ≠ .script items) ∧
    ∀ u, m = .store (.register u) → w.store.find? u.id = none

/-- An account with a call. -/
def dora : SelfUser := ⟨⟨"dora", ""⟩, none, some "dora"⟩

def talk : Call := .new ⟨"room", ""⟩ ⟨"caller", ""⟩ .established

def talking : World :=
  ((new default).after (.store (.register dora))).after
    (.store (.account 0 (.list .established (.ok [talk]))))

/-- The account is signed in. -/
def signIn : Move := .store (.session (.ok (some (.valid dora.id))))

/-- The stop is sent after its window. Then the account is signed in and the pipeline comes to a
notification, before the controller goes on. -/
def delayed : List Move :=
  heldBack ++ [.pass 200, .go (.pipeline 1), .go (.pipeline 1), signIn, .pass 1]
    ++ List.replicate 5 (.go (.pipeline 1)) ++ [.pass 9]

/-- A list of the account is silent. The account is signed in within the window of the stop, which the
pipeline sees. -/
def silenced : List Move :=
  .arrange ⟨[], [((dora.id, .established), .silent)], none⟩ :: heldBack ++ [.pass 199, signIn]
    ++ List.replicate 4 (.go (.pipeline 1)) ++ [.pass 1, .go (.pipeline 1), .go (.pipeline 1)]

theorem delayed_unending : ∀ v, ∀ m ∈ delayed, unendingMoves v m := by
  simp [delayed, heldBack, signIn, unendingMoves]

theorem silenced_unending : ∀ v, ∀ m ∈ silenced, unendingMoves v m := by
  simp +contextual [silenced, heldBack, signIn, unendingMoves]

theorem leads_talking {moves : List Move} (hm : ∀ v, ∀ m ∈ moves, unendingMoves v m)
    (ha : talking.allowsRun (moves ++ [.go .controller]) = true) :
    Leads unendingMoves (new default) ((talking.run moves).after (.go .controller)) := by
  have hregister : Step unendingMoves (new default) ((new default).after (.store (.register dora))) :=
    ⟨_, ⟨by simp, fun u hu => by cases hu; rfl⟩, rfl, rfl⟩
  have hcall : Step unendingMoves ((new default).after (.store (.register dora))) talking :=
    ⟨_, by simp [unendingMoves], rfl, rfl⟩
  have hrun : Leads unendingMoves talking (talking.run (moves ++ [.go .controller])) := by
    refine leads_run (fun v m hmem => ?_) ha
    rcases List.mem_append.mp hmem with hmem | hmem
    · exact hm v m hmem
    · simp [unendingMoves, List.mem_singleton.mp hmem]
  rw [run, List.foldl_append] at hrun
  exact .head hregister (.head hcall hrun)

/-- **Sending is not publishing, and taking a session is not coming to a decision.** After a stop was
sent the pipeline may come to something else before the stop is published. And where the lists of an
account are silent, a stop for want of a valid session is published although the pipeline took the
session of the account within the window. -/
theorem not_heldBack_till_published :
    (¬ ∀ (config : EngineConfig) (w : World), 0 < config.stopDebounce →
      Leads unendingMoves (new config) w →
      EveryPublication (fun before n p source => ∀ r, p.result = .ok (.stop r) →
        r ≠ .actionStopCalled → ∃ g, source = some g ∧ (∃ k, (k, .began g p.ticket) ∈ before) ∧
          HeldBack (min config.stopDebounce Debounce.maxWindow) before g r n) w.chronicle) ∧
    ¬ ∀ (config : EngineConfig) (w : World), 0 < config.stopDebounce →
      Leads unendingMoves (new config) w →
      EveryPublication (fun before n p source => p.result = .ok (.stop .noValidSession) →
        ∃ g, source = some g ∧
          LoggedOut (min config.stopDebounce Debounce.maxWindow) before g n) w.chronicle := by
  constructor
  · intro h
    have hleads := leads_talking delayed_unending (by decide)
    obtain ⟨g, hg, -, since, hsteady, -⟩ :=
      h default _ (by decide) hleads (talking.run delayed).chronicle 210
        ⟨1, ⟨1⟩, .ok (.stop .noValidSession)⟩ (some 1) [] rfl .noValidSession rfl (by simp)
    cases hg
    have hlast : ((talking.run delayed).chronicle.filterMap (decision? 1)).getLast? =
        some (.update ⟨dora.id, talk, "dora"⟩) := rfl
    cases hsteady.eq_of_getLast? hlast
  · intro h
    have hleads := leads_talking silenced_unending (by decide)
    obtain ⟨g, hg, hout⟩ :=
      h default _ (by decide) hleads (talking.run silenced).chronicle 200
        ⟨1, ⟨1⟩, .ok (.stop .noValidSession)⟩ (some 1) [] rfl rfl
    cases hg
    exact hout.getLast?_ne rfl

end World

end CallWatch
