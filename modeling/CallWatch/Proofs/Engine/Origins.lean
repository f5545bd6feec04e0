import CallWatch.Proofs.Engine.Attempts
import CallWatch.Proofs.Engine.Publishing
import Mathlib.Data.List.Nodup

/-! # Where pipelines and attempts come from

Every pipeline was begun for a start that was processed, and every attempt to answer for a start that
asks for it. Generations are dense and tickets ascend, so no two pipelines and no two attempts were
begun for the same action.

`Originates e c` says so of an engine and its chronicle. -/

namespace CallWatch

open Chronicle

/-- The pipelines that were begun, each with the ticket of its action, in order. -/
def Chronicle.begun (c : Chronicle) : List (Nat × Ticket) :=
  c.filterMap fun entry => match entry.2 with
    | .began g t => some (g, t)
    | _ => none

@[simp] theorem Chronicle.begun_append (c c' : Chronicle) :
    begun (c ++ c') = begun c ++ begun c' := List.filterMap_append

theorem Chronicle.mem_begun {c : Chronicle} {g : Nat} {t : Ticket} :
    (g, t) ∈ c.begun ↔ ∃ n, (n, .began g t) ∈ c := by
  simp only [begun, List.mem_filterMap]
  constructor
  · rintro ⟨⟨n, o⟩, hmem, heq⟩
    cases o with
    | began => cases heq; exact ⟨n, hmem⟩
    | _ => cases heq
  · rintro ⟨n, hmem⟩
    exact ⟨_, hmem, rfl⟩

/-- No pipeline begins another. -/
theorem Pipeline.Steps.begun_eq_nil {s : Surroundings} {held : AccountRef → Bool} {p p' : Pipeline}
    {happened : List Occurrence} {output : Option PipelineOutput}
    (h : p.Steps s held p' happened output) (now : Nat) : begun (happened.map (now, ·)) = [] := by
  have decided (d : Option Decision) :
      begun ((d.toList.map fun d => Occurrence.decided p.generation d).map (now, ·)) = [] := by
    cases d <;> rfl
  cases h with
  | consume item => exact decided (p.decided? s held)
  | look => exact decided _
  | resolve => exact decided _
  | _ => rfl

/-- The pipeline of this generation was begun for an action that was processed, a start of this
kind. -/
def Chronicle.BeganFor (c : Chronicle) (g : Nat) (how : StartAction) : Prop :=
  ∃ t, (g, t) ∈ c.begun ∧ (t, .start how) ∈ c.processed

theorem Chronicle.BeganFor.append {c : Chronicle} {g : Nat} {how : StartAction}
    (h : c.BeganFor g how) (c' : Chronicle) : Chronicle.BeganFor (c ++ c') g how := by
  obtain ⟨t, hbegun, hproc⟩ := h
  exact ⟨t, by rw [begun_append]; exact List.mem_append_left _ hbegun,
    by rw [processed_append]; exact List.mem_append_left _ hproc⟩

namespace Engine

/-- This attempt was begun for an action. -/
def Attempts (e : Engine) (c : Chronicle) (a : Answering) (t : Ticket) : Prop :=
  a ∈ e.answerings ∧ ∃ g, a.generation = some g ∧ (g, t) ∈ c.begun

/-- How pipelines and attempts agree with the chronicle. -/
structure Originates (e : Engine) (c : Chronicle) : Prop where
  generations : c.begun.map (·.1) = List.range' 1 e.generation
  ascending : c.begun.Pairwise fun x y => x.2.number < y.2.number
  bounded : ∀ x ∈ c.begun, ∃ l, c.lastProcessed = some l ∧ x.2.number ≤ l.1.number
  awaited : ∀ t a, e.Handles t a → ∀ x ∈ c.begun, x.2.number < t.number
  pipelines : ∀ p ∈ e.pipelines, ∃ how, c.BeganFor p.generation how ∧ p.target = how.target?
  numbers : e.answerings.map (·.number) = List.range e.answerings.length
  distinct : (e.answerings.map (·.generation)).Nodup
  tuned : ∀ a ∈ e.answerings, a.bound = e.config.bindAnswerToPipeline
  attempts : ∀ a ∈ e.answerings, ∃ t, e.Attempts c a t ∧
    (t, .answer a.userId a.conversationId) ∈ c.processed
  attempted : ∀ t user conversation, (t, .answer user conversation) ∈ c.processed →
    e.Handles t (.answer user conversation) ∨ ∃ a, e.Attempts c a t ∧ a.userId = user ∧
      a.conversationId = conversation

theorem answerings_begin (e : Engine) (t : Ticket) (how : StartAction) :
    (e.begin t how).answerings = e.answerings ++ how.target?.toList.map fun target =>
      .new e.answerings.length target.userId target.conversationId e.config.bindAnswerToPipeline
        (some (e.generation + 1)) := by
  cases how
  · exact (List.append_nil _).symm
  · rfl

@[simp] theorem config_begin (e : Engine) (t : Ticket) (how : StartAction) :
    (e.begin t how).config = e.config := by cases how <;> rfl

theorem answerings_cancel (e : Engine) (g : Nat) :
    (e.cancel g).answerings.map Answering.identity = e.answerings.map Answering.identity := by
  simp only [cancel, List.map_map]
  refine List.map_congr_left fun a _ => ?_
  simp only [Function.comp_apply]
  split <;> rfl

/-- The controller leaves the attempts alone, cancels those of a pipeline, or begins one. -/
theorem Controls.answerings_cases {e e' : Engine} {happened : List Occurrence}
    (h : e.Controls e' happened) :
    e'.answerings = e.answerings ∨ (∃ g, e'.answerings = (e.cancel g).answerings) ∨
      ∃ t how, e'.answerings = (e.begin t how).answerings := by
  cases h with
  | fail o rest active => exact .inr (.inl ⟨active.generation, rfl⟩)
  | leave active => exact .inr (.inl ⟨active.generation, rfl⟩)
  | take active => exact .inr (.inl ⟨active.generation, rfl⟩)
  | takeStart t how rest =>
    refine .inr (.inr ⟨t, how, ?_⟩)
    rw [answerings_begin, answerings_begin]
    rfl
  | handleStart g t how =>
    refine .inr (.inr ⟨t, how, ?_⟩)
    rw [answerings_begin, answerings_begin]
    rfl
  | _ => exact .inl rfl

/-- An attempt that goes on is begun with what it was begun with. -/
theorem answerings_putAnswering {e : Engine} {n : Nat} {a a' : Answering}
    (hnodup : (e.answerings.map (·.number)).Nodup) (ha : e.answering? n = some a)
    (hid : a'.identity = a.identity) :
    (e.putAnswering a').answerings.map Answering.identity =
      e.answerings.map Answering.identity := by
  obtain ⟨hmem, -⟩ := mem_of_found ha
  have hnumber : a'.number = a.number := congrArg (·.1) hid
  simp only [putAnswering, List.map_map]
  refine List.map_congr_left fun b hb => ?_
  simp only [Function.comp_apply]
  split
  · next heq =>
    rw [hid, List.inj_on_of_nodup_map hnodup hb hmem (heq.trans hnumber)]
  · rfl

namespace Originates

variable {e : Engine} {c : Chronicle}

theorem new (config : EngineConfig) : (Engine.new config).Originates [] where
  generations := rfl
  ascending := by simp [begun]
  bounded := by simp [begun]
  awaited := by simp [begun]
  pipelines := by simp [Engine.new]
  numbers := rfl
  distinct := by simp [Engine.new]
  tuned := by simp [Engine.new]
  attempts := by simp [Engine.new]
  attempted := by simp [processed]

/-! ### What attempts were begun with -/

/-- Attempts that were begun with the same things are there on both sides. -/
theorem exists_identity {l l' : List Answering}
    (h : l'.map Answering.identity = l.map Answering.identity) {a : Answering} (ha : a ∈ l') :
    ∃ b ∈ l, a.identity = b.identity := by
  have hmem : a.identity ∈ l.map Answering.identity := h ▸ List.mem_map_of_mem ha
  obtain ⟨b, hb, heq⟩ := List.mem_map.mp hmem
  exact ⟨b, hb, heq.symm⟩

theorem map_of_identity {α : Type} {l l' : List Answering}
    (h : l'.map Answering.identity = l.map Answering.identity)
    (f : Nat × UserId × ConversationId × Bool × Option Nat → α) :
    l'.map (fun a => f a.identity) = l.map fun a => f a.identity := by
  have := congrArg (List.map f) h
  simpa only [List.map_map, Function.comp_def] using this

/-- What begins nothing and processes nothing keeps the origins, if the controller has nothing new to
handle and forgets no answer. -/
theorem of_frame (h : e.Originates c) (e' : Engine) (c' : Chronicle) (hproc : processed c' = [])
    (hbegun : begun c' = []) (hgen : e'.generation = e.generation) (hconfig : e'.config = e.config)
    (hcon : ∀ t a, e'.Handles t a → e.Handles t a)
    (hanswer : ∀ t user conversation, e.Handles t (.answer user conversation) →
      e'.Handles t (.answer user conversation))
    (hpipelines : ∀ q ∈ e'.pipelines,
      ∃ p ∈ e.pipelines, q.generation = p.generation ∧ q.target = p.target)
    (hanswerings : e'.answerings.map Answering.identity = e.answerings.map Answering.identity) :
    e'.Originates (c ++ c') := by
  have hlast := lastProcessed_append_of_processed_eq_nil c hproc
  have hlength : e'.answerings.length = e.answerings.length := by
    simpa using congrArg List.length hanswerings
  have hb : begun (c ++ c') = begun c := by rw [begun_append, hbegun, List.append_nil]
  have hp : processed (c ++ c') = processed c := by rw [processed_append, hproc, List.append_nil]
  constructor
  case generations =>
    rw [hb, hgen]
    exact h.generations
  case ascending =>
    rw [hb]
    exact h.ascending
  case bounded =>
    rw [hb, hlast]
    exact h.bounded
  case awaited =>
    rw [hb]
    exact fun t a ht => h.awaited t a (hcon t a ht)
  case pipelines =>
    intro q hq
    obtain ⟨p, hp, hg, htarget⟩ := hpipelines q hq
    obtain ⟨how, hbegan, heq⟩ := h.pipelines p hp
    rw [hg, htarget]
    exact ⟨how, hbegan.append c', heq⟩
  case numbers =>
    rw [hlength, ← h.numbers]
    exact map_of_identity hanswerings (·.1)
  case distinct =>
    have : (e'.answerings.map (·.generation)) = e.answerings.map (·.generation) :=
      map_of_identity hanswerings (·.2.2.2.2)
    rw [this]
    exact h.distinct
  case tuned =>
    intro a ha
    obtain ⟨b, hb, heq⟩ := exists_identity hanswerings ha
    rw [show a.bound = b.bound from congrArg (·.2.2.2.1) heq, hconfig]
    exact h.tuned b hb
  case attempts =>
    intro a ha
    obtain ⟨b, hmem, heq⟩ := exists_identity hanswerings ha
    obtain ⟨t, ⟨-, g, hg, hbegan⟩, hdone⟩ := h.attempts b hmem
    simp only [Answering.identity, Prod.mk.injEq] at heq
    rw [hp, heq.2.1, heq.2.2.1]
    exact ⟨t, ⟨ha, g, heq.2.2.2.2.trans hg, hb ▸ hbegan⟩, hdone⟩
  case attempted =>
    intro t user conversation ht
    rw [hp] at ht
    refine (h.attempted t user conversation ht).imp (hanswer t user conversation) ?_
    rintro ⟨a, ⟨hmem, g, hg, hbegan⟩, huser, hconversation⟩
    obtain ⟨b, hmem', heq⟩ := exists_identity hanswerings.symm hmem
    simp only [Answering.identity, Prod.mk.injEq] at heq
    exact ⟨b, ⟨hmem', g, heq.2.2.2.2.symm.trans hg, hb ▸ hbegan⟩, heq.2.1.symm.trans huser,
      heq.2.2.1.symm.trans hconversation⟩

/-- Everything was begun for an action before the one that is taken next. -/
theorem lt_of_begun (h : e.Originates c) (hacc : e.Accounts c) {t : Ticket} {a : Action}
    {rest : List (Ticket × Action)} (hq : e.queue.items = (t, a) :: rest) {x : Nat × Ticket}
    (hx : x ∈ c.begun) : x.2.number < t.number := by
  obtain ⟨l, hl, hle⟩ := h.bounded x hx
  have hasc := hacc.ascending
  rw [hq, List.pairwise_append] at hasc
  exact Nat.lt_of_le_of_lt hle
    (hasc.2.2 l (List.mem_of_getLast? hl) (t, a) List.mem_cons_self)

/-- Taking an action that is to be handled once the previous pipeline is gone. -/
theorem take (h : e.Originates c) (hacc : e.Accounts c) (e' : Engine) {t : Ticket} {a : Action}
    {rest : List (Ticket × Action)} (hq : e.queue.items = (t, a) :: rest)
    (hfree : ∀ t a, ¬ e.Handles t a) (hgen : e'.generation = e.generation)
    (hconfig : e'.config = e.config) {g : Nat} (hcon : e'.controller = .retiring g (.handle t a))
    (hpipelines : ∀ q ∈ e'.pipelines,
      ∃ p ∈ e.pipelines, q.generation = p.generation ∧ q.target = p.target)
    (hanswerings : e'.answerings.map Answering.identity = e.answerings.map Answering.identity)
    (now : Nat) : e'.Originates (c ++ [(now, .processed t a)]) := by
  -- Apart from what is handled now and what was processed, nothing changes.
  have hframe : ({ e' with controller := e.controller } : Engine).Originates (c ++ []) :=
    h.of_frame _ [] rfl rfl hgen hconfig (fun _ _ h => h) (fun _ _ _ h => h) hpipelines hanswerings
  rw [List.append_nil] at hframe
  have hb : begun (c ++ [(now, .processed t a)]) = begun c := by
    rw [begun_append]; exact List.append_nil _
  have hp : processed (c ++ [(now, .processed t a)]) = processed c ++ [(t, a)] := by
    rw [processed_append]; rfl
  have hlast := lastProcessed_append_processed c [] now t a rfl
  have hhandles {t' a'} (ht : e'.Handles t' a') : t' = t ∧ a' = a := by
    obtain ⟨g', hg'⟩ := ht
    rw [hcon] at hg'
    cases hg'
    exact ⟨rfl, rfl⟩
  constructor
  case generations =>
    rw [hb]
    exact hframe.generations
  case ascending =>
    rw [hb]
    exact h.ascending
  case bounded =>
    intro x hx
    rw [hb] at hx
    exact ⟨(t, a), hlast, Nat.le_of_lt (h.lt_of_begun hacc hq hx)⟩
  case awaited =>
    intro t' a' ht x hx
    obtain ⟨rfl, -⟩ := hhandles ht
    rw [hb] at hx
    exact h.lt_of_begun hacc hq hx
  case pipelines =>
    intro q hmem
    obtain ⟨how, hbegan, heq⟩ := hframe.pipelines q hmem
    exact ⟨how, hbegan.append _, heq⟩
  case numbers =>
    exact hframe.numbers
  case distinct =>
    exact hframe.distinct
  case tuned =>
    exact hframe.tuned
  case attempts =>
    intro b hmem
    obtain ⟨t', ⟨-, hbegan⟩, hdone⟩ := hframe.attempts b hmem
    exact ⟨t', ⟨hmem, hb ▸ hbegan⟩, hp ▸ List.mem_append_left _ hdone⟩
  case attempted =>
    intro t' user conversation ht
    rw [hp] at ht
    rcases List.mem_append.mp ht with ht | ht
    · rcases hframe.attempted t' user conversation ht with hh | ⟨b, ⟨hmem, hbegan⟩, hwhat⟩
      · exact absurd hh (hfree t' _)
      · exact .inr ⟨b, ⟨hmem, hb ▸ hbegan⟩, hwhat⟩
    · cases List.mem_singleton.mp ht
      exact .inl ⟨g, hcon⟩

/-- Beginning the pipeline of a start that was to be handled, and the attempt that belongs to it. -/
theorem begin (h : e.Originates c) (hacc : e.Accounts c) (e' : Engine) {t : Ticket}
    {how : StartAction} (ht : e.Handles t (.start how)) (hgen : e'.generation = e.generation + 1)
    (hconfig : e'.config = e.config) (hcon : ∀ t a, ¬ e'.Handles t a)
    (hpipelines : e'.pipelines = (e.begin t how).pipelines)
    (hanswerings : e'.answerings = (e.begin t how).answerings) (now : Nat) :
    e'.Originates (c ++ [(now, .began (e.generation + 1) t)]) := by
  obtain ⟨hlast, -⟩ := hacc.handles t _ ht
  obtain ⟨g, hg⟩ := ht
  set c' := c ++ [(now, Occurrence.began (e.generation + 1) t)] with hc'
  have hb : begun c' = begun c ++ [(e.generation + 1, t)] := by rw [hc', begun_append]; rfl
  have hp : processed c' = processed c := by rw [hc', processed_append]; exact List.append_nil _
  have hlast' : c'.lastProcessed = c.lastProcessed :=
    lastProcessed_append_of_processed_eq_nil c rfl
  have hnew : (e.generation + 1, t) ∈ begun c' := hb ▸ List.mem_append_right _ (by simp)
  have hdone : (t, .start how) ∈ processed c' := hp ▸ List.mem_of_getLast? hlast
  have hkept {a t'} (ha : e.Attempts c a t') : e'.Attempts c' a t' := by
    obtain ⟨hmem, g', hg', hbegan⟩ := ha
    refine ⟨?_, g', hg', hb ▸ List.mem_append_left _ hbegan⟩
    rw [hanswerings, answerings_begin]
    exact List.mem_append_left _ hmem
  have hold : ∀ a ∈ e.answerings, a.generation ≠ some (e.generation + 1) := by
    intro a ha heq
    obtain ⟨t', ⟨-, g', hg', hbegan⟩, -⟩ := h.attempts a ha
    have hmem : g' ∈ (begun c).map (·.1) := List.mem_map_of_mem hbegan
    rw [h.generations, List.mem_range'_1] at hmem
    rw [hg'] at heq
    cases heq
    omega
  constructor
  case generations =>
    rw [hb, hgen, List.map_append, h.generations, List.range'_1_concat, Nat.add_comm 1]
    rfl
  case ascending =>
    rw [hb, List.pairwise_append]
    refine ⟨h.ascending, List.pairwise_singleton _ _, fun x hx y hy => ?_⟩
    obtain rfl := List.mem_singleton.mp hy
    exact h.awaited t _ ⟨g, hg⟩ x hx
  case bounded =>
    intro x hx
    rw [hlast']
    rw [hb] at hx
    rcases List.mem_append.mp hx with hx | hx
    · exact h.bounded x hx
    · obtain rfl := List.mem_singleton.mp hx
      exact ⟨_, hlast, Nat.le_refl _⟩
  case awaited =>
    exact fun t' a' ht' => absurd ht' (hcon t' a')
  case pipelines =>
    intro q hq
    rw [hpipelines, pipelines_begin] at hq
    rcases List.mem_append.mp hq with hq | hq
    · obtain ⟨how', hbegan, heq⟩ := h.pipelines q hq
      exact ⟨how', hbegan.append _, heq⟩
    · obtain rfl := List.mem_singleton.mp hq
      exact ⟨how, ⟨t, hnew, hdone⟩, rfl⟩
  case numbers =>
    rw [hanswerings, answerings_begin, List.map_append, h.numbers]
    rcases how.target? with _ | target
    · simp
    · simp [List.range_succ, Answering.new]
  case distinct =>
    rw [hanswerings, answerings_begin, List.map_append, List.nodup_append]
    refine ⟨h.distinct, ?_, ?_⟩
    · rcases how.target? with _ | target <;> simp
    · intro x hx y hy
      obtain ⟨a, ha, rfl⟩ := List.mem_map.mp hx
      rcases htarget : how.target? with _ | target
      · simp [htarget] at hy
      · have hy' : y = some (e.generation + 1) := by
          simpa [htarget, Answering.new] using hy
        rw [hy']
        exact hold a ha
  case tuned =>
    intro a ha
    rw [hanswerings, answerings_begin] at ha
    rw [hconfig]
    rcases List.mem_append.mp ha with ha | ha
    · exact h.tuned a ha
    · obtain ⟨target, -, rfl⟩ := List.mem_map.mp ha
      rfl
  case attempts =>
    intro a ha
    rw [hanswerings, answerings_begin] at ha
    rcases List.mem_append.mp ha with hold | hnewest
    · obtain ⟨t', hattempts, hd⟩ := h.attempts a hold
      exact ⟨t', hkept hattempts, hp ▸ hd⟩
    · obtain ⟨target, htarget, rfl⟩ := List.mem_map.mp hnewest
      refine ⟨t, ⟨?_, e.generation + 1, rfl, hnew⟩, ?_⟩
      · rw [hanswerings, answerings_begin]
        exact ha
      · rcases how with _ | ⟨user, conversation⟩
        · cases htarget
        · cases List.mem_singleton.mp htarget
          exact hdone
  case attempted =>
    intro t' user conversation ht'
    rw [hp] at ht'
    refine .inr ?_
    rcases h.attempted t' user conversation ht' with ⟨g', hg'⟩ | ⟨a, ha, hwhat⟩
    · rw [hg] at hg'
      cases hg'
      refine ⟨.new e.answerings.length user conversation e.config.bindAnswerToPipeline
        (some (e.generation + 1)), ⟨?_, e.generation + 1, rfl, hnew⟩, rfl, rfl⟩
      rw [hanswerings, answerings_begin]
      exact List.mem_append_right _ (List.mem_singleton.mpr rfl)
    · exact ⟨a, hkept ha, hwhat⟩

/-! ### The origins are kept -/

theorem controls (h : e.Originates c) (hacc : e.Accounts c) {e' : Engine}
    {happened : List Occurrence} (hstep : e.Controls e' happened) (now : Nat) :
    e'.Originates (c ++ happened.map (now, ·)) := by
  have listening {e : Engine} (hc : e.controller = .listening) (t : Ticket) (a : Action) :
      ¬ e.Handles t a := Accounts.not_handles_of_ne (by simp [hc]) t a
  have cancelled {f : Engine} (hf : f.pipelines = e.pipelines) {g : Nat} {q : Pipeline}
      (hq : q ∈ (f.cancel g).pipelines) :
      ∃ p ∈ e.pipelines, q.generation = p.generation ∧ q.target = p.target := by
    obtain ⟨p, hp, rfl⟩ := mem_pipelines_cancel hq
    refine ⟨p, hf ▸ hp, ?_⟩
    split <;> exact ⟨rfl, rfl⟩
  have same (q) (hq : q ∈ e.pipelines) :
      ∃ p ∈ e.pipelines, q.generation = p.generation ∧ q.target = p.target := ⟨q, hq, rfl, rfl⟩
  -- What neither begins nor processes anything, with the controller at nothing to be handled.
  have quiet (e' : Engine) (c' : Chronicle) (hproc : processed c' = []) (hbegun : begun c' = [])
      (hgen : e'.generation = e.generation) (hconfig : e'.config = e.config)
      (hfree : ∀ t a, ¬ e'.Handles t a)
      (hanswer : ∀ t user conversation, ¬ e.Handles t (.answer user conversation))
      (hpipelines : ∀ q ∈ e'.pipelines,
        ∃ p ∈ e.pipelines, q.generation = p.generation ∧ q.target = p.target)
      (hanswerings : e'.answerings.map Answering.identity = e.answerings.map Answering.identity) :
      e'.Originates (c ++ c') :=
    h.of_frame e' c' hproc hbegun hgen hconfig (fun t a ht => absurd ht (hfree t a))
      (fun t user conversation ht => absurd ht (hanswer t user conversation)) hpipelines hanswerings
  have free {e : Engine} (hc : ∀ g t a, e.controller ≠ .retiring g (.handle t a)) (t : Ticket)
      (a : Action) : ¬ e.Handles t a := fun ⟨g, hg⟩ => hc g t a hg
  cases hstep with
  | idle => exact h.of_frame e [] rfl rfl rfl rfl (fun _ _ h => h) (fun _ _ _ h => h) same rfl
  | drop o rest hc =>
    exact quiet _ [] rfl rfl rfl rfl (listening hc) (fun t _ _ => listening hc t _) same rfl
  | pass o rest active d hc =>
    exact quiet _ _ rfl rfl rfl rfl (listening hc) (fun t _ _ => listening hc t _) same rfl
  | fail o rest active error hc =>
    exact quiet _ _ rfl rfl rfl rfl (free (by simp [dismiss])) (fun t _ _ => listening hc t _)
      (fun _ => cancelled rfl) (answerings_cancel _ _)
  | leave active hc =>
    exact quiet _ _ rfl rfl rfl rfl (free (by simp [dismiss])) (fun t _ _ => listening hc t _)
      (fun _ => cancelled rfl) (answerings_cancel _ _)
  | quit hc =>
    exact quiet _ _ rfl rfl rfl rfl (free (by simp)) (fun t _ _ => listening hc t _) same rfl
  | take active t a rest hc hs hq hcur =>
    exact h.take hacc ((e.withoutFirst rest).dismiss active (.handle t a)) hq (listening hc) rfl rfl
      rfl (fun _ => cancelled rfl) (answerings_cancel _ _) now
  | takeStop t rest hc hs hq hcur =>
    have hpaused : (Accounts.pausing e rest t .stop).Originates (c ++ [(now, .processed t .stop)]) :=
      h.take hacc (Accounts.pausing e rest t .stop) hq (listening hc) rfl rfl rfl same rfl now
    have := hpaused.of_frame ((e.withoutFirst rest).announce t (.ok (.stop .actionStopCalled)))
      [(now, .published (e.nextPublication t (.ok (.stop .actionStopCalled))) none)] rfl rfl rfl rfl
      (fun t a ht => absurd ht (listening hc t a)) (by rintro t' user conversation ⟨g, hg⟩; cases hg)
      same rfl
    simpa [List.append_assoc] using this
  | takeStart t how rest hc hs hq hcur =>
    have hpaused : (Accounts.pausing e rest t (.start how)).Originates
        (c ++ [(now, .processed t (.start how))]) :=
      h.take hacc (Accounts.pausing e rest t (.start how)) hq (listening hc) rfl rfl rfl same rfl now
    have hpausedAcc : (Accounts.pausing e rest t (.start how)).Accounts
        (c ++ [(now, .processed t (.start how))]) :=
      hacc.take (Accounts.pausing e rest t (.start how)) hq (listening hc) rfl rfl rfl rfl rfl rfl now
    have : ((e.withoutFirst rest).begin t how).Originates (c ++ [(now, .processed t (.start how))]
        ++ [(now, .began (e.generation + 1) t)]) :=
      hpaused.begin hpausedAcc ((e.withoutFirst rest).begin t how) ⟨_, rfl⟩
        (generation_begin _ _ _) (config_begin _ _ _)
        (listening ((controller_begin _ _ _).trans hc))
        (by rw [pipelines_begin, pipelines_begin]; rfl)
        (by rw [answerings_begin, answerings_begin]; rfl) now
    simpa [List.append_assoc] using this
  | handleStop g t hc =>
    refine quiet _ _ rfl rfl rfl rfl (listening rfl) ?_ same rfl
    rintro t' user conversation ⟨g', hg'⟩
    rw [hc] at hg'
    cases hg'
  | handleStart g t how hc =>
    exact h.begin hacc (e.listening.begin t how) ⟨g, hc⟩ (generation_begin _ _ _)
      (config_begin _ _ _) (listening (controller_begin _ _ _))
      (by rw [pipelines_begin, pipelines_begin]; rfl)
      (by rw [answerings_begin, answerings_begin]; rfl) now
  | resume g hc =>
    exact quiet _ _ rfl rfl rfl rfl (listening rfl) (fun t _ _ => free (by simp [hc]) t _) same rfl
  | finish g hc =>
    exact quiet _ _ rfl rfl rfl rfl (free (by simp)) (fun t _ _ => free (by simp [hc]) t _) same rfl

theorem outside (h : e.Originates c) {e' : Engine} {m : Move} {happened : List Occurrence}
    (hstep : e.Outside m e' happened) (now : Nat) :
    e'.Originates (c ++ happened.map (now, ·)) := by
  have same (q) (hq : q ∈ e.pipelines) :
      ∃ p ∈ e.pipelines, q.generation = p.generation ∧ q.target = p.target := ⟨q, hq, rfl, rfl⟩
  cases hstep with
  | start hc =>
    refine h.of_frame _ [] rfl rfl rfl rfl ?_ ?_ same rfl
    · rintro t a ⟨g, hg⟩
      cases hg
    · rintro t user conversation ⟨g, hg⟩
      rw [hc] at hg
      cases hg
  | _ => exact h.of_frame _ _ rfl rfl rfl rfl (fun _ _ h => h) (fun _ _ _ h => h) same rfl

/-! ### One pipeline and one attempt for an action -/

theorem nodup_begun (h : e.Originates c) : (c.begun.map (·.2)).Nodup := by
  rw [List.Nodup, List.pairwise_map]
  refine h.ascending.imp fun {x y} hlt heq => ?_
  rw [heq] at hlt
  exact Nat.lt_irrefl _ hlt

/-- Two attempts that were begun for one action are the same. -/
theorem attempt_unique (h : e.Originates c) {a b : Answering} {t : Ticket}
    (ha : e.Attempts c a t) (hb : e.Attempts c b t) : a = b := by
  obtain ⟨hmem, g, hg, hbegan⟩ := ha
  obtain ⟨hmem', g', hg', hbegan'⟩ := hb
  have hsame : (g, t) = (g', t) := List.inj_on_of_nodup_map h.nodup_begun hbegan hbegan' rfl
  obtain ⟨rfl, -⟩ := Prod.mk.inj hsame
  exact List.inj_on_of_nodup_map h.distinct hmem hmem' (hg.trans hg'.symm)

end Originates

end Engine

namespace World

theorem Moves.originates {w w' : World} {m : Move} {happened : List Occurrence}
    (ho : w.engine.Orderly) (hacc : w.engine.Accounts w.chronicle)
    (h : w.engine.Originates w.chronicle) (hstep : w.Moves m w' happened) :
    (w'.noting w.now happened).engine.Originates (w'.noting w.now happened).chronicle := by
  cases hstep with
  | outside _ e' _ hout => exact h.outside hout w.now
  | store => simpa [noting] using h
  | arrange => simpa [noting] using h
  | pass => simpa [noting] using h
  | control e' _ _ hcon => exact h.controls hacc hcon w.now
  | pipeline g p p' _ output hp _ hsteps =>
    refine h.of_frame (w.engine.advancePipeline p' output) _ (hsteps.readings w.now).1
      (hsteps.begun_eq_nil w.now) rfl rfl (fun _ _ h => h) (fun _ _ _ h => h) (fun q hq => ?_) rfl
    obtain ⟨rfl, -⟩ := ho.mem_advancePipeline hp hsteps.identity hq
    exact ⟨p, (Engine.pipeline?_mem hp).1, congrArg (·.1) hsteps.identity,
      congrArg (·.2.1) hsteps.identity⟩
  | answering n a ha =>
    have hnumbers : (w.engine.answerings.map (·.number)).Nodup := by
      rw [h.numbers]
      exact List.nodup_range
    exact h.of_frame _ [] rfl rfl rfl rfl (fun _ _ h => h) (fun _ _ _ h => h)
      (fun q hq => ⟨q, hq, rfl, rfl⟩)
      (Engine.answerings_putAnswering hnumbers ha (a.steps w.surroundings w.engine.holds).identity)

theorem Reached.originates {config : EngineConfig} {w : World} (h : Reached config w) :
    w.engine.Originates w.chronicle :=
  Leads.keeps_reached (I := fun w => w.engine.Originates w.chronicle)
    (fun _ _ _ _ hw hi _ hstep => hstep.originates hw.orderly hw.accounts hi) .refl h (.new config)

end World

end CallWatch
