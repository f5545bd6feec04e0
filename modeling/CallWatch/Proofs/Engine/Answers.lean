import CallWatch.Proofs.Engine.Convergence
import CallWatch.Proofs.Engine.Notes
import CallWatch.Proofs.Engine.Origins

/-! # Answering is done once

An answer takes effect in one move of its attempt, which is noted at the account. The notes of all
accounts together are these effects in order; each effect belongs to an attempt of its own, and each
attempt to an action that was processed. Before its effect an attempt has passed its check, and one
that has passed it and is not given up comes to its effect when the delay is over. -/

namespace CallWatch

/-! ### All attempts -/

/-- Attempts are numbered one after the other, so each of them is found. -/
theorem Engine.answering?_of_mem {e : Engine}
    (hnumbers : e.answerings.map (·.number) = List.range e.answerings.length) {a : Answering}
    (ha : a ∈ e.answerings) : e.answering? a.number = some a :=
  found_of_mem (hnumbers ▸ List.nodup_range) ha

/-- An attempt in its new state is found where it was. -/
theorem Engine.answering?_putAnswering {e : Engine} {n : Nat} {a a' : Answering}
    (h : e.answering? n = some a) (hnumber : a'.number = a.number) :
    (e.putAnswering a').answering? n = some a' := by
  obtain ⟨-, rfl⟩ := mem_of_found h
  simp only [answering?, putAnswering, hnumber]
  exact found_replaced h hnumber

/-- The controller leaves attempts at what they are at, and at most begins one more. -/
theorem Engine.Controls.answerings {e e' : Engine} {happened : List Occurrence}
    (h : e.Controls e' happened) :
    e.answerings.length ≤ e'.answerings.length ∧ ∀ a ∈ e'.answerings,
      (∃ b ∈ e.answerings, a.stage = b.stage ∧ a.identity = b.identity) ∨
        a.number = e.answerings.length ∧ a.stage = .spawned := by
  rcases h.answerings_cases with heq | ⟨g, heq⟩ | ⟨t, how, heq⟩
  · rw [heq]
    exact ⟨Nat.le_refl _, fun a ha => .inl ⟨a, ha, rfl, rfl⟩⟩
  · rw [heq]
    refine ⟨by simp [cancel], fun a ha => .inl ?_⟩
    obtain ⟨b, hb, rfl⟩ := List.mem_map.mp ha
    refine ⟨b, hb, ?_⟩
    split <;> exact ⟨rfl, rfl⟩
  · rw [heq, answerings_begin]
    refine ⟨by simp, fun a ha => ?_⟩
    rcases List.mem_append.mp ha with ha | ha
    · exact .inl ⟨a, ha, rfl, rfl⟩
    · obtain ⟨target, -, rfl⟩ := List.mem_map.mp ha
      exact .inr ⟨rfl, rfl⟩

namespace World

open Answering

/-- Runs over a store that answers at once and truly. `atOnce` also leaves no pause in the middle of
what an attempt reads. -/
def answeringMoves (atOnce : Prop) (w : World) (m : Move) : Prop :=
  m.isArrangement = false ∧
    (atOnce → ∀ a ∈ w.engine.answerings, a.isReading = true → m.isTurnOf a.number = true)

instance (atOnce : Prop) [Decidable atOnce] (w : World) (m : Move) :
    Decidable (answeringMoves atOnce w m) := inferInstanceAs (Decidable (_ ∧ _))

/-- How the accounts and the attempts agree with the history. -/
structure Answers (atOnce : Prop) (h : History) (w : World) : Prop where
  arrangement : w.arrangement = .none
  grounded : w.store.Grounded
  noted : ∀ ref account, w.store.account? ref = some account →
    account.answered = (h.effects.filter (·.account = ref)).map (·.attempt.conversationId)
  known : ∀ e ∈ h.effects, e.account < w.store.accounts.length
  unseen : ∀ n, w.engine.answerings.length ≤ n → h.trials n = []
  stands : ∀ a ∈ w.engine.answerings,
    Stands atOnce w.now w.store (h.trials a.number) (h.effectsOf a.number) a

namespace Answers

variable {atOnce : Prop} {h : History} {w : World}

theorem new (atOnce : Prop) (config : EngineConfig) : (World.new config).Answers atOnce [] where
  arrangement := rfl
  grounded := by simp [Store.Grounded, Store.find?, World.new, Store.empty]
  noted := by simp [Store.account?, World.new, Store.empty]
  known := by simp [History.effects]
  unseen := by simp [History.trials]
  stands := by simp [World.new, Engine.new]

/-- A move that is no turn of any attempt: attempts stay at what they are at, apart from one that may
be begun. -/
theorem of_quiet (hi : w.Answers atOnce h) {m : Move} {w' : World}
    (hm : ∀ n, m ≠ .go (.answering n)) (harr : w'.arrangement = .none) (hnow : w.now ≤ w'.now)
    (hground : w'.store.Grounded) (hlength : w.store.accounts.length ≤ w'.store.accounts.length)
    (hnotes : w'.store.Notes (h ++ [(w, m)]))
    (hstore : atOnce → ∀ a ∈ w.engine.answerings, a.isReading = true → w'.store = w.store)
    (hmore : w.engine.answerings.length ≤ w'.engine.answerings.length)
    (hanswerings : ∀ a ∈ w'.engine.answerings,
      (∃ b ∈ w.engine.answerings, a.stage = b.stage ∧ a.identity = b.identity) ∨
        a.number = w.engine.answerings.length ∧ a.stage = .spawned) :
    w'.Answers atOnce (h ++ [(w, m)]) := by
  have htrial (n : Nat) : w.trial? n m = none := by
    unfold trial?
    split
    · exact absurd rfl (hm _)
    · rfl
  have htrials (n : Nat) : History.trials (h ++ [(w, m)]) n = h.trials n := by
    simp [History.trials_step, htrial]
  have heffectsOf (n : Nat) : History.effectsOf (h ++ [(w, m)]) n = h.effectsOf n := by
    simp [History.effectsOf_step, effect?_eq_none_of_ne hm]
  refine ⟨harr, hground, hnotes.noted, hnotes.known, ?_, fun a ha => ?_⟩
  · intro n hn
    rw [htrials]
    exact hi.unseen n (Nat.le_trans hmore hn)
  · rw [htrials, heffectsOf]
    rcases hanswerings a ha with ⟨b, hb, hstage, hid⟩ | ⟨hnumber, hstage⟩
    · have hnumber : a.number = b.number := congrArg (·.1) hid
      rw [hnumber]
      exact (hi.stands b hb).later hnow hlength (fun hat => hstore hat b hb) hstage hid
    · have hnone := hi.unseen a.number (Nat.le_of_eq hnumber.symm)
      rw [hnone, History.effectsOf_eq_nil hnone]
      simp only [Stands, hstage]
      exact ⟨rfl, by simp, rfl⟩

/-- The turn of an attempt. -/
theorem turn (hi : w.Answers atOnce h) {n : Nat} (hm : answeringMoves atOnce w (.go (.answering n)))
    (hnumbers : w.engine.answerings.map (·.number) = List.range w.engine.answerings.length)
    {a a' : Answering} {store : Store} (ha : w.engine.answering? n = some a)
    (hready : a.isReady w.surroundings w.engine.holds = true)
    (hsteps : a.Steps w.surroundings w.engine.holds store a')
    (hnotes : store.Notes (h ++ [(w, .go (.answering n))])) (chronicle : Chronicle) :
    ({ w with store, engine := w.engine.putAnswering a', chronicle } : World).Answers atOnce
      (h ++ [(w, .go (.answering n))]) := by
  obtain ⟨hmem, rfl⟩ := mem_of_found ha
  have hlt : a.number < w.engine.answerings.length :=
    List.mem_range.mp (hnumbers ▸ List.mem_map_of_mem hmem)
  have hnumber : a'.number = a.number := congrArg (·.1) hsteps.identity
  have htrial : w.trial? a.number (.go (.answering a.number)) = some ⟨w, a⟩ := by
    simp [trial?, ha]
  have heffect : w.effect? (.go (.answering a.number)) = a.effect? w.surroundings := by
    simp [effect?, ha]
  have hother {k : Nat} (hk : a.number ≠ k) :
      History.trials (h ++ [(w, .go (.answering a.number))]) k = h.trials k := by
    simp [History.trials_step, trial?, hk]
  have hstore : store.Grounded ∧ store.accounts.length = w.store.accounts.length := by
    rcases hsteps.effect_or with ⟨rfl, -⟩ | ⟨ref, account, -, -, rfl, -⟩
    · exact ⟨hi.grounded, rfl⟩
    · exact ⟨hi.grounded.modify _ _, Store.length_modify ..⟩
  refine ⟨hi.arrangement, hstore.1, hnotes.noted, hnotes.known, fun k hk => ?_, fun q hq => ?_⟩
  · have hlength : (w.engine.putAnswering a').answerings.length = w.engine.answerings.length :=
      List.length_map _
    replace hk : w.engine.answerings.length ≤ k := hlength ▸ hk
    rw [hother (by omega)]
    exact hi.unseen k hk
  · obtain ⟨b, hb, rfl⟩ := List.mem_map.mp hq
    split
    · -- The attempt whose turn it is.
      rw [hnumber, History.trials_step, History.effectsOf_step, htrial, heffect, filter_effect?,
        if_pos rfl]
      exact (hi.stands a hmem).own hi.arrangement hi.grounded hready hsteps
    · next hne =>
      -- Any other one, which is not in the middle of what is read at once.
      replace hne : a.number ≠ b.number := fun heq => hne (heq.symm.trans hnumber.symm)
      rw [hother hne, History.effectsOf_step, heffect, filter_effect?, if_neg hne, List.append_nil]
      refine (hi.stands b hb).later (Nat.le_refl _) (Nat.le_of_eq hstore.2.symm) ?_ rfl rfl
      intro hat hreading
      have hown : a.number = b.number := by simpa [Move.isTurnOf] using hm.2 hat b hb hreading
      exact absurd hown hne

/-- An effect is the only one of its attempt, which has read everything that its check asks for. -/
theorem of_effect (hi : w.Answers atOnce h)
    (hnumbers : w.engine.answerings.map (·.number) = List.range w.engine.answerings.length)
    {e : Effect} (he : e ∈ h.effects) :
    ∃ a ∈ w.engine.answerings, a.identity = e.attempt.identity ∧ h.effectsOf a.number = [e] ∧
      Checked atOnce (h.trials a.number) a.userId a.conversationId e.account := by
  have hof : e ∈ h.effectsOf e.attempt.number := List.mem_filter.mpr ⟨he, by simp⟩
  have hlt : e.attempt.number < w.engine.answerings.length := by
    by_contra hge
    have hnone := History.effectsOf_eq_nil (hi.unseen e.attempt.number (Nat.le_of_not_lt hge))
    rw [hnone] at hof
    cases hof
  have hmem : e.attempt.number ∈ w.engine.answerings.map (·.number) :=
    hnumbers ▸ List.mem_range.mpr hlt
  obtain ⟨a, ha, hnumber⟩ := List.mem_map.mp hmem
  have hstands := hi.stands a ha
  rw [← hnumber] at hof
  have hsome : h.effectsOf a.number ≠ [] := List.ne_nil_of_mem hof
  rcases hs : a.stage with _ | _ | _ | _ | _ | _ | outcome
  case done =>
    simp only [Stands, hs] at hstands
    rcases hstands with ⟨hnone, -⟩ | ⟨e', hone, hid, hchecked, -⟩
    · exact absurd hnone hsome
    · rw [hone] at hof
      obtain rfl := List.mem_singleton.mp hof
      exact ⟨a, ha, hid.symm, hone, hchecked⟩
  all_goals exact absurd (hstands.effects_eq_nil (by simp [hs])) hsome

/-- No attempt has two effects. -/
theorem length_effectsOf_le (hi : w.Answers atOnce h)
    (hnumbers : w.engine.answerings.map (·.number) = List.range w.engine.answerings.length)
    (n : Nat) : (h.effectsOf n).length ≤ 1 := by
  rcases hof : h.effectsOf n with _ | ⟨e, rest⟩
  · exact Nat.zero_le _
  · obtain ⟨he, hn⟩ := List.mem_filter.mp (hof ▸ List.mem_cons_self : e ∈ h.effectsOf n)
    obtain ⟨a, -, hid, hone, -⟩ := hi.of_effect hnumbers he
    have hnumber : a.number = n := (congrArg (·.1) hid).trans (of_decide_eq_true hn)
    rw [← hof, ← hnumber, hone]
    exact Nat.le_refl _

theorem nodup_effects (hi : w.Answers atOnce h)
    (hnumbers : w.engine.answerings.map (·.number) = List.range w.engine.answerings.length) :
    (h.effects.map (·.attempt.number)).Nodup := by
  refine List.nodup_iff_count_le_one.mpr fun n => ?_
  have hcount : (h.effects.map (·.attempt.number)).count n = (h.effectsOf n).length := by
    rw [List.count, List.countP_map, List.countP_eq_length_filter, History.effectsOf]
    congr 1
  rw [hcount]
  exact hi.length_effectsOf_le hnumbers n

/-- An attempt whose check passed and that cannot be given up comes to its effect: it has had it, or
waits for it to be due. -/
theorem comes_to_effect (hi : w.Answers atOnce h) {a : Answering} (ha : a ∈ w.engine.answerings)
    (hbound : a.bound = false) (hpasses : ∃ t ∈ h.trials a.number, t.Passes)
    (hidle : a.isReady w.surroundings w.engine.holds = false) :
    ∃ due, h.due? a.number = some due ∧
      (w.now < due ∧ h.effectsOf a.number = [] ∨
        ∃ e, h.effectsOf a.number = [e] ∧ due ≤ e.instant) := by
  have hstands := hi.stands a ha
  have failing (hun : Unchecked (h.trials a.number) (h.effectsOf a.number)) : False := by
    obtain ⟨t, ht, hp⟩ := hpasses
    exact hun.failing t ht hp
  rcases hs : a.stage with _ | wait | wait | ⟨scope, feed⟩ | ⟨scope, wait⟩ | ⟨scope, wait⟩ | outcome
  all_goals simp only [Stands, hs] at hstands
  · exact (failing hstands).elim
  · exact (failing hstands.1).elim
  · exact (failing hstands.1).elim
  · exact (failing hstands.1).elim
  · have hover : wait.isOver w.surroundings.now = true := hstands.2.2.1
    simp [isReady, hs, wait?, hover] at hidle
  · obtain ⟨hnone, ⟨due, rfl, hdue⟩, -⟩ := hstands
    refine ⟨due, hdue, .inl ⟨?_, hnone⟩⟩
    simp only [isReady, hs, wait?, Option.any_some, Wait.isOver, Bool.or_eq_false_iff,
      decide_eq_false_iff_not, Nat.not_le] at hidle
    exact hidle.2
  · rcases hstands with ⟨-, hgiven⟩ | ⟨e, hone, -, -, due, hdue, hle⟩
    · rw [hgiven hpasses] at hbound
      cases hbound
    · exact ⟨due, hdue, .inr ⟨e, hone, hle⟩⟩

/-- Every effect belongs to an action of its own, which was processed: every effect has its attempt,
and every attempt its action. -/
theorem exists_tickets (hi : w.Answers atOnce h) (horig : w.engine.Originates w.chronicle) :
    ∃ ticket : Effect → Ticket, (h.effects.map ticket).Nodup ∧ ∀ e ∈ h.effects,
      (ticket e, .answer e.attempt.userId e.attempt.conversationId) ∈ w.chronicle.processed ∧
        Checked atOnce (h.trials e.attempt.number) e.attempt.userId e.attempt.conversationId
          e.account := by
  have hex (e : Effect) : ∃ t, e ∈ h.effects → ∃ a, w.engine.Attempts w.chronicle a t ∧
      a.number = e.attempt.number ∧
      (t, .answer e.attempt.userId e.attempt.conversationId) ∈ w.chronicle.processed ∧
      Checked atOnce (h.trials e.attempt.number) e.attempt.userId e.attempt.conversationId
        e.account := by
    by_cases he : e ∈ h.effects
    · obtain ⟨a, ha, hid, -, hchecked⟩ := hi.of_effect horig.numbers he
      obtain ⟨t, hattempts, hdone⟩ := horig.attempts a ha
      simp only [Answering.identity, Prod.mk.injEq] at hid
      obtain ⟨hnumber, huser, hconversation, -⟩ := hid
      rw [huser, hconversation] at hdone
      rw [hnumber, huser, hconversation] at hchecked
      exact ⟨t, fun _ => ⟨a, hattempts, hnumber, hdone, hchecked⟩⟩
    · exact ⟨⟨0⟩, fun h => absurd h he⟩
  choose ticket hticket using hex
  have hnodup := hi.nodup_effects horig.numbers
  refine ⟨ticket, List.Nodup.map_on (fun e he e' he' heq => ?_) (.of_map _ hnodup),
    fun e he => ?_⟩
  · obtain ⟨a, hattempts, hnumber, -⟩ := hticket e he
    obtain ⟨a', hattempts', hnumber', -⟩ := hticket e' he'
    rw [heq] at hattempts
    obtain rfl := horig.attempt_unique hattempts hattempts'
    exact List.inj_on_of_nodup_map hnodup he he' (hnumber.symm.trans hnumber')
  · obtain ⟨a, -, -, hdone, hchecked⟩ := hticket e he
    exact ⟨hdone, hchecked⟩

end Answers

theorem Runs.answers {config : EngineConfig} {atOnce : Prop} {h : History} {w : World}
    (hr : Runs (answeringMoves atOnce) (new config) h w) : w.Answers atOnce h := by
  refine hr.keeps (I := fun h w => w.Answers atOnce h) (.new atOnce config) ?_
  clear hr h w
  intro h w m w' happened hr hi hm hallows hstep
  have same (a) (ha : a ∈ w.engine.answerings) :
      (∃ b ∈ w.engine.answerings, a.stage = b.stage ∧ a.identity = b.identity) ∨
        a.number = w.engine.answerings.length ∧ a.stage = .spawned := .inl ⟨a, ha, rfl, rfl⟩
  have hnotes : w'.store.Notes (h ++ [(w, m)]) := hstep.notes hr.notes
  cases hstep with
  | outside _ e' _ hout =>
    have hanswerings : e'.answerings = w.engine.answerings := by cases hout <;> rfl
    exact hi.of_quiet (by rintro n rfl; cases hout.isRequest) hi.arrangement (Nat.le_refl _)
      hi.grounded (Nat.le_refl _) hnotes (fun _ _ _ _ => rfl)
      (Nat.le_of_eq (congrArg _ hanswerings.symm)) (fun a ha => same a (hanswerings ▸ ha))
  | store change =>
    refine hi.of_quiet (by simp) hi.arrangement (Nat.le_refl _) (hi.grounded.apply change)
      (w.store.length_apply_le change) hnotes ?_ (Nat.le_refl _) same
    intro hat a ha hreading
    cases hm.2 hat a ha hreading
  | arrange arrangement => cases hm.1
  | pass ms =>
    exact hi.of_quiet (by simp) hi.arrangement (Nat.le_add_right _ _) hi.grounded (Nat.le_refl _)
      hnotes (fun _ _ _ _ => rfl) (Nat.le_refl _) same
  | control e' _ _ hcon =>
    exact hi.of_quiet (by simp) hi.arrangement (Nat.le_refl _) hi.grounded (Nat.le_refl _)
      hnotes (fun _ _ _ _ => rfl) hcon.answerings.1 hcon.answerings.2
  | pipeline g p p' =>
    exact hi.of_quiet (by simp) hi.arrangement (Nat.le_refl _) hi.grounded (Nat.le_refl _)
      hnotes (fun _ _ _ _ => rfl) (Nat.le_refl _) same
  | answering n a ha =>
    have hready : a.isReady w.surroundings w.engine.holds = true := by
      simpa [allows, Engine.isReady, Engine.answeringReady, ha] using hallows
    exact hi.turn hm hr.reached.originates.numbers ha hready (a.steps _ _) hnotes _

/-- What comes of an answer: an account that is told to fail fails it. -/
theorem outcomeOf_answer (account : Account) (c : ConversationId) :
    outcomeOf (account.answer c).1 = match account.answerFailure with
      | some error => .failed error
      | none => .answered := by
  rcases hf : account.answerFailure with _ | error <;> simp [Account.answer, hf, outcomeOf]

/-- The turn of an attempt makes nothing happen and changes nothing else of the engine. In its effect
the call is noted once at the account, and the attempt ends, whether or not the answer fails. -/
theorem turn_of_attempt {w : World} {n : Nat} (hn : w.allows (.go (.answering n)) = true) :
    let after := w.after (.go (.answering n))
    w.occurrences (.go (.answering n)) = [] ∧
    after.engine = { w.engine with answerings := after.engine.answerings } ∧
    ∀ e, w.effect? (.go (.answering n)) = some e →
      ∃ account, w.store.account? e.account = some account ∧
        (after.store.account? e.account).map (·.answered) =
          some (account.answered ++ [e.attempt.conversationId]) ∧
        (after.engine.answering? n).bind (·.outcome?) = some (match account.answerFailure with
          | some error => .failed error
          | none => .answered) := by
  rcases ha : w.engine.answering? n with _ | a
  · simp [allows, Engine.isReady, Engine.answeringReady, ha] at hn
  · have hsteps := a.steps w.surroundings w.engine.holds
    have hnumber : (a.step w.surroundings w.engine.holds).2.1.number = a.number :=
      congrArg (·.1) hsteps.identity
    have hafter : w.after (.go (.answering n)) =
        { w with
          store := (a.step w.surroundings w.engine.holds).1
          engine := w.engine.putAnswering (a.step w.surroundings w.engine.holds).2.1
          chronicle := w.chronicle ++ [] } := by
      simp [after, move, Engine.step, Engine.stepAnswering, ha, occurrences]
    simp only [hafter]
    refine ⟨rfl, rfl, fun e he => ?_⟩
    have heffect : a.effect? w.surroundings = some e := by simpa [effect?, ha] using he
    rcases hsteps.effect_or with ⟨-, hnone⟩ | ⟨ref, account, hsome, haccount, hstore, hstage⟩
    · rw [hnone] at heffect
      cases heffect
    · rw [hsome] at heffect
      cases heffect
      refine ⟨account, haccount, ?_, ?_⟩
      · rw [hstore, Store.account?_modify, if_pos rfl, haccount]
        exact congrArg some (Account.answered_answer account a.conversationId)
      · rw [Engine.answering?_putAnswering ha hnumber, Option.bind_some, outcome?, hstage]
        exact congrArg some (outcomeOf_answer account a.conversationId)

/-- **Answering is done once, and only for a live call.** Over a store that answers truly:

* what is noted at an account as answered are the effects at that account, in order;
* every effect belongs to an action of its own that was processed, an answer to that call, and its
  attempt has read that the user had a valid session, where the account stood, and that the account
  listed the call as incoming; if it was read at once, all of it was true at that instant;
* if attempts are not bound to pipelines, every answer that was processed waits for the end of the
  previous pipeline, which somebody brings on, or has exactly one attempt. That has one effect at
  most; and if its check passed, then whatever else happens it has had its effect, after the delay,
  as soon as the delay is over and it cannot go on;
* the turn of an attempt makes nothing happen and changes nothing else of the engine; in its effect
  the call is noted once, whether or not the answer fails. -/
theorem Runs.answers_once {config : EngineConfig} {atOnce : Prop} {h : History} {w : World}
    (hr : Runs (answeringMoves atOnce) (new config) h w) :
    (∀ ref account, w.store.account? ref = some account →
      account.answered =
        (h.effects.filter (·.account = ref)).map (·.attempt.conversationId)) ∧
    (∃ ticket : Effect → Ticket, (h.effects.map ticket).Nodup ∧ ∀ e ∈ h.effects,
      (ticket e, .answer e.attempt.userId e.attempt.conversationId) ∈ w.chronicle.processed ∧
        Checked atOnce (h.trials e.attempt.number) e.attempt.userId e.attempt.conversationId
          e.account) ∧
    (config.bindAnswerToPipeline = false → ∀ t user conversation,
      (t, .answer user conversation) ∈ w.chronicle.processed →
      (w.engine.Handles t (.answer user conversation) ∧ ¬ w.AtRest) ∨
      ∃ a, (∀ b, w.engine.Attempts w.chronicle b t ↔ b = a) ∧ a.userId = user ∧
        a.conversationId = conversation ∧ (h.effectsOf a.number).length ≤ 1 ∧
        ((∃ t ∈ h.trials a.number, t.Passes) → w.allows (.go (.answering a.number)) = false →
          ∃ due, h.due? a.number = some due ∧
            (w.now < due ∧ h.effectsOf a.number = [] ∨
              ∃ e, h.effectsOf a.number = [e] ∧ due ≤ e.instant))) ∧
    ∀ n, w.allows (.go (.answering n)) = true →
      let after := w.after (.go (.answering n))
      w.occurrences (.go (.answering n)) = [] ∧
      after.engine = { w.engine with answerings := after.engine.answerings } ∧
      ∀ e, w.effect? (.go (.answering n)) = some e →
        ∃ account, w.store.account? e.account = some account ∧
          (after.store.account? e.account).map (·.answered) =
            some (account.answered ++ [e.attempt.conversationId]) ∧
          (after.engine.answering? n).bind (·.outcome?) = some (match account.answerFailure with
            | some error => .failed error
            | none => .answered) := by
  have hi := hr.answers
  have horig := hr.reached.originates
  refine ⟨hi.noted, hi.exists_tickets horig, fun hfree t user conversation ht => ?_,
    fun _ => turn_of_attempt⟩
  rcases horig.attempted t user conversation ht with hh | ⟨a, hattempts, huser, hconversation⟩
  · obtain ⟨g, hg⟩ := hh
    exact .inl ⟨⟨g, hg⟩, not_atRest_of_retiring hr.reached.orderly hg⟩
  · have hbound : a.bound = false := by
      rw [horig.tuned a hattempts.1, hr.reached.tuned.tuning, hfree]
    have hunique (b : Answering) : w.engine.Attempts w.chronicle b t ↔ b = a :=
      ⟨fun hb => horig.attempt_unique hb hattempts, fun hb => hb ▸ hattempts⟩
    refine .inr ⟨a, hunique, huser, hconversation, hi.length_effectsOf_le horig.numbers _,
      fun hpasses hidle => hi.comes_to_effect hattempts.1 hbound hpasses ?_⟩
    have hfind := Engine.answering?_of_mem horig.numbers hattempts.1
    simpa [allows, Engine.isReady, Engine.answeringReady, hfind] using hidle

/-- An answer that takes effect after a stop has ended the pipeline that was begun with it. -/
def answeredLate : List Move :=
  [.store (.register bob), .store (.account 0 (.list .incoming (.ok [ringing]))),
    .store (.account 0 (.answerDelay (some 5))), .start,
    .submit (.answer bob.id ringing.conversationId), .go .controller]
    ++ List.replicate 5 (.go (.answering 0))
    ++ [.submit .stop, .go .controller, .go (.pipeline 1), .go (.pipeline 1), .go .controller,
      .pass 5, .go (.answering 0)]

theorem answers_once_answeredLate :
    let h := (new default).history answeredLate
    let w := (new default).run answeredLate
    Runs (answeringMoves True) (new default) h w ∧
      (w.store.account? 0).map (·.answered) = some [ringing.conversationId] ∧
      ∃ a, w.engine.Attempts w.chronicle a ⟨1⟩ ∧ h.due? a.number = some 5 ∧
        ∃ e, h.effectsOf a.number = [e] ∧ 5 ≤ e.instant := by
  intro h w
  have hr : Runs (answeringMoves True) (new default) h w := runs_run (by decide) (by decide)
  have hfree : ∀ t a, ¬ w.engine.Handles t a := by
    rintro t a ⟨g, hg⟩
    cases hg
  rcases hr.answers_once.2.2.1 rfl ⟨1⟩ bob.id ringing.conversationId (List.mem_cons_self) with
    ⟨hh, -⟩ | ⟨a, hunique, -, -, -, hcomes⟩
  · exact absurd hh (hfree _ _)
  · have ha : w.engine.Attempts w.chronicle a ⟨1⟩ := (hunique a).mpr rfl
    have hnumbers : w.engine.answerings.map (·.number) = [0] := by decide
    have hzero : a.number = 0 :=
      List.mem_singleton.mp (hnumbers ▸ List.mem_map_of_mem (f := (·.number)) ha.1)
    rw [hzero] at hcomes
    have hpasses : ∃ t ∈ h.trials 0, t.Passes :=
      ⟨(h.trials 0).get ⟨3, by decide⟩, List.get_mem _ _, rfl, _, _, rfl, _, rfl, by decide⟩
    obtain ⟨due, hdue, hcases⟩ := hcomes hpasses (by decide)
    have hfive : h.due? 0 = some 5 := by decide
    cases hfive.symm.trans hdue
    refine ⟨hr, by decide, a, ha, ?_⟩
    rw [hzero]
    refine ⟨hfive, hcases.resolve_left ?_⟩
    rintro ⟨hlt, -⟩
    exact absurd hlt (by decide)

end World

end CallWatch
