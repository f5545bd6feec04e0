import CallWatch.Proofs.Engine.Attempts
import CallWatch.Proofs.Log.Search

/-! # Finding failed answers

An attempt to answer logs one warning if it fails, and nothing otherwise. The warning itself names
nobody. It happens in the span of the attempt, which names the user and the conversation, and the
record of the warning takes both from there. On their way the names lose the quotes at their ends,
as every shown text does, so a name that has one there is kept under another name.

* `Answering.events_step`: what one step of an attempt logs.
* `Answering.failure_found_iff`: by which names the record of a failure is found. -/

namespace CallWatch

open Log

/-! ### What an attempt logs -/

namespace Answering

variable {s : Surroundings} {held : AccountRef → Bool} {a : Answering} {e : CallError}

/-- The warning of an attempt that failed. -/
def warning? (a : Answering) : Option Event :=
  match a.stage with
  | .done (.failed e) => some (a.failureWarning e)
  | _ => none

theorem warning?_eq_some (h : a.outcome? = some (.failed e)) :
    a.warning? = some (a.failureWarning e) := by
  unfold outcome? at h
  unfold warning?
  split at h
  · next outcome hstage =>
    obtain rfl : outcome = .failed e := Option.some.inj h
    rw [hstage]
  · cases h

theorem warning?_eq_none (h : a.outcome? = none) : a.warning? = none := by
  unfold outcome? at h
  unfold warning?
  split at h
  · cases h
  · next hstage =>
    split
    · next e he => exact absurd he (hstage _)
    · rfl

/-- A question that fails is logged. -/
theorem events_ask (q : Question) {stage : Wait → AnswerStage}
    (hstage : ∀ wait, (a.inStage (stage wait)).warning? = none) :
    (a.ask s q stage).2 = (a.ask s q stage).1.warning?.toList := by
  unfold ask
  cases s.ask a.userId q with
  | error e => rfl
  | ok wait => rw [hstage wait, Option.toList_none]

/-- **An attempt logs when it fails, and only then.** -/
theorem events_step (hgoing : a.outcome? = none) :
    (a.step s held).2.2 = (a.step s held).2.1.warning?.toList := by
  have hquiet := warning?_eq_none hgoing
  unfold step
  split
  · rfl
  · cases hs : a.stage with
    | spawned => exact events_ask _ fun _ => rfl
    | validity wait =>
      dsimp only
      split
      · exact events_ask _ fun _ => rfl
      · rfl
    | scope wait =>
      dsimp only
      split <;> rfl
    | incoming scope feed =>
      dsimp only
      split
      · rfl
      · split
        · exact events_ask _ fun _ => rfl
        · rfl
      · rfl
      · simp [hquiet]
    | request scope wait => rfl
    | effect scope wait =>
      dsimp only
      split
      · rfl
      · split <;> rfl
    | done outcome => simp [outcome?, hs] at hgoing

/-- What an attempt was begun with makes the warning. -/
theorem failureWarning_congr {a' : Answering} (h : a'.identity = a.identity) (e : CallError) :
    a'.failureWarning e = a.failureWarning e := by
  simp only [identity, Prod.mk.injEq] at h
  obtain ⟨hnumber, huser, hconversation, -, -⟩ := h
  unfold failureWarning span
  rw [hnumber, huser, hconversation]

/-- An attempt that fails logs its warning. -/
theorem events_of_fails (hgoing : a.outcome? = none)
    (hfails : (a.step s held).2.1.outcome? = some (.failed e)) :
    (a.step s held).2.2 = [a.failureWarning e] := by
  have hidentity : (a.step s held).2.1.identity = a.identity := (steps s held a).identity
  rw [events_step hgoing, warning?_eq_some hfails, failureWarning_congr hidentity]
  rfl

/-! ### The record of a failure -/

theorem userId_failureWarning (a : Answering) (e : CallError) :
    (a.failureWarning e).userId = some (Text.trimQuotes a.userId.display) := by
  rfl

theorem conversationId_failureWarning (a : Answering) (e : CallError) :
    (a.failureWarning e).conversationId = some (Text.trimQuotes a.conversationId.display) := by
  rfl

end Answering

namespace Log

/-- The record of an event that is grave enough stands between those of the events around it. -/
theorem Sink.exists_records_ofLog (earlier later : List (String × Event)) (t : String) {w : Event}
    (hkept : w.level.isKept = true) :
    ∃ more : List Record, (ofLog (earlier ++ (t, w) :: later)).records =
        (ofLog earlier).records ++ w.record ((ofLog earlier).count + 1) t :: more ∧
      more.length ≤ later.length := by
  have hsplit : ofLog (earlier ++ (t, w) :: later) = ((ofLog earlier).keep t w).after later := by
    rw [ofLog, after_append]
    rfl
  have hrecords := records_after ((ofLog earlier).keep t w) later
  rw [records_keep hkept, List.append_assoc, List.singleton_append] at hrecords
  refine ⟨_, by rw [hsplit, hrecords], ?_⟩
  rw [List.length_mapIdx]
  exact List.length_filter_le _ _

end Log

namespace Answering

variable {s : Surroundings} {held : AccountRef → Bool} {a : Answering} {e : CallError}

/-- **By which names a failed answer is found.** The attempt logs one warning. Whatever was kept
before it, and while fewer events came after it than a query returns, its record is found by the
trimmed names of user and conversation. It is found by their names exactly if neither name has a
quote at an end. -/
theorem failure_found_iff (hgoing : a.outcome? = none)
    (hfails : (a.step s held).2.1.outcome? = some (.failed e)) :
    (a.step s held).2.2 = [a.failureWarning e] ∧
    ∀ (earlier later : List (String × Event)) (t : String), later.length < Query.defaultLimit →
      let sink := Sink.ofLog (earlier ++ (t, a.failureWarning e) :: later)
      let r := (a.failureWarning e).record ((Sink.ofLog earlier).count + 1) t
      r ∈ sink.query (.ofNames (some (Text.trimQuotes a.userId.display))
        (some (Text.trimQuotes a.conversationId.display)) none) ∧
      (r ∈ sink.query (.ofNames (some a.userId.display) (some a.conversationId.display) none) ↔
        ¬ Text.QuotedAtEnd a.userId.display ∧ ¬ Text.QuotedAtEnd a.conversationId.display) := by
  refine ⟨events_of_fails hgoing hfails, fun earlier later t hlater => ?_⟩
  dsimp only
  obtain ⟨more, hrecords, hmore⟩ := Sink.exists_records_ofLog earlier later t
    (show (a.failureWarning e).level.isKept = true from rfl)
  let r := (a.failureWarning e).record ((Sink.ofLog earlier).count + 1) t
  have huser : r.userId = some (Text.trimQuotes a.userId.display) := userId_failureWarning a e
  have hconversation : r.conversationId = some (Text.trimQuotes a.conversationId.display) :=
    conversationId_failureWarning a e
  have hfound (u c : String) :
      r ∈ (Sink.ofLog (earlier ++ (t, a.failureWarning e) :: later)).query
          (.ofNames (some u) (some c) none) ↔
        Text.trimQuotes a.userId.display = u ∧ Text.trimQuotes a.conversationId.display = c := by
    have hfew : more.length <
        (Query.ofNames (some u) (some c) none).limit.getD Query.defaultLimit :=
      Nat.lt_of_le_of_lt hmore hlater
    rw [Sink.mem_query_iff hrecords hfew, Query.asks_ofNames_iff, huser, hconversation]
    simp
  constructor
  · exact (hfound _ _).mpr ⟨rfl, rfl⟩
  · rw [← Text.trimQuotes_eq_self_iff, ← Text.trimQuotes_eq_self_iff]
    exact hfound _ _

/-- A store that is too busy to say whether the session of a user holds. -/
def busyStore (user : UserId) : Surroundings where
  now := 0
  store := .empty
  arrangement := Arrangement.none.setQuestion user .hasValidSession (some (.fails (.internal "busy")))

/-- An attempt for a user that no pipeline was started with. -/
def attemptOf (user : UserId) : Answering := .new 0 user ⟨"conv", "wire.com"⟩ false none

theorem failure_found_busy :
    ((attemptOf ⟨"me", "wire.com"⟩).failureWarning (.internal "busy")).record 1 "" ∈
      (Sink.ofLog [("", (attemptOf ⟨"me", "wire.com"⟩).failureWarning (.internal "busy"))]).query
        (.ofNames (some "me@wire.com") (some "conv@wire.com") none) := by
  have hfails : ((attemptOf ⟨"me", "wire.com"⟩).step (busyStore ⟨"me", "wire.com"⟩)
      fun _ => false).2.1.outcome? = some (.failed (.internal "busy")) := by decide
  have hfound := (failure_found_iff rfl hfails).2 [] [] "" (by decide)
  exact hfound.2.mpr (by decide)

/-- A user whose name stands between quotes is not found by it. -/
theorem failure_lost_between_quotes :
    ¬ ∀ (s : Surroundings) (held : AccountRef → Bool) (a : Answering) (e : CallError),
      a.outcome? = none → (a.step s held).2.1.outcome? = some (.failed e) →
      ∀ (earlier : List (String × Event)) (t : String),
        (a.failureWarning e).record ((Sink.ofLog earlier).count + 1) t ∈
          (Sink.ofLog (earlier ++ [(t, a.failureWarning e)])).query
            (.ofNames (some a.userId.display) (some a.conversationId.display) none) := by
  intro h
  have hmem := h (busyStore ⟨"\"me\"", ""⟩) (fun _ => false) (attemptOf ⟨"\"me\"", ""⟩)
    (.internal "busy") rfl (by decide) [] ""
  exact absurd hmem (by decide)

end Answering

end CallWatch
