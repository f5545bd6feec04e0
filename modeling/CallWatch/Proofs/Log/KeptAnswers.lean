import CallWatch.CommandLine.Program
import CallWatch.Proofs.Log.Journal
import CallWatch.Proofs.Log.Levels
import CallWatch.Proofs.Wire.RoundTrip

/-! # What a run keeps of failed answers

The warning of an attempt that failed names nobody. The names are in the span of the attempt, and
spans pass the filter like events, each by its own level. That of the span is `info`. Hence three
cases, by the level that counts at the target of answers: below `warn` nothing is kept of failed
answers, at `warn` their warnings are kept without names, and above it with them.

* `Filter.apply_failureWarning`: what passes of one warning.
* `CommandLine.runScenario_names`: what is kept in the run of a scenario. -/

namespace CallWatch

open Log

/-! ### What is kept -/

namespace Log

/-- What a record says, and of whom. -/
def Record.naming (r : Record) : String × Option String × Option String :=
  (r.message, r.userId, r.conversationId)

/-- What an event says, and of whom. -/
def Event.naming (w : Event) : String × Option String × Option String :=
  ((Gathered.ofFields w.fields).message.getD "", w.userId, w.conversationId)

theorem Event.naming_record (w : Event) (id : Nat) (t : String) :
    (w.record id t).naming = w.naming := rfl

theorem map_filter_mapIdx {α β γ : Type} {l : List α} {f : Nat → α → β} {p : β → Bool}
    {q : α → Bool} {g : β → γ} {k : α → γ} (hp : ∀ i x, p (f i x) = q x)
    (hg : ∀ i x, g (f i x) = k x) : ((l.mapIdx f).filter p).map g = (l.filter q).map k := by
  induction l using List.reverseRecOn with
  | nil => rfl
  | append_singleton l x ih =>
    rw [List.mapIdx_concat, List.filter_append, List.map_append, ih, List.filter_append,
      List.map_append]
    cases hx : q x <;> simp [hp, hg, hx]

/-- What the new records at the target of answers say is what the events there say. -/
theorem Sink.exists_records_keepAll (sink : Sink) (t : String) (events : List Event) :
    ∃ new, (sink.keepAll t events).records = sink.records ++ new ∧
      (new.filter (·.target = answerTarget)).map Record.naming =
        ((answerNews events).filter (·.level.isKept)).map Event.naming := by
  refine ⟨_, by rw [keepAll_eq_after, records_after], ?_⟩
  let recorded (i : Nat) (entry : String × Event) : Record :=
    entry.2.record (sink.count + i + 1) entry.1
  have hnamed := map_filter_mapIdx (l := (events.map (t, ·)).filter (·.2.level.isKept))
    (f := recorded) (p := (·.target = answerTarget)) (q := (·.2.target = answerTarget))
    (g := Record.naming) (k := (·.2.naming)) (fun _ _ => rfl) fun _ entry =>
      entry.2.naming_record _ _
  refine hnamed.trans ?_
  rw [List.filter_map, List.filter_map, List.map_map, answerNews, List.filter_comm]
  rfl

/-! ### What passes -/

namespace Filter

variable {f : Filter} {w w' : Event}

theorem apply_eq_some (h : f.apply w = some w') : w'.target = w.target ∧ w'.level = w.level := by
  unfold apply at h
  split at h
  · cases h
    exact ⟨rfl, rfl⟩
  · cases h

theorem answerNews_filterMap_apply (f : Filter) (journal : List Event) :
    answerNews (journal.filterMap f.apply) = (answerNews journal).filterMap f.apply := by
  unfold answerNews
  induction journal with
  | nil => rfl
  | cons w rest ih =>
    cases h : f.apply w with
    | none =>
      rw [List.filterMap_cons_none h, ih]
      by_cases htarget : w.target = answerTarget <;> simp [htarget, h]
    | some w' =>
      have hsame := (apply_eq_some h).1
      rw [List.filterMap_cons_some h]
      by_cases htarget : w.target = answerTarget <;> simp [htarget, h, hsame, ih]

/-- **What passes of the warning of an attempt.** Its span comes along if `info` passes. -/
theorem apply_failureWarning (f : Filter) (a : Answering) (e : CallError) :
    f.apply (a.failureWarning e) =
      if f.passes answerTarget .warn then
        some { a.failureWarning e with
          spans := if f.passes answerTarget .info then [a.span] else [] }
      else none := by
  have hspans : [a.span].filter (fun s => f.passes s.target s.level) =
      if f.passes answerTarget .info then [a.span] else [] := by
    rw [List.filter_cons, List.filter_nil]
    rfl
  unfold apply
  rw [← hspans]
  rfl

end Filter

end Log

namespace Answering

/-- No name has a quote at an end. -/
def IsPlain (a : Answering) : Prop :=
  ¬ Text.QuotedAtEnd a.userId.display ∧ ¬ Text.QuotedAtEnd a.conversationId.display

instance (a : Answering) : Decidable a.IsPlain := inferInstanceAs (Decidable (_ ∧ _))

/-- What is said of a failed attempt, with or without its names. -/
def naming (named : Bool) (a : Answering) : String × Option String × Option String :=
  (answeringFailed, if named then some a.userId.display else none,
    if named then some a.conversationId.display else none)

theorem naming_failureWarning {a : Answering} (h : a.IsPlain) (e : CallError) (named : Bool) :
    Event.naming { a.failureWarning e with spans := if named then [a.span] else [] } =
      a.naming named := by
  cases named with
  | false => rfl
  | true =>
    have huser := Text.trimQuotes_eq_self_iff.mpr h.1
    have hconversation := Text.trimQuotes_eq_self_iff.mpr h.2
    have hnaming : Event.naming (a.failureWarning e) = (answeringFailed,
      some (Text.trimQuotes a.userId.display), some (Text.trimQuotes a.conversationId.display)) := rfl
    rw [huser, hconversation] at hnaming
    exact hnaming

/-- An attempt that failed has its warning. -/
theorem exists_of_warning? {a : Answering} {w : Event} (h : a.warning? = some w) :
    ∃ e, w = a.failureWarning e := by
  unfold warning? at h
  split at h
  · cases h
    exact ⟨_, rfl⟩
  · cases h

end Answering

namespace Engine

/-- The attempts of an engine that failed. -/
def failed (e : Engine) : List Answering := e.answerings.filter (·.warning?.isSome)

theorem level_of_mem_failures {e : Engine} {w : Event} (h : w ∈ e.failures) : w.level = .warn := by
  obtain ⟨a, -, ha⟩ := List.mem_filterMap.mp h
  obtain ⟨error, rfl⟩ := Answering.exists_of_warning? ha
  rfl

/-- What is said of the failures that pass. -/
theorem naming_failures {e : Engine} (hplain : ∀ a ∈ e.failed, a.IsPlain) (f : Filter) :
    (e.failures.filterMap f.apply).map Event.naming =
      if f.passes answerTarget .warn then
        e.failed.map (Answering.naming (f.passes answerTarget .info))
      else [] := by
  unfold failures failed at *
  generalize e.answerings = attempts at hplain ⊢
  induction attempts with
  | nil => simp
  | cons a rest ih =>
    cases ha : a.warning? with
    | none =>
      rw [List.filter_cons_of_neg (by simp [ha])] at hplain ⊢
      rw [List.filterMap_cons_none ha]
      exact ih hplain
    | some w =>
      rw [List.filter_cons_of_pos (by simp [ha]), List.forall_mem_cons] at hplain
      rw [List.filter_cons_of_pos (by simp [ha]), List.filterMap_cons_some ha]
      obtain ⟨error, rfl⟩ := Answering.exists_of_warning? ha
      have hrest := ih hplain.2
      have happly := f.apply_failureWarning a error
      cases hwarn : f.passes answerTarget .warn with
      | false =>
        rw [hwarn, if_neg (by decide)] at happly hrest
        rw [List.filterMap_cons_none happly]
        exact hrest
      | true =>
        rw [hwarn, if_pos rfl] at happly hrest
        rw [List.filterMap_cons_some happly, List.map_cons, hrest,
          Answering.naming_failureWarning hplain.1]
        rfl

/-- What is said of answers by the part of a journal that passes. -/
theorem Recounts.naming {e : Engine} {journal : List Event} (h : e.Recounts journal)
    (hplain : ∀ a ∈ e.failed, a.IsPlain) (f : Filter) :
    (((answerNews (journal.filterMap f.apply)).filter (·.level.isKept)).map Event.naming).Perm
      (if f.passes answerTarget .warn then
        e.failed.map (Answering.naming (f.passes answerTarget .info))
      else []) := by
  -- what passes keeps its level, and failures are warnings
  have hkept : ∀ w ∈ (answerNews journal).filterMap f.apply, w.level.isKept = true := by
    intro w hw
    obtain ⟨w', hw', happly⟩ := List.mem_filterMap.mp hw
    rw [(Filter.apply_eq_some happly).2, level_of_mem_failures (h.news.subset hw')]
    rfl
  rw [Filter.answerNews_filterMap_apply, List.filter_eq_self.mpr hkept, ← naming_failures hplain f]
  exact (h.news.filterMap f.apply).map Event.naming

end Engine

/-! ### Whole runs -/

namespace CommandLine

variable {site : Site} {settings : Settings} {path text : String} {scenario : Scenario} {sink : Sink}

/-- The filter of a run. -/
def filterOf (site : Site) (settings : Settings) : Log.Filter :=
  (Setup.ofSettings settings.logging site.home).filter site.environment

/-- The engine after a run. -/
def engineOf (settings : Settings) (scenario : Scenario) : Engine :=
  (scenario.run settings.orchestrator.engineConfig).1.engine

/-- The log after a run, in which the part of the journal that passes is kept. -/
theorem log_runScenario (hfile : site.file path = .text text)
    (hdecode : Wire.decodeText Scenario.decode text = .ok scenario)
    (hkeeps : settings.logging.persistWarnings = true)
    (hlog : site.log (Arguments.logFile settings site.home) = some sink) :
    (runScenario site settings path).log = some (Arguments.logFile settings site.home,
      sink.keepAll site.timestamp ((scenario.run settings.orchestrator.engineConfig).1.journal.filterMap
        (filterOf site settings).apply)) := by
  have hopen : (if (Setup.ofSettings settings.logging site.home).keepsWarnings then
      site.log (Setup.ofSettings settings.logging site.home).path else none) = some sink := by
    rw [← hlog]
    exact if_pos hkeeps
  unfold runScenario
  simp only [hfile, hdecode, hopen, Option.map_some]
  cases (scenario.run settings.orchestrator.engineConfig).2 <;> rfl

/-- Where records name the attempts that failed, or nobody, one of them names the user of an attempt
exactly if `info` passes. -/
theorem exists_userId_iff {f : Log.Filter} {new : List Record} {failed : List Answering}
    (hperm : ((new.filter (·.target = answerTarget)).map Record.naming).Perm
      (if f.passes answerTarget .warn then
        failed.map (Answering.naming (f.passes answerTarget .info))
      else [])) {a : Answering} (ha : a ∈ failed) :
    (∃ r ∈ new, r.target = answerTarget ∧ r.userId = some a.userId.display) ↔
      f.passes answerTarget .info = true := by
  constructor
  · rintro ⟨r, hr, htarget, huser⟩
    have hnaming : r.naming ∈ (new.filter (·.target = answerTarget)).map Record.naming :=
      List.mem_map_of_mem (List.mem_filter.mpr ⟨hr, decide_eq_true htarget⟩)
    have hmem := hperm.subset hnaming
    split at hmem
    · obtain ⟨b, -, hb⟩ := List.mem_map.mp hmem
      cases hinfo : f.passes answerTarget .info with
      | true => rfl
      | false =>
        have hnone : r.userId = none := by
          rw [hinfo] at hb
          exact (congrArg (·.2.1) hb).symm
        rw [hnone] at huser
        cases huser
    · cases hmem
  · intro hinfo
    have hwarn : f.passes answerTarget .warn = true :=
      Log.Filter.passes_of_within hinfo (by decide)
    rw [if_pos hwarn, hinfo] at hperm
    obtain ⟨r, hr, hnaming⟩ := List.mem_map.mp (hperm.symm.subset (List.mem_map_of_mem ha))
    obtain ⟨hnew, htarget⟩ := List.mem_filter.mp hr
    have huser : r.userId = some a.userId.display := congrArg (·.2.1) hnaming
    exact ⟨r, hnew, of_decide_eq_true htarget, huser⟩

/-- **What a run keeps of failed answers.** If `warn` passes at the target of answers, one record for
each attempt that failed, and no other there. The records name users and conversations if `info`
passes there, too, and otherwise they name none. So asking for the user of an attempt brings a
record of a failed answer to light exactly if `info` passes. -/
theorem runScenario_names (hfile : site.file path = .text text)
    (hdecode : Wire.decodeText Scenario.decode text = .ok scenario)
    (hkeeps : settings.logging.persistWarnings = true)
    (hlog : site.log (Arguments.logFile settings site.home) = some sink)
    (hplain : ∀ a ∈ (engineOf settings scenario).failed, a.IsPlain) :
    ∃ kept new, (runScenario site settings path).log =
        some (Arguments.logFile settings site.home, kept) ∧
      kept.records = sink.records ++ new ∧
      ((new.filter (·.target = answerTarget)).map Record.naming).Perm
        (if (filterOf site settings).passes answerTarget .warn then
          (engineOf settings scenario).failed.map
            (Answering.naming ((filterOf site settings).passes answerTarget .info))
        else []) ∧
      ∀ a ∈ (engineOf settings scenario).failed, ∀ limit, kept.count ≤ limit →
        ((∃ r ∈ new, r.target = answerTarget ∧
            r ∈ kept.query (.ofNames (some a.userId.display) none (some limit))) ↔
          (filterOf site settings).passes answerTarget .info = true) := by
  obtain ⟨new, hrecords, hnew⟩ := sink.exists_records_keepAll site.timestamp
    ((scenario.run settings.orchestrator.engineConfig).1.journal.filterMap
      (filterOf site settings).apply)
  have hrecounts : (engineOf settings scenario).Recounts
      (scenario.run settings.orchestrator.engineConfig).1.journal := scenario.recounts_run _
  have hperm := hrecounts.naming hplain (filterOf site settings)
  rw [← hnew] at hperm
  refine ⟨_, new, log_runScenario hfile hdecode hkeeps hlog, hrecords, hperm, ?_⟩
  intro a ha limit hlimit
  rw [← exists_userId_iff hperm ha]
  refine exists_congr fun r => and_congr_right fun hr => and_congr_right fun _ => ?_
  rw [Sink.mem_query_iff_of_count_le hlimit, Query.asks_ofNames_iff, hrecords]
  simp [hr]

/-! ### A busy store -/

/-- The record of a scenario in which a store is too busy to answer. -/
def busyJson : Json :=
  let call : Json := .object
    [("conversation_id", .string "conv@wire.com"), ("caller_id", .string "bob@wire.com"),
      ("status", .string "incoming")]
  let answer : Json := .object
    [("type", .string "start"), ("kind", .string "answer_call"), ("user_id", .string "me@wire.com"),
      ("conversation_id", .string "conv@wire.com")]
  .object
    [("accounts", .array [.object [("id", .string "me@wire.com"), ("name", .string "Me")]]),
      ("steps", .array
        [.object [("step", .string "incoming"), ("user_id", .string "me@wire.com"),
            ("calls", .array [call])],
          .object [("step", .string "answer_behavior"), ("user_id", .string "me@wire.com"),
            ("fail", .string "busy")],
          .object [("step", .string "command"), ("action", answer)]]),
      ("settle_ms", .nat 150)]

/-- The account is registered, a call comes in that cannot be answered, and is to be answered. -/
def busyScenario : Scenario :=
  let me : UserId := ⟨"me", "wire.com"⟩
  let conversation : ConversationId := ⟨"conv", "wire.com"⟩
  let call : Call := { (default : Call) with
    conversationId := conversation, callerId := ⟨"bob", "wire.com"⟩, status := .incoming }
  { accounts := [⟨me, some "Me", none⟩]
    steps :=
      [⟨0, .list .incoming me [call]⟩, ⟨0, .answerBehavior me false none (some "busy")⟩,
        ⟨0, .command (some (.answer me conversation))⟩]
    settle := 150 }

/-- A file with this scenario, and an empty log. -/
def busySite : Site where
  environment := []
  file := fun _ => .text busyJson.compact
  log := fun _ => some .empty
  timestamp := ""

/-- Settings that keep warnings, and a level. -/
def settingsAt (level : String) : Settings :=
  { (default : Settings) with
    logging := { (default : LoggingSettings) with
      level, persistWarnings := true, logDbPath := some "logs.db" } }

theorem decode_busyJson :
    Wire.decodeText Scenario.decode busyJson.compact = .ok busyScenario := by
  have hplain : Json.Plain busyJson := by
    simp only [busyJson, Json.nat, Json.plain_object, Json.plain_array, Json.plain_int,
      Json.Plain.string, List.forall_mem_cons, List.not_mem_nil, false_imp_iff, implies_true,
      and_true, true_and]
    exact Json.isSmall_of_lt (k := 3) (by decide) (by decide)
  exact Wire.decodeText_compact hplain (by decide +kernel)

/-- The attempt of the scenario fails. -/
theorem run_busyScenario (level : String) :
    ((busyScenario.run (settingsAt level).orchestrator.engineConfig).1.journal,
      (engineOf (settingsAt level) busyScenario).failed.map fun a => (a.userId, a.conversationId)) =
    ([(Answering.new 0 ⟨"me", "wire.com"⟩ ⟨"conv", "wire.com"⟩ false (some 1)).failureWarning
        (.internal "busy")],
      [(⟨"me", "wire.com"⟩, ⟨"conv", "wire.com"⟩)]) := by
  have hordered : busyScenario.ordered = busyScenario.steps := by cbv
  have htuning : (settingsAt level).orchestrator.engineConfig = ⟨16, 200, false⟩ := rfl
  unfold engineOf Scenario.run Scenario.endInstant
  rw [hordered, htuning]
  decide +kernel

theorem plain_busy (level : String) :
    ∀ a ∈ (engineOf (settingsAt level) busyScenario).failed, a.IsPlain := by
  intro a ha
  have hids := List.mem_map_of_mem (f := fun a => (a.userId, a.conversationId)) ha
  rw [(Prod.mk.inj (run_busyScenario level)).2, List.mem_singleton, Prod.mk.injEq] at hids
  rw [Answering.IsPlain, hids.1, hids.2]
  decide

theorem runScenario_names_busy :
    ∃ kept, (runScenario busySite (settingsAt "info") "answer.json").log = some ("logs.db", kept) ∧
      ∃ r ∈ kept.records, r.target = answerTarget ∧
        r ∈ kept.query (.ofNames (some "me@wire.com") none (some kept.count)) := by
  have hrun := (Prod.mk.inj (run_busyScenario "info")).2
  have hfile : busySite.file "answer.json" = .text busyJson.compact := rfl
  have hopen : busySite.log (Arguments.logFile (settingsAt "info") busySite.home) = some .empty := rfl
  obtain ⟨kept, new, hlog, hrecords, -, hfound⟩ :=
    runScenario_names hfile decode_busyJson rfl hopen (plain_busy "info")
  obtain ⟨a, ha, hids⟩ : ∃ a ∈ (engineOf (settingsAt "info") busyScenario).failed,
      (a.userId, a.conversationId) = (⟨"me", "wire.com"⟩, ⟨"conv", "wire.com"⟩) := by
    rw [← List.mem_map, hrun]
    exact List.mem_singleton.mpr rfl
  have hname : a.userId.display = "me@wire.com" := by
    rw [(Prod.mk.inj hids).1]
    decide
  have hinfo : (filterOf busySite (settingsAt "info")).passes answerTarget .info = true := by
    decide +kernel
  obtain ⟨r, hr, htarget, hquery⟩ := (hfound a ha kept.count (Nat.le_refl _)).mpr hinfo
  rw [hname] at hquery
  exact ⟨kept, hlog, r, hrecords ▸ List.mem_append_right _ hr, htarget, hquery⟩

/-- With `warn` as the level the record of a failed answer names nobody. -/
theorem runScenario_loses_names :
    ¬ ∀ (site : Site) (settings : Settings) (path text : String) (scenario : Scenario)
        (logPath : String) (kept : Sink),
      site.file path = .text text → Wire.decodeText Scenario.decode text = .ok scenario →
      settings.logging.persistWarnings = true →
      (∀ a ∈ (engineOf settings scenario).failed, a.IsPlain) → site.log logPath = some .empty →
      (runScenario site settings path).log = some (logPath, kept) →
      ∀ r ∈ kept.records, r.message = answeringFailed →
        ∃ a ∈ (engineOf settings scenario).failed,
          r.userId = some a.userId.display ∧ r.conversationId = some a.conversationId.display := by
  intro h
  have hrun := Prod.mk.inj (run_busyScenario "warn")
  have hplain : ∀ a ∈ (engineOf (settingsAt "warn") busyScenario).failed, a.IsPlain := plain_busy _
  have hfile : busySite.file "answer.json" = .text busyJson.compact := rfl
  have hopen : busySite.log (Arguments.logFile (settingsAt "warn") busySite.home) = some .empty := rfl
  have hkeeps : (settingsAt "warn").logging.persistWarnings = true := rfl
  have hlog := log_runScenario hfile decode_busyJson hkeeps hopen
  rw [hrun.1] at hlog
  -- the warning passes, its span does not
  let w := (Answering.new 0 ⟨"me", "wire.com"⟩ ⟨"conv", "wire.com"⟩ false (some 1)).failureWarning
    (.internal "busy")
  let r : Record := { w with spans := [] }.record 1 ""
  have hkept : Sink.empty.keepAll busySite.timestamp
      ([w].filterMap (filterOf busySite (settingsAt "warn")).apply) = ⟨[r]⟩ := by
    decide +kernel
  rw [hkept] at hlog
  obtain ⟨a, -, huser, -⟩ := h busySite (settingsAt "warn") "answer.json" _ busyScenario _ ⟨[r]⟩
    hfile decode_busyJson hkeeps hplain rfl hlog r (.head _) rfl
  have hnone : r.userId = none := rfl
  rw [hnone] at huser
  cases huser

end CommandLine

end CallWatch
