import CallWatch.CommandLine.Program
import CallWatch.Proofs.Json.Tidy
import CallWatch.Proofs.Settings.Defaults
import CallWatch.Proofs.Settings.Layers

/-! # Effective settings

Settings that were loaded are written and take the place of the file they came from. Under the same
environment they are loaded as they are: what the written form leaves out is what the defaults say,
nothing of it is merged with them, and the environment has been laid over them already.

* `Settings.Effective` says what makes settings come out of loading unchanged, and
  `Settings.exists_load_iff` that nothing else comes out of it.
* `Settings.Effective.load_of_writes` is the way back, from any text of the written form.
* `Settings.load_effective` says so of what the program prints. -/

namespace CallWatch

open Json Wire

/-! ### The sections are read back -/

namespace OrchestratorSettings

variable {s : OrchestratorSettings}

theorem tidy_toJson {room : Nat} (hcapacity : s.queueCapacity ≤ 1024)
    (hwindow : s.stopDebounceMs ≤ 60000) : Tidy (room + 1) s.toJson := by
  have hsmall (n : Nat) (hn : n ≤ 60000) : IsSmall n :=
    isSmall_of_lt (k := 5) (by decide) (hn.trans_lt (by decide))
  refine .object (by simp) ?_
  simp only [List.forall_mem_cons, List.not_mem_nil, false_implies, implies_true, and_true]
  exact ⟨.int (hsmall _ (by omega)), .int (hsmall _ hwindow), .bool _⟩

theorem decode_toJson (hcapacity : s.queueCapacity ≤ 1024) (hwindow : s.stopDebounceMs ≤ 60000)
    (r : Reading) : decode r s.toJson = some s := by
  have hcapacity' : s.queueCapacity ≤ Text.maxWord64 := hcapacity.trans (by decide)
  have hwindow' : s.stopDebounceMs ≤ Text.maxWord64 := hwindow.trans (by decide)
  rw [toJson, decode_object (by simp)]
  simp [member?_cons, fieldOr, word64_nat, hcapacity', hwindow', flag]

end OrchestratorSettings

namespace LoggingSettings

variable {s : LoggingSettings} {modules : List (String × String)} {room : Nat}

theorem decodeModules_modulesJson (h : Keyed.Ascends modules) (r : Reading) :
    decodeModules r (modulesJson modules) = some modules := by
  have hlevels : (modules.map fun m => (m.1, Json.string m.2)).mapM
      (fun m => (text r.inside m.2).map fun level => (m.1, level)) = some modules := by
    rw [List.mapM_map]
    exact List.mapM_pure.trans (by simp)
  simp only [modulesJson, decodeModules, hlevels, Option.bind_eq_bind, Option.bind_some]
  exact congrArg some h.ofList_eq

theorem tidy_modulesJson (h : Keyed.Ascends modules) : Tidy (room + 1) (modulesJson modules) := by
  have hkeys : keys (modules.map fun m => (m.1, Json.string m.2)) = modules.map (·.1) := by
    simp [keys]
  refine .object ?_ fun m hm => ?_
  · rw [hkeys]
    exact List.pairwise_map.mpr (h.imp fun hlt => hlt.ne)
  · obtain ⟨m, -, rfl⟩ := List.mem_map.mp hm
    exact .string _

theorem nodup_keys_toJson : (keys s.toJson.members).Nodup := by
  obtain ⟨level, modules, json, persistWarnings, logDbPath⟩ := s
  cases modules <;> cases logDbPath <;> simp [toJson, members]

theorem tidy_toJson (h : Keyed.Ascends s.modules) : Tidy (room + 2) s.toJson := by
  refine .object nodup_keys_toJson ?_
  simp only [List.forall_mem_append, List.forall_mem_singleton, List.forall_mem_cons]
  refine ⟨⟨⟨.string _, ?_⟩, .bool _, .bool _⟩, ?_⟩
  · split
    · exact List.forall_mem_nil _
    · exact List.forall_mem_singleton.mpr (tidy_modulesJson h)
  · split
    · exact List.forall_mem_nil _
    · exact List.forall_mem_singleton.mpr (.string _)

theorem decode_toJson (h : Keyed.Ascends s.modules) (r : Reading) : decode r s.toJson = some s := by
  have hmodules := decodeModules_modulesJson h r.inside
  have hobject : s.toJson = .object s.toJson.members := rfl
  rw [hobject, decode_object nodup_keys_toJson]
  obtain ⟨level, modules, json, persistWarnings, logDbPath⟩ := s
  -- Two fields may be left out, and then the reader's defaults are what they hold.
  have hnoModules : (default : LoggingSettings).modules = [] := rfl
  have hnoPath : (default : LoggingSettings).logDbPath = none := rfl
  cases modules <;> cases logDbPath <;>
    simp [toJson, members, member?_cons, fieldOr, text, flag, nullable, hmodules, hnoModules, hnoPath]

/-- Levels of single targets are in order once they were read. -/
theorem ascends_of_decodeModules {r : Reading} {j : Json} (h : decodeModules r j = some modules) :
    Keyed.Ascends modules := by
  cases j with
  | object ms =>
    obtain ⟨levels, -, hlevels⟩ := Option.bind_eq_some_iff.mp h
    obtain rfl := Option.some.inj hlevels
    exact Keyed.ascends_ofList levels
  | _ => cases h

theorem ascends_of_decode {r : Reading} {j : Json} (h : decode r j = some s) :
    Keyed.Ascends s.modules := by
  simp only [decode, Option.bind_eq_bind, Option.bind_eq_some_iff] at h
  obtain ⟨_, -, _, -, modules, hmodules, _, -, _, -, _, -, heq⟩ := h
  obtain rfl := Option.some.inj heq
  rcases withDefault_eq_some hmodules with rfl | ⟨_, hread⟩
  · exact List.Pairwise.nil
  · exact ascends_of_decodeModules hread

end LoggingSettings

namespace Settings

variable {s : Settings} {env : Variables} {file : FileContent} {text : String}

theorem ascends_of_decode {r : Reading} {j : Json} (h : decode r j = some s) :
    Keyed.Ascends s.logging.modules := by
  simp only [decode, Option.bind_eq_bind, Option.bind_eq_some_iff] at h
  obtain ⟨_, -, _, -, logging, hlogging, heq⟩ := h
  obtain rfl := Option.some.inj heq
  rcases withDefault_eq_some hlogging with rfl | ⟨_, hread⟩
  · exact List.Pairwise.nil
  · exact LoggingSettings.ascends_of_decode hread

/-! ### What comes out of loading -/

/-- Loading has nothing to change: the settings are within the bounds, the levels of single targets
are in order, and the environment gives no field anything else. -/
structure Effective (s : Settings) (env : Variables) : Prop where
  inBounds : s.InBounds
  ascends : Keyed.Ascends s.logging.modules
  override_eq : s.override env = s

/-- The environment is laid over settings once and for all. -/
theorem override_override (s : Settings) (env : Variables) :
    (s.override env).override env = s.override env := by
  refine ext_get fun f => ?_
  rw [get_override, get_override]
  cases env.given? f <;> rfl

theorem load_eq_ok_iff :
    load file env = .ok s ↔ ∃ below, ofFile file = .ok below ∧ below.override env = s ∧ s.InBounds := by
  constructor
  · intro h
    have hbounds := inBounds_of_load h
    cases hfile : ofFile file with
    | error e =>
      rw [load_of_error hfile] at h
      cases h
    | ok below =>
      rw [load_of_ok hfile] at h
      split at h
      · cases h
      · exact ⟨below, rfl, Except.ok.inj h, hbounds⟩
  · rintro ⟨below, hfile, rfl, hbounds⟩
    rw [load_of_ok hfile, fault?_eq_none_iff.mpr hbounds]

theorem ascends_of_ofFile (h : ofFile file = .ok s) : Keyed.Ascends s.logging.modules := by
  cases file with
  | absent =>
    obtain rfl := Except.ok.inj h
    exact List.Pairwise.nil
  | unreadable => cases h
  | text t =>
    cases hparse : parse? t with
    | none => simp [ofFile, hparse] at h
    | some j =>
      rw [ofFile_of_parse hparse] at h
      cases hlayer : layer j with
      | none => simp [hlayer] at h
      | some below =>
        obtain rfl : below = s := by simpa [hlayer] using h
        exact ascends_of_decode hlayer

theorem effective_of_load (h : load file env = .ok s) : s.Effective env := by
  obtain ⟨below, hfile, rfl, hbounds⟩ := load_eq_ok_iff.mp h
  have hascends : Keyed.Ascends below.logging.modules := ascends_of_ofFile hfile
  exact ⟨hbounds, hascends, override_override below env⟩

namespace Effective

theorem tidy_toJson (h : s.Effective env) : Tidy maxDepth s.toJson := by
  obtain ⟨⟨-, hcapacity⟩, hwindow⟩ := h.inBounds
  refine .object (by simp) ?_
  rw [List.forall_mem_cons, List.forall_mem_singleton]
  exact ⟨OrchestratorSettings.tidy_toJson hcapacity hwindow, LoggingSettings.tidy_toJson h.ascends⟩

theorem decode_toJson (h : s.Effective env) (r : Reading) : decode r s.toJson = some s := by
  obtain ⟨⟨-, hcapacity⟩, hwindow⟩ := h.inBounds
  have horchestrator := OrchestratorSettings.decode_toJson hcapacity hwindow r.inside
  have hlogging := LoggingSettings.decode_toJson h.ascends r.inside
  rw [toJson, decode_object (by simp)]
  simp [member?_cons, fieldOr, horchestrator, hlogging]

/-- The written form says over the defaults what it says alone. -/
theorem layer_toJson (h : s.Effective env) : layer s.toJson = some s := by
  have hkeys := h.tidy_toJson.uniqueKeys
  have hnull := h.tidy_toJson.nullFree
  rw [layer, hkeys.distinct_eq, decode_merge hkeys hnull, h.decode_toJson]

/-- **The way back.** Every text of the written form is loaded as the settings. -/
theorem load_of_writes (h : s.Effective env) (htext : Writes text s.toJson) :
    load (.text text) env = .ok s := by
  have hfile : ofFile (.text text) = .ok s := by
    rw [ofFile_of_parse (h.tidy_toJson.parse?_eq htext), h.layer_toJson, Option.elim_some]
  exact load_eq_ok_iff.mpr ⟨s, hfile, h.override_eq, h.inBounds⟩

end Effective

/-- **What comes out of loading** is what loading has nothing to change in. -/
theorem exists_load_iff : (∃ file, load file env = .ok s) ↔ s.Effective env := by
  constructor
  · rintro ⟨file, hload⟩
    exact effective_of_load hload
  · intro h
    exact ⟨.text s.toJson.compact, h.load_of_writes h.tidy_toJson.plain.writes_compact⟩

end Settings

/-! ### What is printed -/

namespace CommandLine

/-- The text that is printed as lines, with a line break behind each. -/
def printed (output : List String) : String := String.join (output.map fun line => line ++ "\n")

theorem flatMap_eq_intercalate {ls : List (List Char)} (h : ls ≠ []) (c : Char) :
    (ls.flatMap fun l => l ++ [c]) = [c].intercalate ls ++ [c] := by
  induction ls with
  | nil => exact absurd rfl h
  | cons l rest ih =>
    cases rest with
    | nil => simp
    | cons l' rest =>
      rw [List.flatMap_cons, ih (List.cons_ne_nil _ _), List.intercalate_cons_cons]
      simp

/-- The lines of a text are printed as the text with a line break behind it. -/
theorem printed_lines (s : String) : printed (lines s) = s ++ "\n" := by
  have hbreak : "\n".toList = ['\n'] := rfl
  rw [← String.toList_inj, printed, String.toList_join, lines, List.map_map, List.flatMap_map]
  simp only [Function.comp_apply, String.toList_append, String.toList_ofList, hbreak]
  rw [flatMap_eq_intercalate (List.splitOn_ne_nil _ _), List.intercalate_splitOn]

/-- To check settings is to print their written form. -/
theorem perform_checkSettings {a : Arguments} {site : Site} {s : Settings}
    (hcommand : a.command = .checkSettings)
    (hload : Settings.load (site.file (a.settingsFile site.home)) site.environment = .ok s) :
    a.perform site = .done (lines s.toJson.pretty) none := by
  simp only [Arguments.perform, hload, hcommand]

end CommandLine

/-- **Effective settings are a fixed point.** Settings that a file and an environment give are given
again, under the environment, by every text of their written form. So what the program prints when it
checks them can take the place of the file: the same settings are loaded, and the same is printed. -/
theorem Settings.effective_fixed {file : FileContent} {env : Variables} {s : Settings}
    (h : load file env = .ok s) :
    (∀ text, Writes text s.toJson → load (.text text) env = .ok s) ∧
    ∀ (a : CommandLine.Arguments) (site : CommandLine.Site), a.command = .checkSettings →
      site.environment = env → site.file (a.settingsFile site.home) = file →
      (a.perform site).code = 0 ∧
      Writes (CommandLine.printed (a.perform site).output) s.toJson ∧
      load (.text (CommandLine.printed (a.perform site).output)) env = .ok s ∧
      ∀ again : CommandLine.Site, again.environment = env →
        again.file (a.settingsFile again.home) =
          .text (CommandLine.printed (a.perform site).output) →
        a.perform again = a.perform site := by
  have heffective := effective_of_load h
  refine ⟨fun text htext => heffective.load_of_writes htext, ?_⟩
  rintro a site hcommand rfl rfl
  have hperform := CommandLine.perform_checkSettings hcommand h
  have hprinted : CommandLine.printed (a.perform site).output = s.toJson.pretty ++ "\n" := by
    rw [hperform, CommandLine.Outcome.done, CommandLine.printed_lines]
  have hwrites : Writes (CommandLine.printed (a.perform site).output) s.toJson := by
    rw [hprinted]
    exact heffective.tidy_toJson.plain.writes_pretty
  have hload := heffective.load_of_writes hwrites
  refine ⟨by rw [hperform, CommandLine.Outcome.done], hwrites, hload, fun again henv hfile => ?_⟩
  rw [← hfile, ← henv] at hload
  rw [CommandLine.perform_checkSettings hcommand hload, hperform]

/-- A file with no room for actions, and with levels that are out of order. -/
def unorderedJson : Json :=
  .object
    [("logging", .object
        [("modules", .object [("store", .string "warn"), ("engine", .string "debug")])]),
      ("orchestrator", .object [("queueCapacity", .nat 0)])]

theorem Settings.effective_fixed_rescued :
    let file : FileContent := .text unorderedJson.compact
    let env : Variables := [("CALLKEEP_QUEUE_CAPACITY", "7"), ("CALLKEEP_LOG_DB", "calls.db")]
    let s : Settings :=
      ⟨⟨7, 200, false⟩, ⟨"info", [("engine", "debug"), ("store", "warn")], false, true, some "calls.db"⟩⟩
    let a : CommandLine.Arguments := ⟨some "calls.json", .checkSettings⟩
    let site : CommandLine.Site := ⟨env, fun _ => file, fun _ => none, ""⟩
    let again : CommandLine.Site :=
      { site with file := fun _ => .text (CommandLine.printed (a.perform site).output) }
    load file env = .ok s ∧ load (again.file "calls.json") env = .ok s ∧
      a.perform again = a.perform site := by
  intro file env s a site again
  have hplain : Plain unorderedJson := by
    have hsmall : IsSmall 0 := isSmall_of_lt (k := 1) (by decide) (by decide)
    simp [unorderedJson, nat, hsmall]
  have hfile : ofFile file = .ok ⟨⟨0, 200, false⟩, ⟨"info", s.logging.modules, false, false, none⟩⟩ :=
    ofFile_compact hplain (by decide) (by decide +kernel)
  have hbounds : s.InBounds := ⟨by decide, by decide⟩
  have hload : load file env = .ok s := load_eq_ok_iff.mpr ⟨_, hfile, by decide +kernel, hbounds⟩
  obtain ⟨-, -, hagain, hperform⟩ := (effective_fixed hload).2 a site rfl rfl rfl
  exact ⟨hload, hagain, hperform again rfl rfl⟩

end CallWatch
