import CallWatch.Proofs.Wire.Fields
import CallWatch.Settings.Load

/-! # Two ways to the defaults

What a file leaves out is filled in twice: by the written form of the defaults, over which the file is
laid, and by the reader, which knows the default of every field. The written form leaves out fields
itself, and knows no default for a section that is not an object.

The two agree. Each section is read from the members under the names of its fields
(`decode_object`), and for each field the written default says nothing but the default
(`fieldOr_mergeAt`). -/

namespace CallWatch

open Json Wire

variable {ms : List (String × Json)}

/-! ### Sections are read field by field -/

theorem OrchestratorSettings.decode_object (h : (keys ms).Nodup) (r : Reading) :
    decode r (.object ms) = (do
      let base : OrchestratorSettings := default
      let queueCapacity ←
        fieldOr base.queueCapacity (word64 r.inside) (member? "queueCapacity" ms)
      let stopDebounceMs ←
        fieldOr base.stopDebounceMs (word64 r.inside) (member? "stopDebounceMs" ms)
      let bindAnswerToPipeline ←
        fieldOr base.bindAnswerToPipeline (flag r.inside) (member? "bindAnswerToPipeline" ms)
      return { queueCapacity, stopDebounceMs, bindAnswerToPipeline }) := by
  simp only [decode, ofJson?_of_nodup h, fieldNames, Option.bind_eq_bind, Option.bind_some]
  rw [withDefault_eq (by decide), withDefault_eq (by decide), withDefault_eq (by decide)]

theorem LoggingSettings.decode_object (h : (keys ms).Nodup) (r : Reading) :
    decode r (.object ms) = (do
      let base : LoggingSettings := default
      let level ← fieldOr base.level (text r.inside) (member? "level" ms)
      let modules ← fieldOr base.modules (decodeModules r.inside) (member? "modules" ms)
      let json ← fieldOr base.json (flag r.inside) (member? "json" ms)
      let persistWarnings ←
        fieldOr base.persistWarnings (flag r.inside) (member? "persistWarnings" ms)
      let logDbPath ← fieldOr base.logDbPath (nullable text r.inside) (member? "logDbPath" ms)
      return { level, modules, json, persistWarnings, logDbPath }) := by
  simp only [decode, ofJson?_of_nodup h, fieldNames, Option.bind_eq_bind, Option.bind_some]
  rw [withDefault_eq (by decide), withDefault_eq (by decide), withDefault_eq (by decide),
    withDefault_eq (by decide), withDefault_eq (by decide)]

theorem Settings.decode_object (h : (keys ms).Nodup) (r : Reading) :
    decode r (.object ms) = (do
      let orchestrator ←
        fieldOr default (OrchestratorSettings.decode r.inside) (member? "orchestrator" ms)
      let logging ← fieldOr default (LoggingSettings.decode r.inside) (member? "logging" ms)
      return { orchestrator, logging }) := by
  simp only [decode, ofJson?_of_nodup h, Option.bind_eq_bind, Option.bind_some]
  rw [withDefault_eq (by decide), withDefault_eq (by decide)]

/-! ### What is laid over the defaults -/

theorem OrchestratorSettings.decode_merge {j : Json} (hkeys : j.UniqueKeys) (hnull : j.NullFree)
    (r : Reading) : decode r (merge j (default : OrchestratorSettings).toJson) = decode r j := by
  cases j with
  | object ms =>
    rw [toJson, merge, decode_object (nodup_keys_mergeMembers (by decide)),
      decode_object hkeys.nodup]
    simp only [member?_mergeMembers hkeys.nodup]
    rw [fieldOr_mergeAt_of_leaf rfl (by simp [member?, nat]) hnull.member?_ne_null,
      fieldOr_mergeAt_of_leaf rfl (by simp [member?, nat]) hnull.member?_ne_null,
      fieldOr_mergeAt_of_leaf rfl (by simp [member?]) hnull.member?_ne_null]
  | _ => rfl

/-- The written default leaves out the levels of targets and the path. -/
theorem LoggingSettings.toJson_default :
    (default : LoggingSettings).toJson =
      .object [("level", .string "info"), ("json", .bool false), ("persistWarnings", .bool false)] :=
  rfl

theorem LoggingSettings.decode_merge {j : Json} (hkeys : j.UniqueKeys) (hnull : j.NullFree)
    (r : Reading) : decode r (merge j (default : LoggingSettings).toJson) = decode r j := by
  cases j with
  | object ms =>
    rw [toJson_default, merge, decode_object (nodup_keys_mergeMembers (by decide)),
      decode_object hkeys.nodup]
    simp only [member?_mergeMembers hkeys.nodup]
    rw [fieldOr_mergeAt_of_leaf rfl (by simp [member?]) hnull.member?_ne_null,
      fieldOr_mergeAt_of_leaf rfl (by simp [member?]) hnull.member?_ne_null,
      fieldOr_mergeAt_of_leaf rfl (by simp [member?]) hnull.member?_ne_null,
      fieldOr_mergeAt_of_leaf rfl (by simp [member?]) hnull.member?_ne_null,
      fieldOr_mergeAt_of_leaf rfl (by simp [member?]) hnull.member?_ne_null]
  | _ => rfl

theorem Settings.decode_merge {j : Json} (hkeys : j.UniqueKeys) (hnull : j.NullFree)
    (r : Reading) : decode r (merge j (default : Settings).toJson) = decode r j := by
  cases j with
  | object ms =>
    rw [toJson, merge, decode_object (nodup_keys_mergeMembers (by decide)),
      decode_object hkeys.nodup]
    simp only [member?_mergeMembers hkeys.nodup]
    have horchestrator (j : Json) (hj : member? "orchestrator" ms = some j) :=
      have hmem := mem_of_member? hj
      OrchestratorSettings.decode_merge (hkeys.of_mem hmem) (hnull.of_mem hmem) r.inside
    have hlogging (j : Json) (hj : member? "logging" ms = some j) :=
      have hmem := mem_of_member? hj
      LoggingSettings.decode_merge (hkeys.of_mem hmem) (hnull.of_mem hmem) r.inside
    rw [fieldOr_mergeAt rfl hnull.member?_ne_null horchestrator,
      fieldOr_mergeAt rfl hnull.member?_ne_null hlogging]
  | _ => rfl

/-- **The two ways to the defaults agree.** A value without nulls says the same over the written
defaults and alone: the same settings or none. Its objects have each key once, as maps do; a text that
repeats a key stands for the value with the last member of each. -/
theorem Settings.defaults_agree {v : Json} (hnull : v.NullFree) :
    (v.UniqueKeys → ∀ r, decode r (merge v (default : Settings).toJson) = decode r v) ∧
      layer v = decode .whole v.distinct :=
  ⟨fun hkeys r => decode_merge hkeys hnull r,
    decode_merge (uniqueKeys_distinct v) hnull.distinct .whole⟩

/-- A file with a section by position, a part of the other section and a member of no field. -/
def patchedJson : Json :=
  .object
    [("orchestrator", .array [.nat 8]),
      ("logging", .object [("modules", .object [("store", .string "warn")]), ("json", .bool true)]),
      ("theme", .string "dark")]

theorem Settings.defaults_agree_patched :
    patchedJson.NullFree ∧ patchedJson.UniqueKeys ∧
      (∀ r, decode r (merge patchedJson (default : Settings).toJson) = decode r patchedJson) ∧
      layer patchedJson = some ⟨⟨8, 200, false⟩, ⟨"info", [("store", "warn")], true, false, none⟩⟩ := by
  have hnull : patchedJson.NullFree := by decide
  have hkeys : patchedJson.UniqueKeys := by decide
  obtain ⟨hmerge, hlayer⟩ := Settings.defaults_agree hnull
  exact ⟨hnull, hkeys, hmerge hkeys, hlayer.trans (by decide +kernel)⟩

end CallWatch
