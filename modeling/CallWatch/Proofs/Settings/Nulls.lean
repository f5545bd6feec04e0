import CallWatch.Proofs.Settings.Defaults
import CallWatch.Proofs.Settings.Layers

/-! # Nulls in a file

A null of a file leaves what is below it, so a file should say the same without its nulls. It does,
with one exception: a member that has nothing below it is taken over as it is, with the nulls
within. The levels of single targets are the one field of that kind in which a null can be met, and
there it is no level.

* `fieldOr_mergeAt_dropNulls` is the step for a single field.
* `LoggingSettings.hasNullTarget` and `Settings.hasNullTarget` say where the exception applies.
* `Settings.ofFile_dropNulls` puts the fields together. -/

namespace CallWatch

open Json Wire

/-! ### Fields -/

namespace Wire

variable {α : Type} {default : α} {dec : Json → Option α} {upper lower : Option Json}

/-- Where what is laid over a field reads the same without its nulls, so does the field. -/
theorem fieldOr_mergeAt_dropNulls
    (hdec : ∀ j, upper = some j →
      dec (lower.elim j.dropNulls (merge j.dropNulls)) = dec (lower.elim j (merge j))) :
    fieldOr default dec (mergeAt (dropNull? upper) lower) =
      fieldOr default dec (mergeAt upper lower) := by
  cases upper with
  | none => rfl
  | some j =>
    by_cases hj : j = .null
    · subst hj
      rfl
    · rw [dropNull?_some hj, mergeAt_some (dropNulls_ne_null hj), mergeAt_some hj]
      exact hdec j rfl

/-- The same for a field that is no object below. -/
theorem fieldOr_mergeAt_dropNulls_of_leaf (hleaf : ∀ ms, lower ≠ some (.object ms))
    (hdec : ∀ j, upper = some j → dec j.dropNulls = dec j) :
    fieldOr default dec (mergeAt (dropNull? upper) lower) =
      fieldOr default dec (mergeAt upper lower) :=
  fieldOr_mergeAt_dropNulls fun j hj => by
    rw [elim_merge hleaf, elim_merge hleaf]
    exact hdec j hj

/-- What is laid over a field and cannot be read fails the field. -/
theorem fieldOr_mergeAt_eq_none {j : Json} (hj : j ≠ .null)
    (hdec : dec (lower.elim j (merge j)) = none) :
    fieldOr default dec (mergeAt (some j) lower) = none := by
  rw [mergeAt_some hj]
  exact hdec

theorem word64_dropNulls (r : Reading) (j : Json) : word64 r j.dropNulls = word64 r j := by
  cases j <;> rfl

theorem flag_dropNulls (r : Reading) (j : Json) : flag r j.dropNulls = flag r j := by
  cases j <;> rfl

theorem text_dropNulls (r : Reading) (j : Json) : text r j.dropNulls = text r j := by
  cases j <;> rfl

theorem nullable_text_dropNulls (r : Reading) (j : Json) :
    nullable text r j.dropNulls = nullable text r j := by
  cases j <;> rfl

/-- A list of which one item cannot be read cannot be read. -/
theorem mapM_eq_none_of_mem {β : Type} {f : β → Option α} {x : β} {l : List β} (hx : x ∈ l)
    (hf : f x = none) : l.mapM f = none := by
  obtain ⟨front, back, rfl⟩ := List.append_of_mem hx
  rw [List.mapM_append, List.mapM_cons, hf]
  exact Option.bind_fun_none _

end Wire

/-! ### Levels of single targets -/

namespace LoggingSettings

variable {j : Json}

/-- Null is no level. -/
theorem decodeModules_of_null (h : j.hasNullMember = true) (r : Reading) :
    decodeModules r j = none := by
  cases j with
  | object ms =>
    obtain ⟨⟨target, level⟩, hmem, hnull⟩ := List.any_eq_true.mp h
    obtain rfl : level = .null := isNull_eq_true_iff.mp hnull
    have hlevels : (ms.mapM fun m => (text r.inside m.2).map fun level => (m.1, level)) = none :=
      mapM_eq_none_of_mem hmem rfl
    rw [decodeModules, hlevels]
    rfl
  | _ => rfl

theorem decodeModules_dropNulls (h : j.hasNullMember = false) (r : Reading) :
    decodeModules r j.dropNulls = decodeModules r j := by
  cases j with
  | object ms =>
    rw [dropNulls, dropNullMembers_eq_map h, decodeModules, List.mapM_map, decodeModules]
    simp only [Function.comp_def, text_dropNulls]
  | _ => rfl

/-- Some target has null for its level. -/
def hasNullTarget (j : Json) : Bool := (j.get? "modules").any hasNullMember

end LoggingSettings

/-! ### Sections -/

theorem OrchestratorSettings.decode_merge_dropNulls {j : Json} (hkeys : j.UniqueKeys)
    (r : Reading) :
    decode r (merge j.dropNulls (default : OrchestratorSettings).toJson) =
      decode r (merge j (default : OrchestratorSettings).toJson) := by
  cases j with
  | object ms =>
    rw [toJson, dropNulls, merge, merge, decode_object (nodup_keys_mergeMembers (by decide)),
      decode_object (nodup_keys_mergeMembers (by decide))]
    simp only [member?_mergeMembers_dropNulls hkeys.nodup, member?_mergeMembers hkeys.nodup]
    rw [fieldOr_mergeAt_dropNulls_of_leaf (by simp [member?, nat]) fun j _ => word64_dropNulls _ j,
      fieldOr_mergeAt_dropNulls_of_leaf (by simp [member?, nat]) fun j _ => word64_dropNulls _ j,
      fieldOr_mergeAt_dropNulls_of_leaf (by simp [member?]) fun j _ => flag_dropNulls _ j]
  | _ => rfl

namespace LoggingSettings

variable {j : Json}

theorem decode_merge_dropNulls (hkeys : j.UniqueKeys) (hlevels : hasNullTarget j = false)
    (r : Reading) :
    decode r (merge j.dropNulls (default : LoggingSettings).toJson) =
      decode r (merge j (default : LoggingSettings).toJson) := by
  cases j with
  | object ms =>
    rw [hasNullTarget, get?_object hkeys.nodup] at hlevels
    have hmodules (j : Json) (hj : member? "modules" ms = some j) :
        decodeModules r.inside j.dropNulls = decodeModules r.inside j := by
      rw [hj] at hlevels
      exact decodeModules_dropNulls hlevels r.inside
    rw [toJson_default, dropNulls, merge, merge, decode_object (nodup_keys_mergeMembers (by decide)),
      decode_object (nodup_keys_mergeMembers (by decide))]
    simp only [member?_mergeMembers_dropNulls hkeys.nodup, member?_mergeMembers hkeys.nodup]
    rw [fieldOr_mergeAt_dropNulls_of_leaf (by simp [member?]) fun j _ => text_dropNulls _ j,
      fieldOr_mergeAt_dropNulls_of_leaf (by simp [member?]) hmodules,
      fieldOr_mergeAt_dropNulls_of_leaf (by simp [member?]) fun j _ => flag_dropNulls _ j,
      fieldOr_mergeAt_dropNulls_of_leaf (by simp [member?]) fun j _ => flag_dropNulls _ j,
      fieldOr_mergeAt_dropNulls_of_leaf (by simp [member?]) fun j _ => nullable_text_dropNulls _ j]
  | _ => rfl

/-- The levels have nothing below them, so a null among them is met by the reader. -/
theorem decode_merge_of_null (hkeys : j.UniqueKeys) (hlevels : hasNullTarget j = true)
    (r : Reading) : decode r (merge j (default : LoggingSettings).toJson) = none := by
  cases j with
  | object ms =>
    rw [hasNullTarget, get?_object hkeys.nodup, Option.any_eq_true] at hlevels
    obtain ⟨modules, hmodules, hnull⟩ := hlevels
    have hne : modules ≠ .null := by
      rintro rfl
      cases hnull
    rw [toJson_default, merge, decode_object (nodup_keys_mergeMembers (by decide))]
    simp only [member?_mergeMembers hkeys.nodup]
    rw [hmodules, fieldOr_mergeAt_eq_none hne (decodeModules_of_null hnull r.inside)]
    exact Option.bind_fun_none _
  | _ => cases hlevels

end LoggingSettings

namespace Settings

variable {j : Json}

/-- Some target has null for its level. -/
def hasNullTarget (j : Json) : Bool := (j.get? "logging").any LoggingSettings.hasNullTarget

theorem decode_merge_dropNulls (hkeys : j.UniqueKeys) (hlevels : hasNullTarget j = false)
    (r : Reading) :
    decode r (merge j.dropNulls (default : Settings).toJson) =
      decode r (merge j (default : Settings).toJson) := by
  cases j with
  | object ms =>
    rw [hasNullTarget, get?_object hkeys.nodup] at hlevels
    have horchestrator (j : Json) (hj : member? "orchestrator" ms = some j) :=
      OrchestratorSettings.decode_merge_dropNulls (hkeys.of_mem (mem_of_member? hj)) r.inside
    have hlogging (j : Json) (hj : member? "logging" ms = some j) :=
      LoggingSettings.decode_merge_dropNulls (hkeys.of_mem (mem_of_member? hj))
        (by rwa [hj] at hlevels) r.inside
    rw [toJson, dropNulls, merge, merge, decode_object (nodup_keys_mergeMembers (by decide)),
      decode_object (nodup_keys_mergeMembers (by decide))]
    simp only [member?_mergeMembers_dropNulls hkeys.nodup, member?_mergeMembers hkeys.nodup]
    rw [fieldOr_mergeAt_dropNulls horchestrator, fieldOr_mergeAt_dropNulls hlogging]
  | _ => rfl

theorem decode_merge_of_null (hkeys : j.UniqueKeys) (hlevels : hasNullTarget j = true)
    (r : Reading) : decode r (merge j (default : Settings).toJson) = none := by
  cases j with
  | object ms =>
    rw [hasNullTarget, get?_object hkeys.nodup, Option.any_eq_true] at hlevels
    obtain ⟨logging, hlogging, hnull⟩ := hlevels
    have hne : logging ≠ .null := by
      rintro rfl
      cases hnull
    have hnone := LoggingSettings.decode_merge_of_null
      (hkeys.of_mem (mem_of_member? hlogging)) hnull r.inside
    rw [toJson, merge, decode_object (nodup_keys_mergeMembers (by decide))]
    simp only [member?_mergeMembers hkeys.nodup]
    rw [hlogging, fieldOr_mergeAt_eq_none hne hnone]
    exact Option.bind_fun_none _
  | _ => cases hlevels

/-- **Nulls in a file have an effect in one place only.** A file is refused for a target that has null
for its level, and says what it says without its nulls otherwise. Of a key that the text repeats the
last member is meant. -/
theorem ofFile_dropNulls {s s' : String} {j j' : Json} (hs : parse? s = some j)
    (hs' : parse? s' = some j') (hdrop : j'.distinct = j.distinct.dropNulls) :
    ofFile (.text s) =
      if hasNullTarget j.distinct then .error (.refused .wrongShape) else ofFile (.text s') := by
  have hkeys := uniqueKeys_distinct j
  rw [ofFile_of_parse hs]
  split
  · next hlevels => rw [layer, decode_merge_of_null hkeys hlevels, Option.elim_none]
  · next hlevels =>
    rw [ofFile_of_parse hs', layer, layer, hdrop,
      decode_merge_dropNulls hkeys (Bool.eq_false_of_not_eq_true hlevels)]

/-- A file with nulls of its own and in both sections. -/
def nullsJson : Json :=
  .object
    [("orchestrator", .object [("queueCapacity", .null), ("stopDebounceMs", .nat 50)]),
      ("logging", .object [("logDbPath", .null), ("modules", .object [("store", .string "warn")])]),
      ("theme", .null)]

theorem ofFile_dropNulls_sections :
    ofFile (.text nullsJson.compact) = ofFile (.text nullsJson.dropNulls.compact) ∧
      ofFile (.text nullsJson.compact) =
        .ok ⟨⟨16, 50, false⟩, ⟨"info", [("store", "warn")], false, false, none⟩⟩ := by
  have hsmall : IsSmall 50 := isSmall_of_lt (k := 2) (by decide) (by decide)
  have hplain : Plain nullsJson := by simp [nullsJson, nat, hsmall]
  have hplain' : Plain nullsJson.dropNulls := by
    simp [nullsJson, nat, dropNulls, dropNullMembers, isNull, hsmall]
  have hsame := ofFile_dropNulls (parse?_compact hplain (by decide))
    (parse?_compact hplain' (by decide)) rfl
  rw [if_neg (by decide)] at hsame
  exact ⟨hsame, ofFile_compact hplain (by decide) (by decide +kernel)⟩

/-- A file that names a target with null for its level. -/
def nullTargetJson : Json :=
  .object [("logging", .object [("modules", .object [("a", .null)])])]

theorem ofFile_null_target :
    ¬ ∀ (s s' : String) (ms : List (String × Json)) (j' : Json), parse? s = some (.object ms) →
      parse? s' = some j' → j'.distinct = (distinct (.object ms)).dropNulls →
      ofFile (.text s) = ofFile (.text s') := by
  intro h
  have hparse : parse? nullTargetJson.compact = some nullTargetJson :=
    parse?_compact (by simp [nullTargetJson]) (by decide)
  have hplain' : Plain nullTargetJson.dropNulls := by
    simp [nullTargetJson, dropNulls, dropNullMembers, isNull]
  have hrefused : ofFile (.text nullTargetJson.compact) = .error (.refused .wrongShape) := by
    have hlayer : layer nullTargetJson = none := by decide +kernel
    rw [ofFile_of_parse hparse, hlayer, Option.elim_none]
  have hloaded : ofFile (.text nullTargetJson.dropNulls.compact) = .ok default :=
    ofFile_compact hplain' (by decide) (by decide +kernel)
  have hsame := h _ _ _ _ hparse (parse?_compact hplain' (by decide)) rfl
  rw [hrefused, hloaded] at hsame
  cases hsame

end Settings

end CallWatch
