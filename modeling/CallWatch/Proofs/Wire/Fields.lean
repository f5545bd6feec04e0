import CallWatch.Proofs.Json.Members
import CallWatch.Proofs.Wire.RoundTrip

/-! # Fields of records

What a record that was written as an object says of a field is decided by the member under the name
of the field. So an object that is laid over another says of a field what the two members under its
name say together. -/

namespace CallWatch.Wire

open Json

variable {α : Type} {default : α} {dec : Json → Option α} {ms : List (String × Json)}
  {names : List String} {name : String} {upper lower : Option Json}

/-- A field with a default, from the value that is given for it, if any. -/
def fieldOr (default : α) (dec : Json → Option α) : Option Json → Option α
  | none => some default
  | some j => dec j

theorem member?_eq_lookup (key : String) (ms : List (String × Json)) :
    member? key ms = ms.lookup key := by
  induction ms with
  | nil => rfl
  | cons m rest ih =>
    obtain ⟨k, j⟩ := m
    rw [member?_cons, List.lookup_cons, ih]
    by_cases hk : k = key
    · simp [hk]
    · rw [if_neg hk, beq_false_of_ne (Ne.symm hk)]

theorem member?_filter (hname : name ∈ names) (ms : List (String × Json)) :
    member? name (ms.filter fun m => names.contains m.1) = member? name ms := by
  induction ms with
  | nil => rfl
  | cons m rest ih =>
    obtain ⟨k, j⟩ := m
    rw [List.filter_cons, member?_cons]
    split
    · rw [member?_cons, ih]
    · next hk =>
      have hne : k ≠ name := fun h => hk (by simpa [h] using hname)
      rw [if_neg hne, ih]

theorem ofJson?_of_nodup (hnodup : (keys ms).Nodup) (names : List String) :
    Record.ofJson? names (.object ms) =
      some ⟨true, ms.filter fun m => names.contains m.1⟩ := by
  have hknown : ((ms.filter fun m => names.contains m.1).map (·.1)).Nodup :=
    hnodup.sublist (List.filter_sublist.map _)
  simp only [Record.ofJson?, hasRepeatedKey_eq_false hknown, Bool.false_eq_true, if_false]

/-- **What a record says of a field is decided by the member under its name.** -/
theorem withDefault_eq (hname : name ∈ names) :
    (⟨true, ms.filter fun m => names.contains m.1⟩ : Record).withDefault name default dec =
      fieldOr default dec (member? name ms) := by
  rw [Record.withDefault, ← member?_eq_lookup, member?_filter hname]
  cases member? name ms <;> rfl

/-- A field with a default holds the default or what is read for it. -/
theorem withDefault_eq_some {record : Record} {x : α}
    (h : record.withDefault name default dec = some x) : x = default ∨ ∃ j, dec j = some x := by
  rw [Record.withDefault] at h
  split at h
  · exact .inl (Option.some.inj h).symm
  · exact .inr ⟨_, h⟩

theorem word64_nat {n : Nat} (hn : n ≤ Text.maxWord64) (r : Reading) :
    word64 r (.nat n) = some n := by
  simp [word64, nat, hn]

/-! ### One object over another -/

/-- Where a field says the default below, and what is laid over it reads as it does alone, it says
what is said above. -/
theorem fieldOr_mergeAt (hlower : fieldOr default dec lower = some default)
    (hnull : upper ≠ some .null)
    (hdec : ∀ j, upper = some j → dec (lower.elim j (merge j)) = dec j) :
    fieldOr default dec (mergeAt upper lower) = fieldOr default dec upper := by
  cases upper with
  | none => exact hlower
  | some j =>
    rw [mergeAt_some fun h => hnull (congrArg some h)]
    exact hdec j rfl

/-- The same for a field that is no object below. -/
theorem fieldOr_mergeAt_of_leaf (hlower : fieldOr default dec lower = some default)
    (hleaf : ∀ ms, lower ≠ some (.object ms)) (hnull : upper ≠ some .null) :
    fieldOr default dec (mergeAt upper lower) = fieldOr default dec upper :=
  fieldOr_mergeAt hlower hnull fun j _ => by rw [elim_merge hleaf]

end CallWatch.Wire
