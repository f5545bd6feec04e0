import CallWatch.Proofs.Json.Members
import CallWatch.Proofs.Json.Pretty

/-! # Tidy values

A tidy value is put together from truth values, small numbers and texts, by objects that have each
key once and nest no deeper than there is room. Such a value is its own reading: every text that
writes it is parsed as the value, no key of it is to be resolved, and laid over another value it
leaves nothing out as null. -/

namespace CallWatch.Json

/-- Truth values, small numbers, texts, and objects of them with each key once, nested at most
`room` deep. -/
inductive Tidy : Nat → Json → Prop
  | bool {room} (b) : Tidy room (.bool b)
  | int {room n} (hn : IsSmall n) : Tidy room (.int n)
  | string {room} (s) : Tidy room (.string s)
  | object {room ms} (hnodup : (keys ms).Nodup) (h : ∀ m ∈ ms, Tidy room m.2) :
      Tidy (room + 1) (.object ms)

variable {room : Nat} {j : Json} {ms : List (String × Json)} {text : String}

theorem membersReadable_iff :
    membersReadable room ms = true ↔ ∀ m ∈ ms, readable room m.2 = true := by
  induction ms with
  | nil => simp [membersReadable]
  | cons m rest ih => rw [membersReadable, Bool.and_eq_true, ih, List.forall_mem_cons]

namespace Tidy

theorem plain (h : Tidy room j) : Plain j := by
  induction h with
  | bool b => exact .bool b
  | int hn => exact .int hn
  | string s => exact .string s
  | object _ _ ih => exact .object ih

theorem readable (h : Tidy room j) : readable room j = true := by
  induction h with
  | object _ _ ih => simpa [Json.readable] using membersReadable_iff.mpr ih
  | _ => simp [Json.readable]

theorem nullFree (h : Tidy room j) : j.NullFree := by
  induction h with
  | object _ _ ih => exact forall_mem_parts_object rfl ih
  | _ => simp [NullFree, parts, isNull]

theorem uniqueKeys (h : Tidy room j) : j.UniqueKeys := by
  induction h with
  | object hnodup _ ih => exact forall_mem_parts_object hnodup ih
  | _ => simp [UniqueKeys, parts, members]

/-- **A tidy value is read back from all of its texts.** -/
theorem parse?_eq (h : Tidy maxDepth j) (htext : Writes text j) : parse? text = some j :=
  htext.parse?_eq h.readable

end Tidy

end CallWatch.Json
