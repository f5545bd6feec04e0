import CallWatch.Proofs.Json.Grammar

/-! # Compact texts

The text of a value without blanks stands for that value, if every part of it is one that the texts
have: no literal is kept as it was written, nothing is unreadable, and no number is too large. -/

namespace CallWatch.Json

/-- Every part is a value that texts stand for. -/
inductive Plain : Json → Prop
  | null : Plain .null
  | bool (b) : Plain (.bool b)
  | int {n} (hn : IsSmall n) : Plain (.int n)
  | string (s) : Plain (.string s)
  | array {items} (h : ∀ j ∈ items, Plain j) : Plain (.array items)
  | object {members} (h : ∀ m ∈ members, Plain m.2) : Plain (.object members)

attribute [simp] Plain.null Plain.bool Plain.string

@[simp] theorem plain_int {n : Int} : Plain (.int n) ↔ IsSmall n :=
  ⟨fun h => by cases h; assumption, .int⟩

@[simp] theorem plain_object {members : List (String × Json)} :
    Plain (.object members) ↔ ∀ m ∈ members, Plain m.2 :=
  ⟨fun h => by cases h; assumption, .object⟩

@[simp] theorem plain_array {items : List Json} : Plain (.array items) ↔ ∀ j ∈ items, Plain j :=
  ⟨fun h => by cases h; assumption, .array⟩

@[simp] theorem plain_ofText? (t : Option String) : Plain (ofText? t) := by
  cases t
  · exact .null
  · exact .string _

theorem written_items {j : Json} {rest : List Json}
    (h : ∀ x ∈ j :: rest, Written (.value x) (compactChars x)) :
    Written (.items (j :: rest)) (compactChars j ++ itemsChars rest) := by
  induction rest generalizing j with
  | nil => exact .lastItem blanks_nil (h j List.mem_cons_self) blanks_nil
  | cons j' rest ih =>
    rw [List.forall_mem_cons] at h
    exact .item blanks_nil h.1 blanks_nil (ih h.2)

theorem written_members {k : String} {j : Json} {rest : List (String × Json)}
    (h : ∀ m ∈ (k, j) :: rest, Written (.value m.2) (compactChars m.2)) :
    Written (.members ((k, j) :: rest)) (quoted k ++ ':' :: (compactChars j ++ membersChars rest)) := by
  induction rest generalizing k j with
  | nil =>
    exact .lastMember blanks_nil blanks_nil blanks_nil (h _ List.mem_cons_self) blanks_nil
  | cons m rest ih =>
    rw [List.forall_mem_cons] at h
    have hrest : Written (.members (m :: rest))
        (quoted m.1 ++ ':' :: (compactChars m.2 ++ membersChars rest)) := ih h.2
    have hmember := Written.member (k := k) blanks_nil blanks_nil blanks_nil h.1 blanks_nil hrest
    simpa [membersChars] using hmember

/-- A plain value is written by its compact text. -/
theorem Plain.written {j : Json} (h : Plain j) : Written (.value j) (compactChars j) := by
  induction h with
  | null => exact .null
  | bool b =>
    cases b
    · exact .false
    · exact .true
  | int hn => exact .int hn
  | string s => exact .string s
  | @array items _ ih =>
    cases items with
    | nil => exact .noItems blanks_nil
    | cons j rest => exact .array (written_items ih)
  | @object members _ ih =>
    cases members with
    | nil => exact .noMembers blanks_nil
    | cons m rest =>
      have hmembers : Written (.members (m :: rest))
          (quoted m.1 ++ ':' :: (compactChars m.2 ++ membersChars rest)) := written_members ih
      simpa [compactChars] using Written.object hmembers

/-- **A plain value is read back from its compact text.** -/
theorem scan?_compact {j : Json} (h : Plain j) : scan? j.compact = some j := by
  have hscan := scan?_of_written blanks_nil h.written blanks_nil
  rwa [List.nil_append, List.append_nil] at hscan

theorem parse?_compact {j : Json} (h : Plain j) (hreadable : readable maxDepth j = true) :
    parse? j.compact = some j := by
  rw [parse?, scan?_compact h, Option.filter_some, if_pos hreadable]

end CallWatch.Json
