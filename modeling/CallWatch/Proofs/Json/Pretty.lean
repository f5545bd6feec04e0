import CallWatch.Proofs.Json.Compact

/-! # The texts of a value

A value has many texts, as blanks may stand between its parts and around it. The one without blanks
is one of them, and so is the one over several lines, whose line breaks and blanks at the front of
each line stand where blanks may. Whichever of them is read, it is read as the value. -/

namespace CallWatch.Json

variable {j : Json} {text : String}

/-- The text writes the value, with blanks around it. -/
def Writes (text : String) (j : Json) : Prop :=
  ∃ b cs b', Blanks b ∧ Written (.value j) cs ∧ Blanks b' ∧ text.toList = b ++ (cs ++ b')

/-- **A text that writes a value is parsed as the value.** -/
theorem Writes.parse?_eq (h : Writes text j) (hreadable : readable maxDepth j = true) :
    parse? text = some j := by
  obtain ⟨b, cs, b', hb, hcs, hb', htext⟩ := h
  have hscan : scan? text = some j := by
    rw [← String.ofList_toList (s := text), htext]
    exact scan?_of_written hb hcs hb'
  rw [parse?, hscan, Option.filter_some, if_pos hreadable]

theorem Plain.writes_compact (h : Plain j) : Writes j.compact j :=
  ⟨[], _, [], blanks_nil, h.written, blanks_nil, by simp [compact]⟩

/-! ### Several lines -/

theorem blanks_newline (level : Nat) : Blanks (newline level) := by
  intro c hc
  rcases List.mem_cons.mp hc with rfl | hc
  · rfl
  · rw [List.eq_of_mem_replicate hc]
    rfl

theorem written_prettyItems {level : Nat} {rest : List Json}
    (h : ∀ x ∈ j :: rest, Written (.value x) (prettyChars (level + 1) x)) :
    Written (.items (j :: rest))
      (newline (level + 1) ++ (prettyChars (level + 1) j ++ prettyItems level rest)) := by
  induction rest generalizing j with
  | nil => exact .lastItem (blanks_newline _) (h j List.mem_cons_self) (blanks_newline level)
  | cons j' rest ih =>
    rw [List.forall_mem_cons] at h
    have hitem := Written.item (blanks_newline (level + 1)) h.1 blanks_nil (ih h.2)
    simpa [prettyItems] using hitem

theorem written_prettyMembers {level : Nat} {k : String} {rest : List (String × Json)}
    (h : ∀ m ∈ (k, j) :: rest, Written (.value m.2) (prettyChars (level + 1) m.2)) :
    Written (.members ((k, j) :: rest))
      (newline (level + 1) ++ (quoted k ++
        ':' :: ' ' :: (prettyChars (level + 1) j ++ prettyMembers level rest))) := by
  have hblank : Blanks [' '] := by simp [Blanks, isBlank]
  induction rest generalizing k j with
  | nil =>
    exact .lastMember (blanks_newline _) blanks_nil hblank (h _ List.mem_cons_self)
      (blanks_newline level)
  | cons m rest ih =>
    obtain ⟨k', j'⟩ := m
    rw [List.forall_mem_cons] at h
    have hmember := Written.member (k := k) (blanks_newline (level + 1)) blanks_nil hblank h.1
      blanks_nil (ih h.2)
    simpa [prettyMembers] using hmember

/-- A plain value is written by its text over several lines, at whatever level. -/
theorem Plain.written_pretty (h : Plain j) (level : Nat) :
    Written (.value j) (prettyChars level j) := by
  induction h generalizing level with
  | null => exact .null
  | bool b =>
    cases b
    · exact .false
    · exact .true
  | int hn => exact .int hn
  | string s => exact .string s
  | @array items _ ih =>
    cases items with
    | nil => exact .noItems blanks_nil
    | cons j rest =>
      have hitems := written_prettyItems fun x hx => ih x hx (level + 1)
      simpa [prettyChars] using Written.array hitems
  | @object members _ ih =>
    cases members with
    | nil => exact .noMembers blanks_nil
    | cons m rest =>
      have hmembers := written_prettyMembers fun x hx => ih x hx (level + 1)
      simpa [prettyChars] using Written.object hmembers

/-- The text over several lines writes the value, also with a line break behind it. -/
theorem Plain.writes_pretty (h : Plain j) : Writes (j.pretty ++ "\n") j :=
  ⟨[], _, newline 0, blanks_nil, h.written_pretty 0, blanks_newline 0, by simp [pretty, newline]⟩

end CallWatch.Json
