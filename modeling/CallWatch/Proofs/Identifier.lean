import CallWatch.Identifier

/-! # Reading back identifiers

The display form of an identifier names it again unless the separator stands where it misleads: in
the domain, or in the value while the domain is empty. An identifier that was read from a text has no
separator in its domain, but its value may hold one while its domain is empty. -/

namespace CallWatch.Identifier

variable {kind : IdentifierKind}

/-- The separator stands nowhere where it misleads. -/
def Displayable (id : Identifier kind) : Prop :=
  '@' ∉ id.domain.toList ∧ (id.domain = "" → '@' ∉ id.value.toList)

instance (id : Identifier kind) : Decidable id.Displayable :=
  inferInstanceAs (Decidable (_ ∧ (_ → _)))

/-- The identifier that the display form names. -/
def reread (id : Identifier kind) : Identifier kind := ofText id.display

theorem toList_display_of_domain {id : Identifier kind} (hd : id.domain ≠ "") :
    id.display.toList = id.value.toList ++ '@' :: id.domain.toList := by
  simp [display, hd]

theorem ofText_of_not_mem {s : String} (h : '@' ∉ s.toList) :
    (ofText s : Identifier kind) = ⟨s, ""⟩ := by
  simp [ofText, splitLast_eq_none.mpr h]

theorem ofText_of_splits {s : String} {front back : List Char}
    (h : s.toList = front ++ '@' :: back) (hb : '@' ∉ back) :
    (ofText s : Identifier kind) = ⟨String.ofList front, String.ofList back⟩ := by
  simp [ofText, splitLast_eq_some.mpr ⟨h, hb⟩]

/-- A text with the separator splits at the last one. -/
theorem exists_splits {cs : List Char} (h : '@' ∈ cs) :
    ∃ front back, cs = front ++ '@' :: back ∧ '@' ∉ back := by
  rcases hs : splitLast cs with _ | ⟨front, back⟩
  · exact absurd h (splitLast_eq_none.mp hs)
  · exact ⟨front, back, splitLast_eq_some.mp hs⟩

/-- What is read from a text has no separator in its domain. -/
theorem not_mem_domain_ofText (s : String) :
    '@' ∉ (ofText s : Identifier kind).domain.toList := by
  by_cases h : '@' ∈ s.toList
  · obtain ⟨front, back, hs, hb⟩ := exists_splits h
    simpa [ofText_of_splits hs hb] using hb
  · simp [ofText_of_not_mem h]

/-- **The display form names the identifier again exactly if the separator misleads nowhere.** -/
theorem reread_eq_iff {id : Identifier kind} : id.reread = id ↔ id.Displayable := by
  obtain ⟨value, domain⟩ := id
  constructor
  · intro h
    refine ⟨h ▸ not_mem_domain_ofText _, fun hd hmem => ?_⟩
    -- The value would lose what stands behind its last separator.
    obtain rfl : domain = "" := hd
    obtain ⟨front, back, hs, hb⟩ := exists_splits hmem
    have hread : (⟨value, ""⟩ : Identifier kind).reread =
        ⟨String.ofList front, String.ofList back⟩ := ofText_of_splits (by simpa [display] using hs) hb
    have hvalue : value.toList = front := by
      rw [h] at hread
      simpa using congrArg (fun id => id.value.toList) hread
    have hlength := congrArg List.length hs
    rw [hvalue] at hlength
    simp at hlength
  · rintro ⟨hdomain, hvalue⟩
    by_cases hd : domain = ""
    · subst hd
      exact ofText_of_not_mem (by simpa [display] using hvalue rfl)
    · refine (ofText_of_splits (toList_display_of_domain hd) hdomain).trans ?_
      simp

/-- **How far the display form reaches.** It names an identifier again exactly if the domain has no
separator and the value has none either, or a domain stands behind it. No two such identifiers have
the same display form. -/
theorem display_faithful :
    (∀ value domain : String,
      (ofText (⟨value, domain⟩ : Identifier kind).display : Identifier kind) = ⟨value, domain⟩ ↔
        '@' ∉ domain.toList ∧ (domain ≠ "" ∨ '@' ∉ value.toList)) ∧
    ∀ a b : Identifier kind, a.Displayable → b.Displayable → a.display = b.display → a = b := by
  constructor
  · intro value domain
    exact reread_eq_iff.trans (and_congr_right fun _ => Decidable.imp_iff_not_or)
  · intro a b ha hb hdisplay
    calc a = a.reread := (reread_eq_iff.mpr ha).symm
      _ = b.reread := congrArg ofText hdisplay
      _ = b := reread_eq_iff.mpr hb

/-- Without a domain, a value with the separator is displayed like another identifier. -/
example : (⟨"a@b", ""⟩ : UserId).display = (⟨"a", "b"⟩ : UserId).display ∧
    (⟨"a@b", ""⟩ : UserId).reread = ⟨"a", "b"⟩ := by
  decide

end CallWatch.Identifier
