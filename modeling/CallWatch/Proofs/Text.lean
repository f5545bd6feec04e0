import CallWatch.Text.Blank
import CallWatch.Text.Letters
import CallWatch.Text.Numeral
import Mathlib

/-! # Texts

What trimming leaves alone, which numbers numerals stand for, and texts that differ in case at
most. -/

namespace CallWatch.Text

/-! ### Trimming -/

/-- A text with a double quote as its first or last character. -/
def QuotedAtEnd (s : String) : Prop := s.toList.head? = some '"' ∨ s.toList.getLast? = some '"'

instance (s : String) : Decidable (QuotedAtEnd s) := inferInstanceAs (Decidable (_ ∨ _))

theorem trimChars_eq_rdropWhile (p : Char → Bool) (cs : List Char) :
    trimChars p cs = (cs.dropWhile p).rdropWhile p := rfl

/-- Trimming leaves alone what has nothing to trim at either end. -/
theorem trimChars_eq_self_iff {p : Char → Bool} {cs : List Char} :
    trimChars p cs = cs ↔
      (∀ c, cs.head? = some c → p c = false) ∧ ∀ c, cs.getLast? = some c → p c = false := by
  rw [trimChars_eq_rdropWhile]
  have hfront : cs.dropWhile p = cs ↔ ∀ c, cs.head? = some c → p c = false := by
    cases cs <;> simp [List.dropWhile_eq_self_iff]
  have hback : cs.rdropWhile p = cs ↔ ∀ c, cs.getLast? = some c → p c = false := by
    rw [List.rdropWhile_eq_self_iff]
    constructor
    · intro h c hc
      obtain ⟨hne, rfl⟩ := List.mem_getLast?_eq_getLast hc
      simpa using h hne
    · intro h hne
      simpa using h _ (List.getLast?_eq_some_getLast hne)
  rw [← hfront, ← hback]
  constructor
  · intro h
    -- what both ends leave is no longer than what one of them leaves
    have hlast := (List.rdropWhile_prefix p (cs.dropWhile p)).length_le
    have hfirst := (List.dropWhile_suffix p (l := cs)).length_le
    rw [h] at hlast
    have hsame : cs.dropWhile p = cs :=
      (List.dropWhile_suffix p).eq_of_length (Nat.le_antisymm hfirst hlast)
    rw [hsame] at h
    exact ⟨hsame, h⟩
  · rintro ⟨hf, hb⟩
    rw [hf, hb]

theorem trimQuotes_eq_self_iff {s : String} : trimQuotes s = s ↔ ¬ QuotedAtEnd s := by
  have hlist : trimQuotes s = s ↔ trimChars (· == '"') s.toList = s.toList := by
    rw [trimQuotes, ← String.toList_inj, String.toList_ofList]
  rw [hlist, trimChars_eq_self_iff, QuotedAtEnd, not_or]
  simp only [beq_eq_false_iff_ne]
  exact ⟨fun h => ⟨fun hc => h.1 _ hc rfl, fun hc => h.2 _ hc rfl⟩,
    fun h => ⟨fun c hc he => h.1 (he ▸ hc), fun c hc he => h.2 (he ▸ hc)⟩⟩

/-! ### Case -/

theorem upper_lower (s : String) : upper (lower s) = upper s := by
  have hchar : Char.toUpper ∘ Char.toLower = Char.toUpper := funext Char.toUpper_toLower_eq_toUpper
  simp [upper, lower, hchar]

theorem lower_upper (s : String) : lower (upper s) = lower s := by
  have hchar : Char.toLower ∘ Char.toUpper = Char.toLower := funext Char.toLower_toUpper_eq_toLower
  simp [upper, lower, hchar]

/-- Texts that differ in case at most are the same in capital letters. -/
theorem sameLetters_iff {s t : String} : sameLetters s t = true ↔ upper s = upper t := by
  rw [sameLetters, beq_iff_eq]
  constructor
  · intro h
    rw [← upper_lower s, h, upper_lower]
  · intro h
    rw [← lower_upper s, h, lower_upper]

/-! ### Numerals -/

/-- A numeral for a number: decimal digits, one at least, behind an optional plus sign. -/
def Numeral (s : String) (n : ℕ) : Prop :=
  ∃ digits, (s.toList = digits ∨ s.toList = '+' :: digits) ∧ digits ≠ [] ∧
    (∀ d ∈ digits, d.isDigit) ∧ Nat.ofDigitChars 10 digits 0 = n

theorem digits_eq_some_iff {ds : List Char} {n : ℕ} :
    (if !ds.isEmpty && ds.all Char.isDigit then some (numeralValue ds) else none) = some n ↔
      ds ≠ [] ∧ (∀ d ∈ ds, d.isDigit) ∧ Nat.ofDigitChars 10 ds 0 = n := by
  have hvalue : numeralValue ds = Nat.ofDigitChars 10 ds 0 := rfl
  simp [hvalue, and_assoc]

theorem readNumeral?_eq_some_iff {s : String} {n : ℕ} : readNumeral? s = some n ↔ Numeral s n := by
  unfold readNumeral? Numeral
  split
  · next r hs =>
    rw [digits_eq_some_iff]
    constructor
    · rintro ⟨hne, hdigits, hn⟩
      exact ⟨r, .inr hs, hne, hdigits, hn⟩
    · rintro ⟨ds, h | h, hne, hdigits, hn⟩
      · -- the sign is no digit
        have hsign := hdigits '+' (by rw [← h, hs]; exact List.mem_cons_self)
        exact absurd hsign (by decide)
      · rw [hs] at h
        obtain rfl := (List.cons.inj h).2
        exact ⟨hne, hdigits, hn⟩
  · next hs =>
    rw [digits_eq_some_iff]
    constructor
    · rintro ⟨hne, hdigits, hn⟩
      exact ⟨s.toList, .inl rfl, hne, hdigits, hn⟩
    · rintro ⟨ds, h | h, hne, hdigits, hn⟩
      · rw [h]
        exact ⟨hne, hdigits, hn⟩
      · exact absurd h (hs ds)

theorem readWithin?_eq_some_iff {lo hi n : ℕ} {s : String} :
    readWithin? lo hi s = some n ↔ Numeral s n ∧ lo ≤ n ∧ n ≤ hi := by
  rw [readWithin?_eq_some, readNumeral?_eq_some_iff]

end CallWatch.Text
