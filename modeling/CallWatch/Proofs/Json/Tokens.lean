import CallWatch.Json.Printer
import CallWatch.Json.Reader
import Mathlib.Tactic.SplitIfs

/-! # Reading tokens

Numbers and texts are read back as what they were written from, whatever stands behind them, as long
as it does not carry the number on. -/

namespace CallWatch.Json

/-! ### Blanks -/

/-- Nothing but blanks. -/
def Blanks (cs : List Char) : Prop := ∀ c ∈ cs, isBlank c = true

theorem blanks_nil : Blanks [] := by simp [Blanks]

theorem skipBlanks_append {b : List Char} (hb : Blanks b) (cs : List Char) :
    skipBlanks (b ++ cs) = skipBlanks cs := List.dropWhile_append_of_pos hb

theorem skipBlanks_cons {c : Char} (hc : isBlank c = false) (cs : List Char) :
    skipBlanks (c :: cs) = c :: cs := by
  simp [skipBlanks, hc]

/-- The first character behind blanks is found. -/
theorem skipBlanks_blanks_cons {b : List Char} (hb : Blanks b) {c : Char} (hc : isBlank c = false)
    (cs : List Char) : skipBlanks (b ++ c :: cs) = c :: cs := by
  rw [skipBlanks_append hb, skipBlanks_cons hc]

/-! ### Numbers -/

/-- The digits of a number, as they are read again. -/
structure Digits (n : Nat) (ds : List Char) : Prop where
  isDigit : ∀ c ∈ ds, c.isDigit = true
  value : digitsValue ds = n
  nonempty : ds ≠ []
  /-- Only zero is written with a leading zero. -/
  leading : ds.head? = some '0' → ds.length ≤ 1

/-- A number other than zero is written without leading zeros. -/
theorem head?_toDigits_ne_zero {n : Nat} (hn : n ≠ 0) : (Nat.toDigits 10 n).head? ≠ some '0' := by
  induction n using Nat.strongRecOn with
  | ind n ih =>
    by_cases hlt : n < 10
    · simp [Nat.toDigits_of_lt_base hlt, hn]
    · rw [Nat.toDigits_of_base_le (by decide) (Nat.le_of_not_lt hlt), List.head?_append]
      have hfront := ih (n / 10) (by omega) (by omega)
      rcases hd : Nat.toDigits 10 (n / 10) with _ | ⟨c, cs⟩
      · exact absurd hd Nat.toDigits_ne_nil
      · simpa [hd] using hfront

theorem digits_repr (n : Nat) : Digits n n.repr.toList := by
  rw [Nat.toList_repr]
  constructor
  case isDigit => exact fun c hc => Nat.isDigit_of_mem_toDigits (by decide) (by decide) hc
  case value => exact Nat.ofDigitChars_eq_foldl.symm.trans Nat.ofDigitChars_ten_toDigits
  case nonempty => exact Nat.toDigits_ne_nil
  case leading =>
    intro hzero
    by_cases hn : n = 0
    · subst hn
      decide
    · exact absurd hzero (head?_toDigits_ne_zero hn)

/-- What stands behind a number does not carry it on. -/
def EndsNumber (rest : List Char) : Prop :=
  ∀ c ∈ rest.head?, c.isDigit = false ∧ c ≠ '.' ∧ c ≠ 'e' ∧ c ≠ 'E'

theorem isBlank_ends {c : Char} (hc : isBlank c = true) :
    c.isDigit = false ∧ c ≠ '.' ∧ c ≠ 'e' ∧ c ≠ 'E' := by
  simp only [isBlank, Bool.or_eq_true, beq_iff_eq] at hc
  rcases hc with ((rfl | rfl) | rfl) | rfl <;> decide

theorem Blanks.endsNumber {b : List Char} (hb : Blanks b) : EndsNumber b := fun _ hc =>
  isBlank_ends (hb _ (List.mem_of_mem_head? hc))

/-- A character that carries no number on, behind blanks. -/
theorem Blanks.endsNumber_cons {b : List Char} (hb : Blanks b) {c : Char}
    (hc : c.isDigit = false ∧ c ≠ '.' ∧ c ≠ 'e' ∧ c ≠ 'E') (rest : List Char) :
    EndsNumber (b ++ c :: rest) := by
  cases b with
  | nil =>
    intro x hx
    obtain rfl : c = x := by simpa using hx
    exact hc
  | cons y b => exact fun x hx => hb.endsNumber x (by simpa using hx)

section EndsNumber

variable {rest : List Char} (hr : EndsNumber rest)
include hr

theorem takeWhile_isDigit_of_ends : rest.takeWhile Char.isDigit = [] := by
  cases rest with
  | nil => rfl
  | cons c cs => simp [(hr c rfl).1]

theorem dropWhile_isDigit_of_ends : rest.dropWhile Char.isDigit = rest := by
  cases rest with
  | nil => rfl
  | cons c cs => simp [(hr c rfl).1]

theorem readFraction_of_ends : readFraction rest = some (none, rest) := by
  cases rest with
  | nil => rfl
  | cons c cs =>
    have hc := (hr c rfl).2.1
    unfold readFraction
    split
    · next heq => exact absurd (List.cons.inj heq).1 hc
    · rfl

theorem readExponent_of_ends : readExponent rest = some (none, rest) := by
  cases rest with
  | nil => rfl
  | cons c cs => simp [readExponent, (hr c rfl).2.2.1, (hr c rfl).2.2.2]

/-- The digits of a number are read to their end, with or without a sign in front. -/
theorem readNumeral_digits {n : Nat} {ds : List Char} (hds : Digits n ds) :
    readNumeral (ds ++ rest) = some (⟨false, ds, none, none⟩, rest) ∧
    readNumeral ('-' :: (ds ++ rest)) = some (⟨true, ds, none, none⟩, rest) := by
  have hwhole : (ds ++ rest).takeWhile Char.isDigit = ds := by
    rw [List.takeWhile_append_of_pos hds.isDigit, takeWhile_isDigit_of_ends hr, List.append_nil]
  have hbehind : (ds ++ rest).dropWhile Char.isDigit = rest := by
    rw [List.dropWhile_append_of_pos hds.isDigit, dropWhile_isDigit_of_ends hr]
  have hsign : ∀ r, ds ++ rest ≠ '-' :: r := by
    intro r heq
    rcases ds with _ | ⟨c, cs⟩
    · exact hds.nonempty rfl
    · have hc := hds.isDigit c List.mem_cons_self
      rw [(List.cons.inj heq).1] at hc
      cases hc
  constructor
  · unfold readNumeral
    split
    next negative body hparts =>
    split at hparts
    · next r heq => exact absurd heq (hsign r)
    · cases hparts
      simpa [hwhole, hbehind, hds.nonempty, readFraction_of_ends hr, readExponent_of_ends hr]
        using hds.leading
  · simpa [readNumeral, hwhole, hbehind, hds.nonempty, readFraction_of_ends hr,
      readExponent_of_ends hr] using hds.leading

end EndsNumber

/-- So many digits exceed no double. -/
def safeDigits : Nat := 308

/-- The number is written with so few digits that it exceeds no double. -/
def IsSmall (n : Int) : Prop := n.natAbs.repr.toList.length ≤ safeDigits

theorem isSmall_of_lt {n k : Nat} (hk : 0 < k ∧ k ≤ safeDigits) (hn : n < Nat.pow 10 k) :
    IsSmall n := by
  have hlength : n.repr.toList.length ≤ k := by
    rw [Nat.toList_repr]
    exact (Nat.length_toDigits_le_iff (by decide) hk.1).mpr hn
  exact Nat.le_trans hlength hk.2

theorem exceedsDouble_of_short {ds : List Char} (hshort : ds.length ≤ safeDigits) :
    exceedsDouble ds 0 = false := by
  have hle := (List.dropWhile_suffix (l := ds) (· == '0')).length_le
  unfold safeDigits at hshort
  unfold exceedsDouble
  rw [if_pos]
  simp only [Bool.or_eq_true, decide_eq_true_eq]
  exact .inr (by omega)

/-- **A small whole number is read back.** -/
theorem readNumber_intChars {n : Int} (hn : IsSmall n) {rest : List Char} (hr : EndsNumber rest) :
    readNumber (intChars n ++ rest) = some (.int n, rest) := by
  cases n with
  | ofNat n =>
    have hds := digits_repr n
    have hrange : exceedsDouble n.repr.toList 0 = false := exceedsDouble_of_short hn
    rw [intChars, readNumber]
    generalize n.repr.toList = ds at hds hrange
    simp [(readNumeral_digits hr hds).1, Numeral.digits, Numeral.place, Numeral.isWhole, hds.value,
      hrange]
  | negSucc n =>
    have hds := digits_repr (n + 1)
    have hrange : exceedsDouble (n + 1).repr.toList 0 = false := exceedsDouble_of_short hn
    rw [intChars, readNumber, List.cons_append]
    generalize (n + 1).repr.toList = ds at hds hrange
    simp [(readNumeral_digits hr hds).2, Numeral.digits, Numeral.place, Numeral.isWhole, hds.value,
      hrange, Int.negSucc_eq]

/-! ### Texts -/

theorem hexValue?_hexDigit {n : Nat} (hn : n < 16) : hexValue? (hexDigit n) = some n := by
  revert n
  decide

/-- The number of a control character is read back. -/
theorem hexFour?_hexDigit {n : Nat} (hn : n < 32) :
    hexFour? '0' '0' (hexDigit (n / 16)) (hexDigit (n % 16)) = some n := by
  have hhigh := hexValue?_hexDigit (n := n / 16) (by omega)
  have hlow := hexValue?_hexDigit (n := n % 16) (by omega)
  have hzero : hexValue? '0' = some 0 := by decide
  simp only [hexFour?, hzero, hhigh, hlow, Option.pure_def, Option.bind_eq_bind, Option.bind_some]
  exact congrArg some (by omega)

theorem readText_plain {c : Char} (hquote : c ≠ '"') (hback : c ≠ '\\') (hc : 32 ≤ c.toNat)
    (tail : List Char) : readText (c :: tail) = withChar c (readText tail) := by
  rw [readText] <;> simp [hquote, hback]
  omega

/-- A letter behind a backslash stands for a character. -/
theorem readText_letter {x c : Char} (hx : x ≠ 'u') (hc : escaped? x = some c) (tail : List Char) :
    readText ('\\' :: x :: tail) = withChar c (readText tail) := by
  rw [readText] <;> simp [hx, hc]

theorem readText_eq_none {a b c d : Char} (hnone : hexFour? a b c d = none) (tail : List Char) :
    readText ('\\' :: 'u' :: a :: b :: c :: d :: tail) = none := by
  by_cases htail : ∃ e f g h rest, tail = '\\' :: 'u' :: e :: f :: g :: h :: rest
  · obtain ⟨e, f, g, h, rest, rfl⟩ := htail
    simp [readText.eq_2, hnone]
  · rw [readText.eq_3 _ _ _ _ _ fun e f g h rest heq => htail ⟨e, f, g, h, rest, heq⟩]
    simp [hnone]

/-- A number that is no half of a pair stands for its character, even in front of another one. -/
theorem readText_number {a b c d : Char} {n : Nat} (hn : hexFour? a b c d = some n)
    (hwhole : isHighHalf n = false ∧ isLowHalf n = false) (tail : List Char) :
    readText ('\\' :: 'u' :: a :: b :: c :: d :: tail) =
      withChar (Char.ofNat n) (readText tail) := by
  by_cases htail : ∃ e f g h rest, tail = '\\' :: 'u' :: e :: f :: g :: h :: rest
  · obtain ⟨e, f, g, h, rest, rfl⟩ := htail
    rw [readText.eq_2]
    rcases hnext : hexFour? e f g h with _ | low
    · simp [hn, readText_eq_none hnext, withChar]
    · simp [hn, hwhole]
  · rw [readText.eq_3 _ _ _ _ _ fun e f g h rest heq => htail ⟨e, f, g, h, rest, heq⟩]
    simp [hn, hwhole]

/-- A character stands between quotes as a letter behind a backslash, as its number, or as itself. -/
theorem escapeChar_cases (c : Char) :
    (∃ x, x ≠ 'u' ∧ escaped? x = some c ∧ escapeChar c = ['\\', x]) ∨
    (c.toNat < 32 ∧ escapeChar c =
      ['\\', 'u', '0', '0', hexDigit (c.toNat / 16), hexDigit (c.toNat % 16)]) ∨
    (c ≠ '"' ∧ c ≠ '\\' ∧ 32 ≤ c.toNat ∧ escapeChar c = [c]) := by
  unfold escapeChar
  split_ifs with hquote hback hn hr ht hb hf hcontrol
  · exact .inl ⟨'"', by decide, by rw [hquote]; rfl, rfl⟩
  · exact .inl ⟨'\\', by decide, by rw [hback]; rfl, rfl⟩
  · exact .inl ⟨'n', by decide, by rw [hn]; rfl, rfl⟩
  · exact .inl ⟨'r', by decide, by rw [hr]; rfl, rfl⟩
  · exact .inl ⟨'t', by decide, by rw [ht]; rfl, rfl⟩
  · exact .inl ⟨'b', by decide, by rw [hb]; rfl, rfl⟩
  · exact .inl ⟨'f', by decide, by rw [hf]; rfl, rfl⟩
  · exact .inr (.inl ⟨hcontrol, rfl⟩)
  · exact .inr (.inr ⟨hquote, hback, Nat.le_of_not_lt hcontrol, rfl⟩)

/-- A character is read back from how it stands between quotes, whatever stands behind it. -/
theorem readText_escapeChar (c : Char) (tail : List Char) :
    readText (escapeChar c ++ tail) = withChar c (readText tail) := by
  obtain ⟨x, hx, hc, heq⟩ | ⟨hcontrol, heq⟩ | ⟨hquote, hback, hplain, heq⟩ := escapeChar_cases c
  · rw [heq]
    exact readText_letter hx hc tail
  · rw [heq]
    have hwhole : isHighHalf c.toNat = false ∧ isLowHalf c.toNat = false := by
      simp only [isHighHalf, isLowHalf, Bool.and_eq_false_iff, decide_eq_false_iff_not]
      omega
    have hread := readText_number (hexFour?_hexDigit hcontrol) hwhole tail
    rwa [Char.ofNat_toNat] at hread
  · rw [heq]
    exact readText_plain hquote hback hplain tail

/-- **A text is read back from between its quotes.** -/
theorem readText_quoted (cs rest : List Char) :
    readText (cs.flatMap escapeChar ++ '"' :: rest) = some (some cs, rest) := by
  induction cs with
  | nil => simp [readText]
  | cons c cs ih =>
    rw [List.flatMap_cons, List.append_assoc, readText_escapeChar, ih]
    rfl

end CallWatch.Json
