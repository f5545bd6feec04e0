/-! # Numerals

Natural numbers in decimal digits: an optional plus sign, then one digit or more. Leading zeros are
allowed, blanks and minus signs are not. -/

namespace CallWatch.Text

/-- The largest number of 64 bits. -/
def maxWord64 : Nat := UInt64.size - 1

/-- The largest number of 32 bits. -/
def maxWord32 : Nat := UInt32.size - 1

/-- The number that a run of decimal digits stands for. -/
def numeralValue (ds : List Char) : Nat := ds.foldl (fun n c => 10 * n + (c.toNat - 48)) 0

/-- The number behind an optional plus sign. -/
def readNumeral? (s : String) : Option Nat :=
  let ds := match s.toList with
    | '+' :: r => r
    | r => r
  if !ds.isEmpty && ds.all Char.isDigit then some (numeralValue ds) else none

/-- The number, if it lies within the two bounds. -/
def readWithin? (min max : Nat) (s : String) : Option Nat :=
  (readNumeral? s).filter fun n => min ≤ n && n ≤ max

theorem readWithin?_eq_some {min max n : Nat} {s : String} :
    readWithin? min max s = some n ↔ readNumeral? s = some n ∧ min ≤ n ∧ n ≤ max := by
  simp [readWithin?, Option.filter_eq_some_iff]

end CallWatch.Text
