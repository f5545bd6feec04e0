/-! # Blanks around a text

White space in the sense of the Unicode property of that name, and texts without it at the ends. -/

namespace CallWatch.Text

/-- The characters with the property White_Space. -/
def isWhiteSpace (c : Char) : Bool :=
  let n := c.toNat
  (0x09 ≤ n && n ≤ 0x0D) || n == 0x20 || n == 0x85 || n == 0xA0 || n == 0x1680
    || (0x2000 ≤ n && n ≤ 0x200A) || n == 0x2028 || n == 0x2029 || n == 0x202F || n == 0x205F
    || n == 0x3000

/-- The characters between the first and the last one that the test fails. -/
def trimChars (p : Char → Bool) (cs : List Char) : List Char :=
  ((cs.dropWhile p).reverse.dropWhile p).reverse

/-- A text without white space at its ends. -/
def trim (s : String) : String := String.ofList (trimChars isWhiteSpace s.toList)

/-- A text without double quotes at its ends. -/
def trimQuotes (s : String) : String := String.ofList (trimChars (· == '"') s.toList)

end CallWatch.Text
