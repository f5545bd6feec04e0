/-! # Letters of the basic alphabet

Case and the comparison that ignores it, for the letters from a to z. Every other character is
itself in both cases. The words compared here (names of levels, spellings of yes and no) hold no
letter that a character outside this alphabet turns into, so nothing is lost by leaving the rest
alone. -/

namespace CallWatch.Text

/-- The text with small letters. -/
def lower (s : String) : String := String.ofList (s.toList.map Char.toLower)

/-- The text with capital letters. -/
def upper (s : String) : String := String.ofList (s.toList.map Char.toUpper)

/-- The two texts differ in case at most. -/
def sameLetters (s t : String) : Bool := lower s == lower t

end CallWatch.Text
