import CallWatch.Json.Basic

/-! # JSON texts

Two written forms of a value: one without blanks, and one with a member or an item to a line and two
blanks for each level. Quotes, backslashes and control characters are escaped, and nothing else. -/

namespace CallWatch.Json

/-- The digit of a number below sixteen, small letters above nine. -/
def hexDigit (n : Nat) : Char :=
  if n < 10 then Char.ofNat (48 + n) else Char.ofNat (87 + n)

/-- A character as it stands between quotes. -/
def escapeChar (c : Char) : List Char :=
  if c = '"' then ['\\', '"']
  else if c = '\\' then ['\\', '\\']
  else if c = '\n' then ['\\', 'n']
  else if c = '\r' then ['\\', 'r']
  else if c = '\t' then ['\\', 't']
  else if c = '\x08' then ['\\', 'b']
  else if c = '\x0c' then ['\\', 'f']
  else if c.toNat < 32 then ['\\', 'u', '0', '0', hexDigit (c.toNat / 16), hexDigit (c.toNat % 16)]
  else [c]

/-- A text between quotes. -/
def quoted (s : String) : List Char :=
  '"' :: s.toList.flatMap escapeChar ++ ['"']

/-- A whole number in decimal digits. -/
def intChars : Int → List Char
  | .ofNat n => n.repr.toList
  | .negSucc n => '-' :: (n + 1).repr.toList

mutual

/-- A value without blanks. -/
def compactChars : Json → List Char
  | .null => "null".toList
  | .bool true => "true".toList
  | .bool false => "false".toList
  | .int n => intChars n
  | .decimal literal => literal.toList
  | .string s => quoted s
  | .array [] => ['[', ']']
  | .array (j :: rest) => '[' :: compactChars j ++ itemsChars rest
  | .object [] => ['\x7b', '\x7d']
  | .object ((k, j) :: rest) =>
      '\x7b' :: quoted k ++ ':' :: compactChars j ++ membersChars rest
  | .unreadable => "null".toList

/-- The items behind the first one, and the end of the array. -/
def itemsChars : List Json → List Char
  | [] => [']']
  | j :: rest => ',' :: compactChars j ++ itemsChars rest

/-- The members behind the first one, and the end of the object. -/
def membersChars : List (String × Json) → List Char
  | [] => ['\x7d']
  | (k, j) :: rest => ',' :: quoted k ++ ':' :: compactChars j ++ membersChars rest

end

/-- The text of a value without blanks. -/
def compact (j : Json) : String := String.ofList j.compactChars

/-- A line break and the blanks of a level. -/
def newline (level : Nat) : List Char := '\n' :: List.replicate (2 * level) ' '

mutual

/-- A value over several lines, from this level inwards. -/
def prettyChars (level : Nat) : Json → List Char
  | .array [] => ['[', ']']
  | .array (j :: rest) =>
      '[' :: newline (level + 1) ++ prettyChars (level + 1) j ++ prettyItems level rest
  | .object [] => ['\x7b', '\x7d']
  | .object ((k, j) :: rest) =>
      '\x7b' :: newline (level + 1) ++ quoted k ++ ':' :: ' ' :: prettyChars (level + 1) j
        ++ prettyMembers level rest
  | .null => "null".toList
  | .bool true => "true".toList
  | .bool false => "false".toList
  | .int n => intChars n
  | .decimal literal => literal.toList
  | .string s => quoted s
  | .unreadable => "null".toList

/-- The items behind the first one, and the end of the array at this level. -/
def prettyItems (level : Nat) : List Json → List Char
  | [] => newline level ++ [']']
  | j :: rest =>
      ',' :: newline (level + 1) ++ prettyChars (level + 1) j ++ prettyItems level rest

/-- The members behind the first one, and the end of the object at this level. -/
def prettyMembers (level : Nat) : List (String × Json) → List Char
  | [] => newline level ++ ['\x7d']
  | (k, j) :: rest =>
      ',' :: newline (level + 1) ++ quoted k ++ ':' :: ' ' :: prettyChars (level + 1) j
        ++ prettyMembers level rest

end

/-- The text of a value over several lines. -/
def pretty (j : Json) : String := String.ofList (j.prettyChars 0)

end CallWatch.Json
