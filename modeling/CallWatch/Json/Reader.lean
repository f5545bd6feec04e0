import CallWatch.Json.Basic

/-! # Reading JSON texts

A recursive descent over the characters of a text. The grammar is strict: no comments, no trailing
commas, no leading zeros, no control characters between quotes. What the grammar allows and no value
stands for (half a surrogate pair, a number beyond the range of a double) is read as `unreadable`.

`scan?` reads a whole text and sets no limit on the nesting; `parse?` asks in addition that every
part denotes a value and that the nesting stays within `maxDepth`. -/

namespace CallWatch.Json

/-- The four characters that may stand between tokens. -/
def isBlank (c : Char) : Bool := c == ' ' || c == '\n' || c == '\t' || c == '\r'

/-- The characters behind the blanks. -/
def skipBlanks (cs : List Char) : List Char := cs.dropWhile isBlank

/-! ### Numbers -/

/-- The number that a run of decimal digits stands for. -/
def digitsValue (ds : List Char) : Nat := ds.foldl (fun n c => 10 * n + (c.toNat - 48)) 0

/-- The least natural number that rounds beyond the largest double. -/
def doubleBound : Nat := Nat.pow 2 1024 - Nat.pow 2 970

/-- Whether `ds · 10 ^ e` lies beyond the doubles; digits may start with zeros. -/
def exceedsDouble (ds : List Char) (e : Int) : Bool :=
  let ds := ds.dropWhile (· == '0')
  let order : Int := ds.length + e
  if ds.isEmpty || order < 309 then false
  else if 309 < order then true
  else if 0 ≤ e then doubleBound ≤ digitsValue ds * Nat.pow 10 e.toNat
  else doubleBound * Nat.pow 10 (-e).toNat ≤ digitsValue ds

/-- The exponent part at the front, its value and the rest. A part that breaks off is an error. -/
def readExponent : List Char → Option (Option Int × List Char)
  | [] => some (none, [])
  | c :: cs =>
    if c == 'e' || c == 'E' then
      let (negative, cs) : Bool × List Char := match cs with
        | '-' :: r => (true, r)
        | '+' :: r => (false, r)
        | r => (false, r)
      match cs.takeWhile Char.isDigit with
      | [] => none
      | ds =>
        let n : Int := digitsValue ds
        some (some (if negative then -n else n), cs.dropWhile Char.isDigit)
    else some (none, c :: cs)

/-- The fraction part at the front, its digits and the rest. -/
def readFraction : List Char → Option (Option (List Char) × List Char)
  | '.' :: cs =>
    match cs.takeWhile Char.isDigit with
    | [] => none
    | ds => some (some ds, cs.dropWhile Char.isDigit)
  | cs => some (none, cs)

/-- The parts of a number: its sign, the digits of its whole part, and those of its fraction and its
exponent if it has them. -/
structure Numeral where
  negative : Bool
  whole : List Char
  fraction : Option (List Char)
  exponent : Option Int

namespace Numeral

/-- The digits of the whole part and the fraction together. -/
def digits (n : Numeral) : List Char := n.whole ++ n.fraction.getD []

/-- The power of ten that the last digit stands for. -/
def place (n : Numeral) : Int := n.exponent.getD 0 - (n.fraction.getD []).length

/-- The number is written like a whole one. -/
def isWhole (n : Numeral) : Bool := n.fraction.isNone && n.exponent.isNone

end Numeral

/-- The parts of a number at the front of the characters, and the rest. -/
def readNumeral (cs : List Char) : Option (Numeral × List Char) :=
  let (negative, body) : Bool × List Char := match cs with
    | '-' :: r => (true, r)
    | r => (false, r)
  let whole := body.takeWhile Char.isDigit
  if whole.isEmpty || (whole.head? == some '0' && 1 < whole.length) then none
  else
    match readFraction (body.dropWhile Char.isDigit) with
    | none => none
    | some (fraction, r) =>
      (readExponent r).map fun (exponent, rest) => (⟨negative, whole, fraction, exponent⟩, rest)

/-- A number at the front of the characters. -/
def readNumber (cs : List Char) : Option (Json × List Char) :=
  (readNumeral cs).map fun (n, rest) =>
    let value : Int := digitsValue n.whole
    if exceedsDouble n.digits n.place then (.unreadable, rest)
    else if n.isWhole && !(n.negative && value == 0) then
      (.int (if n.negative then -value else value), rest)
    else (.decimal (String.ofList (cs.take (cs.length - rest.length))), rest)

/-- What a literal stands for: its sign, its digits as a number, and the power of ten behind it. -/
def literalParts (literal : String) : Bool × Nat × Int :=
  match readNumeral literal.toList with
  | some (n, _) => (n.negative, digitsValue n.digits, n.place)
  | none => (false, 0, 0)

/-! ### Texts -/

/-- The value of a hexadecimal digit. -/
def hexValue? (c : Char) : Option Nat :=
  if '0' ≤ c ∧ c ≤ '9' then some (c.toNat - 48)
  else if 'a' ≤ c ∧ c ≤ 'f' then some (c.toNat - 87)
  else if 'A' ≤ c ∧ c ≤ 'F' then some (c.toNat - 55)
  else none

/-- The number that four hexadecimal digits stand for. -/
def hexFour? (a b c d : Char) : Option Nat := do
  let a ← hexValue? a
  let b ← hexValue? b
  let c ← hexValue? c
  let d ← hexValue? d
  return ((a * 16 + b) * 16 + c) * 16 + d

/-- What an escape with one letter stands for. -/
def escaped? : Char → Option Char
  | '"' => some '"'
  | '\\' => some '\\'
  | '/' => some '/'
  | 'b' => some '\x08'
  | 'f' => some '\x0c'
  | 'n' => some '\n'
  | 'r' => some '\r'
  | 't' => some '\t'
  | _ => none

/-- The first half of a surrogate pair. -/
def isHighHalf (n : Nat) : Bool := 0xD800 ≤ n && n < 0xDC00

/-- The second half of a surrogate pair. -/
def isLowHalf (n : Nat) : Bool := 0xDC00 ≤ n && n < 0xE000

/-- The character of a surrogate pair. -/
def joinHalves (high low : Nat) : Char :=
  Char.ofNat (0x10000 + (high - 0xD800) * 0x400 + (low - 0xDC00))

/-- A character in front of a text that was read. -/
def withChar (c : Char) :
    Option (Option (List Char) × List Char) → Option (Option (List Char) × List Char)
  | some (some s, rest) => some (some (c :: s), rest)
  | r => r

/-- The text that was read denotes nothing. -/
def withoutText :
    Option (Option (List Char) × List Char) → Option (Option (List Char) × List Char)
  | some (_, rest) => some (none, rest)
  | none => none

/-- The characters up to the closing quote, and the rest behind it. A text with half a surrogate
pair is passed over and denotes nothing. -/
def readText : List Char → Option (Option (List Char) × List Char)
  | '"' :: rest => some (some [], rest)
  | '\\' :: 'u' :: a :: b :: c :: d :: '\\' :: 'u' :: e :: f :: g :: h :: rest =>
    match hexFour? a b c d, hexFour? e f g h with
    | some high, some low =>
      if isHighHalf high && isLowHalf low then withChar (joinHalves high low) (readText rest)
      else if isHighHalf high || isLowHalf high then
        withoutText (readText ('\\' :: 'u' :: e :: f :: g :: h :: rest))
      else withChar (Char.ofNat high) (readText ('\\' :: 'u' :: e :: f :: g :: h :: rest))
    | _, _ => none
  | '\\' :: 'u' :: a :: b :: c :: d :: rest =>
    match hexFour? a b c d with
    | some n =>
      if isHighHalf n || isLowHalf n then withoutText (readText rest)
      else withChar (Char.ofNat n) (readText rest)
    | none => none
  | '\\' :: c :: rest =>
    match escaped? c with
    | some c => withChar c (readText rest)
    | none => none
  | c :: rest => if c.toNat < 32 then none else withChar c (readText rest)
  | [] => none
termination_by cs => cs.length

/-! ### Values -/

mutual

/-- A value at the front of the characters, and the rest behind it. The first argument bounds the
number of nested calls; the length of the text is enough. -/
def readValue : Nat → List Char → Option (Json × List Char)
  | 0, _ => none
  | fuel + 1, cs =>
    match skipBlanks cs with
    | 'n' :: 'u' :: 'l' :: 'l' :: rest => some (.null, rest)
    | 't' :: 'r' :: 'u' :: 'e' :: rest => some (.bool true, rest)
    | 'f' :: 'a' :: 'l' :: 's' :: 'e' :: rest => some (.bool false, rest)
    | '"' :: rest =>
      (readText rest).map fun (s, rest) =>
        ((s.map fun s => .string (String.ofList s)).getD .unreadable, rest)
    | '[' :: rest =>
      match skipBlanks rest with
      | ']' :: rest => some (.array [], rest)
      | _ => (readItems fuel rest).map fun (items, rest) => (.array items, rest)
    | '\x7b' :: rest =>
      match skipBlanks rest with
      | '\x7d' :: rest => some (.object [], rest)
      | _ =>
        (readMembers fuel rest).map fun (members, rest) =>
          ((members.map .object).getD .unreadable, rest)
    | cs => readNumber cs

/-- The items of an array up to its end. -/
def readItems : Nat → List Char → Option (List Json × List Char)
  | 0, _ => none
  | fuel + 1, cs =>
    match readValue fuel cs with
    | none => none
    | some (j, rest) =>
      match skipBlanks rest with
      | ']' :: rest => some ([j], rest)
      | ',' :: rest => (readItems fuel rest).map fun (items, rest) => (j :: items, rest)
      | _ => none

/-- The members of an object up to its end; none of them if a key denotes nothing. -/
def readMembers : Nat → List Char → Option (Option (List (String × Json)) × List Char)
  | 0, _ => none
  | fuel + 1, cs =>
    match skipBlanks cs with
    | '"' :: rest =>
      match readText rest with
      | none => none
      | some (key, rest) =>
        match skipBlanks rest with
        | ':' :: rest =>
          match readValue fuel rest with
          | none => none
          | some (j, rest) =>
            let first : Option (String × Json) := key.map fun s => (String.ofList s, j)
            match skipBlanks rest with
            | '\x7d' :: rest => some (first.map fun m => [m], rest)
            | ',' :: rest =>
              (readMembers fuel rest).map fun (members, rest) =>
                (first.bind fun m => members.map fun ms => m :: ms, rest)
            | _ => none
        | _ => none
    | _ => none

end

/-- The value of a whole text, with blanks around it and nothing else. -/
def scan? (text : String) : Option Json :=
  match readValue (text.length + 1) text.toList with
  | some (j, rest) => if (skipBlanks rest).isEmpty then some j else none
  | none => none

/-- The value of a text whose parts all denote values and do not nest too deep. -/
def parse? (text : String) : Option Json :=
  (scan? text).filter (readable maxDepth)

end CallWatch.Json
