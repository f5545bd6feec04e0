/-! # Doubles in decimal digits

The double next to a decimal number, and the shortest decimal number next to that double. A positive
double is `m · 2 ^ q` with `m` below `2 ^ 53` and `q` at least `-1074`. -/

namespace CallWatch.Text

/-- A positive double, `significand · 2 ^ exponent`. -/
structure Double where
  significand : Nat
  exponent : Int
  deriving DecidableEq, Repr

namespace Double

/-- The quotient rounded to the nearest whole number, a half to the even neighbour. -/
def roundDiv (num den : Nat) : Nat :=
  let q := num / den
  let r := num % den
  if 2 * r < den then q
  else if den < 2 * r then q + 1
  else if q % 2 = 0 then q else q + 1

/-- Numerator and denominator of `n · b ^ e`. -/
def fraction (n b : Nat) (e : Int) : Nat × Nat :=
  if 0 ≤ e then (n * b.pow e.toNat, 1) else (n, b.pow (-e).toNat)

/-- Numerator and denominator of a quotient divided by `2 ^ q`. -/
def scaled (num den : Nat) (q : Int) : Nat × Nat :=
  if 0 ≤ q then (num, den * Nat.pow 2 q.toNat) else (num * Nat.pow 2 (-q).toNat, den)

/-- The least exponent from here on at which the quotient's whole part has 53 bits at most. -/
def fitExponent (num den : Nat) : Nat → Int → Int
  | 0, q => q
  | fuel + 1, q =>
    let (n, d) := scaled num den q
    if n / d < Nat.pow 2 53 then q else fitExponent num den fuel (q + 1)

/-- The double nearest to a positive quotient. -/
def nearest (num den : Nat) : Double :=
  let guess : Int := (Nat.log2 num : Int) - Nat.log2 den - 54
  let q := fitExponent num den 4 (max guess (-1074))
  let (n, d) := scaled num den q
  let m := roundDiv n d
  if m = Nat.pow 2 53 then ⟨Nat.pow 2 52, q + 1⟩ else ⟨m, q⟩

/-- Whether `n · 10 ^ p` rounds to the double: it lies between the middles to the neighbours, and
may be a middle if the significand is even. -/
def isNear (x : Double) (n : Nat) (p : Int) : Bool :=
  let low := if x.significand = Nat.pow 2 52 ∧ -1074 < x.exponent then 4 * x.significand - 1
    else 4 * x.significand - 2
  let high := 4 * x.significand + 2
  let (a, b) := fraction n 10 p
  let (c, d) := fraction 1 2 (x.exponent - 2)
  let value := a * d
  if x.significand % 2 = 0 then low * c * b ≤ value && value ≤ high * c * b
  else low * c * b < value && value < high * c * b

/-- The digits on the grid of `10 ^ p` that are nearest to the double, if they round to it. -/
def onGrid? (x : Double) (p : Int) : Option Nat :=
  let (a, b) := fraction x.significand 2 x.exponent
  let (c, d) := fraction 1 10 p
  let num := a * d
  let den := b * c
  let below := num / den
  let up := 2 * (num % den) > den
  let first := if up then below + 1 else below
  let second := if up then below else below + 1
  if first != 0 && x.isNear first p then some first
  else if second != 0 && x.isNear second p then some second
  else none

/-- The place of the leading decimal digit, searched upwards from below. -/
def leadingPlace (x : Double) : Nat → Int → Int
  | 0, p => p
  | fuel + 1, p =>
    let (a, b) := fraction x.significand 2 x.exponent
    let (c, d) := fraction 1 10 (p + 1)
    if a * d < b * c then p else leadingPlace x fuel (p + 1)

/-- The first grid below this place that holds a number which rounds to the double. -/
def firstGrid (x : Double) : Nat → Int → Nat × Int
  | 0, p => ((x.onGrid? p).getD 0, p)
  | fuel + 1, p =>
    match x.onGrid? p with
    | some n => (n, p)
    | none => firstGrid x fuel (p - 1)

/-- Digits without the zeros at their end, and the place of the last one. -/
def stripZeros : Nat → Nat → Int → Nat × Int
  | 0, n, p => (n, p)
  | fuel + 1, n, p => if n % 10 = 0 ∧ n ≠ 0 then stripZeros fuel (n / 10) (p + 1) else (n, p)

/-- The fewest digits that round to the double, and the place of the last one. -/
def shortest (x : Double) : Nat × Int :=
  let (n, p) := x.firstGrid 17 (x.leadingPlace 700 (-330))
  stripZeros 20 n p

/-- The digits of a positive number as text: with a point if the number lies from one
ten-thousandth up to below ten to the sixteenth, and with an exponent otherwise. -/
def digitsText (n : Nat) (p : Int) : List Char :=
  let ds := n.repr.toList
  let place : Int := p + ds.length - 1
  if -4 ≤ place ∧ place < 16 then
    if 0 ≤ p then ds ++ List.replicate p.toNat '0' ++ ['.', '0']
    else if 0 ≤ place then
      ds.take (place.toNat + 1) ++ '.' :: ds.drop (place.toNat + 1)
    else '0' :: '.' :: List.replicate (-place - 1).toNat '0' ++ ds
  else
    let mantissa := match ds with
      | [d] => [d]
      | d :: rest => d :: '.' :: rest
      | [] => []
    mantissa ++ 'e' :: (if place < 0 then '-' :: (-place).toNat.repr.toList
      else place.toNat.repr.toList)

end Double

/-- The text of the double nearest to `n · 10 ^ e`. -/
def doubleText (negative : Bool) (n : Nat) (e : Int) : String :=
  let sign := if negative then ['-'] else []
  let (num, den) := Double.fraction n 10 e
  let x := Double.nearest num den
  if n = 0 ∨ x.significand = 0 then String.ofList (sign ++ ['0', '.', '0'])
  else
    let (digits, place) := x.shortest
    String.ofList (sign ++ Double.digitsText digits place)

end CallWatch.Text
