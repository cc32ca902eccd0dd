import InfraSmells.Decimal.Power

/-!
# Double-precision numbers

A number of a document is a 64-bit binary floating-point number, given by its bits. `ofRatio`
rounds a fraction to the nearest such number, a tie going to the even significand, and `parts`
reads a finite number back as a significand times a power of two. All arithmetic is on natural
numbers.
-/

namespace InfraSmells

/-- A binary floating-point number of 64 bits. -/
structure Binary64 where
  bits : UInt64
  deriving DecidableEq, Repr, Inhabited

namespace Binary64

/-- The sign bit. -/
def isNegative (x : Binary64) : Bool :=
  0x8000000000000000 ≤ x.bits

/-- The bits without the sign. -/
def unsignedBits (x : Binary64) : Nat :=
  x.bits.toNat % twoPow 63

/-- The exponent field. -/
def exponentField (x : Binary64) : Nat :=
  x.unsignedBits / twoPow 52

/-- Positive or negative infinity. -/
def isInfinite (x : Binary64) : Bool :=
  x.unsignedBits == 2047 * twoPow 52

/-- Not a number. -/
def isNaN (x : Binary64) : Bool :=
  2047 * twoPow 52 < x.unsignedBits

/-- Neither infinite nor not a number. -/
def isFinite (x : Binary64) : Bool :=
  x.unsignedBits < 2047 * twoPow 52

/-- Zero of either sign. -/
def isZero (x : Binary64) : Bool :=
  x.unsignedBits == 0

/-- The significand `m` and the power `q` of a finite number of absolute value `m * 2 ^ q`. -/
def parts (x : Binary64) : Nat × Int :=
  let fraction := x.unsignedBits % twoPow 52
  if x.exponentField = 0 then (fraction, -1074)
  else (fraction + twoPow 52, (x.exponentField : Int) - 1075)

/-- The number of a sign and the bits below it. -/
def ofParts (negative : Bool) (unsigned : Nat) : Binary64 :=
  ⟨UInt64.ofNat (unsigned + if negative then twoPow 63 else 0)⟩

/-- Infinity of either sign. -/
def infinity (negative : Bool) : Binary64 :=
  ofParts negative (2047 * twoPow 52)

/-- The quotient rounded to the nearest natural number, a tie to the even one. -/
def roundDiv (num den : Nat) : Nat :=
  let q := num / den
  let twice := 2 * (num % den)
  if twice < den then q
  else if den < twice then q + 1
  else q + q % 2

/-- `num / den` in units of `2 ^ e`, as a fraction. -/
def inUnits (num den : Nat) (e : Int) : Nat × Nat :=
  if e < 0 then (num * twoPow (-e).toNat, den) else (num, den * twoPow e.toNat)

/-- The exponent at which `num / den` has 53 bits before the point. -/
def topExponent (num den : Nat) : Int :=
  let guess : Int := (Nat.log2 num : Int) - Nat.log2 den - 52
  let (n, d) := inUnits num den guess
  if n / d < twoPow 52 then guess - 1 else guess

/-- The bits of `m * 2 ^ q` without the sign. -/
def bitsOf (m : Nat) (q : Int) : Nat :=
  if m < twoPow 52 then m else (q + 1075).toNat * twoPow 52 + (m - twoPow 52)

/-- The number `m * 2 ^ q`; a significand of 54 bits is carried into the next power of two, and what lies
past the largest number becomes infinity. -/
def ofSignificand (negative : Bool) (m : Nat) (q : Int) : Binary64 :=
  let (m, q) := if m = twoPow 53 then (twoPow 52, q + 1) else (m, q)
  if 971 < q then infinity negative else ofParts negative (bitsOf m q)

/-- The number nearest to `num / den`; what lies past the largest number becomes infinity. -/
def ofRatio (negative : Bool) (num den : Nat) : Binary64 :=
  if num = 0 then ofParts negative 0
  else
    let e := max (topExponent num den) (-1074)
    let (n, d) := inUnits num den e
    ofSignificand negative (roundDiv n d) e

/-- The number of decimal digits of a natural number. -/
def digitCount (n : Nat) : Nat :=
  (Nat.toDigits 10 n).length

/-- The number nearest to `mantissa * 10 ^ exponent`. Exponents far outside the range are settled
without computing the power. -/
def ofDecimal (negative : Bool) (mantissa : Nat) (exponent : Int) : Binary64 :=
  if mantissa = 0 then ofParts negative 0
  else
    let magnitude := exponent + digitCount mantissa
    if 400 < magnitude then infinity negative
    else if magnitude < -400 then ofParts negative 0
    else if exponent < 0 then ofRatio negative mantissa (tenPow (-exponent).toNat)
    else ofRatio negative (mantissa * tenPow exponent.toNat) 1

/-- The number nearest to an integer. -/
def ofInt (n : Int) : Binary64 :=
  ofRatio (n < 0) n.natAbs 1

end Binary64

end InfraSmells
