import InfraSmells.Decimal.Binary64

/-!
# Decimal text of a number

`shortest` finds the fewest decimal digits that read back as a given number and, among those, the
ones nearest to it. A `NumberFormat` then decides where positional notation ends and how an
exponent is written; `Binary64.text` applies it.
-/

namespace InfraSmells

/-- A decimal number `digits * 10 ^ exponent`. -/
structure Scaled where
  digits : Nat
  exponent : Int
  deriving DecidableEq, Repr

namespace Binary64

/-- The order of `a * 10 ^ k` and `b / d`, with a power of either sign. -/
def compareDecimal (a : Nat) (k : Int) (b d : Nat) : Ordering :=
  if k < 0 then compare (a * d) (b * tenPow (-k).toNat) else compare (a * tenPow k.toNat * d) b

/-- The interval of reals that round to a number `x ≠ 0`: the number itself, its ends and a common
denominator, and whether the ends belong to it. -/
structure Rounding where
  value : Nat
  low : Nat
  high : Nat
  den : Nat
  closed : Bool

/-- The rounding interval of `m * 2 ^ q`, for `m ≠ 0`. With `narrow` the next smaller number is only half
as far as the next larger one. -/
def roundingOf (m : Nat) (q : Int) (narrow : Bool) : Rounding :=
  let low := if narrow then 4 * m - 1 else 4 * m - 2
  let closed := m % 2 = 0
  if q < 2 then ⟨4 * m, low, 4 * m + 2, twoPow (2 - q).toNat, closed⟩
  else
    let u := twoPow (q - 2).toNat
    ⟨4 * m * u, low * u, (4 * m + 2) * u, 1, closed⟩

/-- The rounding interval of a finite number that is not zero. -/
def rounding (x : Binary64) : Rounding :=
  let (m, q) := x.parts
  roundingOf m q (m = twoPow 52 && 1 < x.exponentField)

/-- Does `d * 10 ^ k` lie in the interval? -/
def Rounding.holds (r : Rounding) (d : Nat) (k : Int) : Bool :=
  match compareDecimal d k r.low r.den, compareDecimal d k r.high r.den with
  | .gt, .lt => true
  | .eq, _ | _, .eq => r.closed
  | _, _ => false

/-- The least `j` with `10 ^ j * value ≥ den`, for a value below one. -/
def leadingZeros (value den : Nat) : Nat → Nat → Nat
  | 0, j => j
  | fuel + 1, j => if den ≤ value * tenPow j then j else leadingZeros value den fuel (j + 1)

/-- The power of ten of the first digit of `value / den`. -/
def decimalExponent (value den : Nat) : Int :=
  if den ≤ value then (digitCount (value / den) : Int) - 1
  else -(leadingZeros value den 400 1 : Int)

/-- Removes trailing zeros from the digits. -/
def stripZeros : Nat → Scaled → Scaled
  | 0, s => s
  | fuel + 1, s =>
    if s.digits ≠ 0 && s.digits % 10 = 0 then stripZeros fuel ⟨s.digits / 10, s.exponent + 1⟩
    else s

/-- The nearest point of the interval on the grid of multiples of `10 ^ k`, if the interval holds
one of the two grid points around the value. -/
def gridPoint (r : Rounding) (k : Int) : Option Nat :=
  let (n, d) :=
    if k < 0 then (r.value * tenPow (-k).toNat, r.den) else (r.value, r.den * tenPow k.toNat)
  let below := n / d
  match r.holds below k, r.holds (below + 1) k with
  | true, true => some (roundDiv n d)
  | true, false => some below
  | false, true => some (below + 1)
  | false, false => none

/-- Tries grids of more and more digits, the first digit standing at `10 ^ top`. -/
def shortestFrom (r : Rounding) (top : Int) : Nat → Nat → Scaled
  | 0, n => ⟨(gridPoint r (top - n)).getD 0, top - n⟩
  | fuel + 1, n =>
    match gridPoint r (top - n) with
    | some d => ⟨d, top - n⟩
    | none => shortestFrom r top fuel (n + 1)

/-- The fewest digits of the interval of a number. -/
def Rounding.shortest (r : Rounding) : Scaled :=
  stripZeros 20 (shortestFrom r (decimalExponent r.value r.den) 17 0)

/-- The fewest digits that read back as a finite number, its sign apart. -/
def shortest (x : Binary64) : Scaled :=
  if x.isZero then ⟨0, 0⟩ else x.rounding.shortest

end Binary64

/-- How the decimal text of a number is laid out. Numbers whose first digit stands for a power of
ten from `plainFrom` up to, but excluding, `plainBelow` are written without exponent; other numbers
have an exponent of at least `exponentWidth` digits. Without bounds no number has an exponent. -/
structure NumberFormat where
  bounds : Option (Int × Int)
  exponentWidth : Nat

namespace NumberFormat

/-- Never an exponent. -/
def plain : NumberFormat := ⟨none, 0⟩

/-- The numbers of a written document: an exponent below `1e-6` and from `1e21` on, without
leading zeros. -/
def document : NumberFormat := ⟨some (-6, 21), 1⟩

/-- The numbers shown in a message: an exponent below `1e-4` and from `1e6` on, of two digits. -/
def message : NumberFormat := ⟨some (-4, 6), 2⟩

end NumberFormat

namespace Scaled

/-- The digits of a number with the decimal point at its place. -/
def positional (s : Scaled) : String :=
  let ds := Nat.toDigits 10 s.digits
  if 0 ≤ s.exponent then String.ofList (ds ++ List.replicate s.exponent.toNat '0')
  else
    let places := (-s.exponent).toNat
    let padded := List.replicate (places + 1 - ds.length) '0' ++ ds
    let whole := padded.length - places
    String.ofList (padded.take whole ++ '.' :: padded.drop whole)

/-- One digit before the point, the others behind it, and an exponent. -/
def scientific (s : Scaled) (width : Nat) : String :=
  let ds := Nat.toDigits 10 s.digits
  let e : Int := s.exponent + ds.length - 1
  let digits := match ds with
    | [] => []
    | [d] => [d]
    | d :: rest => d :: '.' :: rest
  let exponent := Nat.toDigits 10 e.natAbs
  let zeros := List.replicate (width - exponent.length) '0'
  String.ofList (digits ++ 'e' :: (if e < 0 then '-' else '+') :: (zeros ++ exponent))

end Scaled

/-- The text of a decimal number and its sign. -/
def NumberFormat.layOut (f : NumberFormat) (negative : Bool) (s : Scaled) : String :=
  let top : Int := s.exponent + (Nat.toDigits 10 s.digits).length - 1
  let sign := if negative then "-" else ""
  match f.bounds with
  | none => sign ++ s.positional
  | some (low, high) =>
    if s.digits = 0 || (low ≤ top && top < high) then sign ++ s.positional
    else sign ++ s.scientific f.exponentWidth

/-- The text of a number. -/
def Binary64.text (x : Binary64) (f : NumberFormat) : String :=
  if x.isNaN then "NaN"
  else if x.isInfinite then (if x.isNegative then "-Inf" else "+Inf")
  else f.layOut x.isNegative x.shortest

/-- The text of a finite number with a fixed number of places, a tie going to the even digit. -/
def Binary64.fixed (x : Binary64) (places : Nat) : String :=
  let (m, q) := x.parts
  let n :=
    if q < 0 then Binary64.roundDiv (m * tenPow places) (twoPow (-q).toNat)
    else m * twoPow q.toNat * tenPow places
  (if x.isNegative then "-" else "") ++ Scaled.positional ⟨n, -(places : Int)⟩

end InfraSmells
