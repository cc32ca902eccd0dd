import InfraSmells.Decimal.Shortest

/-!
# Single-precision numbers

A number of a document may be a 32-bit binary floating-point number, given by its bits. Its value is a
number of double precision, but its text has the fewest digits that tell it from its neighbours of 32
bits.
-/

namespace InfraSmells

/-- A binary floating-point number of 32 bits. -/
structure Binary32 where
  bits : UInt32
  deriving DecidableEq, Repr, Inhabited

namespace Binary32

/-- The sign bit. -/
def isNegative (x : Binary32) : Bool :=
  0x80000000 ≤ x.bits

/-- The exponent field. -/
def exponentField (x : Binary32) : Nat :=
  x.bits.toNat % twoPow 31 / twoPow 23

/-- The fraction field. -/
def fraction (x : Binary32) : Nat :=
  x.bits.toNat % twoPow 23

/-- The significand `m` and the power `q` of a finite number of absolute value `m * 2 ^ q`. -/
def parts (x : Binary32) : Nat × Int :=
  if x.exponentField = 0 then (x.fraction, -149)
  else (x.fraction + twoPow 23, (x.exponentField : Int) - 150)

/-- The same number in double precision. -/
def toBinary64 (x : Binary32) : Binary64 :=
  if x.exponentField = 255 then
    if x.fraction = 0 then .infinity x.isNegative
    else .ofParts x.isNegative
      (2047 * twoPow 52 + twoPow 51 + x.fraction % twoPow 22 * twoPow 29)
  else if x.exponentField = 0 then .ofRatio x.isNegative x.fraction (twoPow 149)
  else .ofParts x.isNegative ((x.exponentField + 896) * twoPow 52 + x.fraction * twoPow 29)

/-- The text of a number. -/
def text (x : Binary32) (f : NumberFormat) : String :=
  if x.exponentField = 255 then x.toBinary64.text f
  else
    let (m, q) := x.parts
    let digits : Scaled :=
      if m = 0 then ⟨0, 0⟩
      else (Binary64.roundingOf m q (x.fraction = 0 && 1 < x.exponentField)).shortest
    f.layOut x.isNegative digits

end Binary32

end InfraSmells
