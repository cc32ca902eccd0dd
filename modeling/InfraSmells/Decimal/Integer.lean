import InfraSmells.Decimal.Power
import InfraSmells.Text.Letter
import InfraSmells.Text.Quoted

/-!
# Integers of 64 bits

Reading a decimal integer with an optional sign. A text fails either because it is no integer or
because its value does not fit into 64 bits; reading goes from left to right, so digits that run
past the unsigned range fail before a later character that is no digit is seen.
-/

namespace InfraSmells

/-- Why a text is no 64-bit integer. -/
inductive IntegerError where
  | malformed (text : String)
  | range (text : String)
  deriving DecidableEq, Repr

/-- The message of an error. -/
def IntegerError.message : IntegerError → String
  | .malformed t => "strconv.Atoi: parsing " ++ Text.quote t ++ ": invalid syntax"
  | .range t => "strconv.Atoi: parsing " ++ Text.quote t ++ ": value out of range"

/-- The largest 64-bit integer. -/
def maxInt64 : Int := (twoPow 63 : Int) - 1

/-- The smallest 64-bit integer. -/
def minInt64 : Int := -(twoPow 63 : Int)

/-- Is the integer within 64 bits? -/
def fitsInt64 (n : Int) : Bool :=
  minInt64 ≤ n && n ≤ maxInt64

/-- The value of digits below `2 ^ 64`, with the value `n` of the digits before them. -/
def readDigits (text : String) (n : Nat) : List Char → Except IntegerError Nat
  | [] => .ok n
  | c :: cs =>
    if Text.isDigit c then
      let m := 10 * n + (c.toNat - '0'.toNat)
      if m < twoPow 64 then readDigits text m cs else .error (.range text)
    else .error (.malformed text)

/-- Reads an integer. -/
def parseInteger (text : String) : Except IntegerError Int := do
  let (negative, digits) :=
    match text.toList with
    | '-' :: ds => (true, ds)
    | '+' :: ds => (false, ds)
    | ds => (false, ds)
  if digits.isEmpty then throw (.malformed text)
  let n ← readDigits text 0 digits
  let value : Int := if negative then -(n : Int) else n
  if fitsInt64 value then return value else throw (.range text)

end InfraSmells
