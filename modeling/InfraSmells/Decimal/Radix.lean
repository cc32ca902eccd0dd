import InfraSmells.Decimal.Integer

/-!
# Integers in several bases

An integer of a command line is decimal, or binary, octal or hexadecimal after a mark that says so.
Single underscores may stand between its digits. `parseRadixInteger` reads one of 64 bits.
-/

namespace InfraSmells

/-- The base that the beginning of a number asks for, and the digits behind it. -/
def radixOf : List Char → Nat × List Char
  | '0' :: m :: c :: cs =>
    if m = 'b' || m = 'B' then (2, c :: cs)
    else if m = 'o' || m = 'O' then (8, c :: cs)
    else if m = 'x' || m = 'X' then (16, c :: cs)
    else (8, m :: c :: cs)
  | '0' :: cs => (8, cs)
  | cs => (10, cs)

/-- The value of a character as a digit. -/
def radixDigit? (c : Char) : Option Nat :=
  if '0' ≤ c && c ≤ '9' then some (c.toNat - '0'.toNat)
  else if 'a' ≤ c && c ≤ 'z' then some (c.toNat - 'a'.toNat + 10)
  else if 'A' ≤ c && c ≤ 'Z' then some (c.toNat - 'A'.toNat + 10)
  else none

/-- The value of digits below `2 ^ 64`, with the value `n` of the digits before them. Underscores are
passed over. -/
def readRadixDigits (text : String) (base n : Nat) : List Char → Except IntegerError Nat
  | [] => .ok n
  | c :: cs =>
    if c = '_' then readRadixDigits text base n cs
    else
      match radixDigit? c with
      | none => .error (.malformed text)
      | some d =>
        if base ≤ d then .error (.malformed text)
        else if n * base + d < twoPow 64 then readRadixDigits text base (n * base + d) cs
        else .error (.range text)

/-- Does every underscore stand between two digits? The mark of a base counts as a digit, and
`afterDigit` tells whether one stands in front. -/
def underscoresFit (afterDigit : Bool) : List Char → Bool
  | [] => true
  | ['_'] => false
  | '_' :: c :: cs => afterDigit && c != '_' && underscoresFit true (c :: cs)
  | _ :: cs => underscoresFit true cs

/-- Do the underscores of a number fit? -/
def underscoresFitNumber : List Char → Bool
  | '0' :: m :: cs =>
    if "bBoOxX".toList.contains m then underscoresFit true cs
    else underscoresFit false ('0' :: m :: cs)
  | cs => underscoresFit false cs

/-- Reads an integer in the base that it asks for. -/
def parseRadixInteger (text : String) : Except IntegerError Int := do
  let (negative, number) :=
    match text.toList with
    | '-' :: cs => (true, cs)
    | '+' :: cs => (false, cs)
    | cs => (false, cs)
  if number.isEmpty then throw (.malformed text)
  let (base, digits) := radixOf number
  let n ← readRadixDigits text base 0 digits
  if !underscoresFitNumber number then throw (.malformed text)
  let value : Int := if negative then -(n : Int) else n
  if fitsInt64 value then return value else throw (.range text)

/-- The message of an error in a number whose base is open. -/
def IntegerError.radixMessage : IntegerError → String
  | .malformed t => "strconv.ParseInt: parsing " ++ Text.quote t ++ ": invalid syntax"
  | .range t => "strconv.ParseInt: parsing " ++ Text.quote t ++ ": value out of range"

end InfraSmells
