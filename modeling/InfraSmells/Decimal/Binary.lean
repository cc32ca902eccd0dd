import InfraSmells.Decimal.Binary64
import InfraSmells.Decimal.Integer
import InfraSmells.Decimal.Shortest

/-!
# Binary numbers of a chosen precision

A number has a sign, a precision in bits and a size: zero, `mantissa * 2 ^ exponent` or infinity. The
result of an operation is the exact one rounded to the nearest number of its precision, a tie going to
the even mantissa; one too large is infinite and one too small is zero. Operations without a meaning,
such as the difference of two infinities, have no result.

`Binary.ofText?` reads a decimal text, and `Binary.text` writes the digits that tell a number from its
neighbours of the same precision.
-/

namespace InfraSmells

/-- The size of a number, its sign apart. -/
inductive Magnitude where
  | zero
  /-- `mantissa * 2 ^ exponent`, with a mantissa that is not zero. -/
  | finite (mantissa : Nat) (exponent : Int)
  | infinite
  deriving DecidableEq, Repr, Inhabited

/-- A binary number. -/
structure Binary where
  negative : Bool
  precision : Nat
  magnitude : Magnitude
  deriving DecidableEq, Repr, Inhabited

/-- The number of bits of a natural number. -/
def bitLength (n : Nat) : Nat :=
  if n = 0 then 0 else Nat.log2 n + 1

namespace Magnitude

/-- The largest number of bits in front of the binary point. -/
def maxTop : Int := (twoPow 31 : Int) - 1

/-- The smallest number of bits in front of the binary point, negative for zeros behind it. -/
def minTop : Int := -(twoPow 31 : Int)

/-- The number of bits in front of the binary point. -/
def top (mantissa : Nat) (exponent : Int) : Int :=
  bitLength mantissa + exponent

/-- `mantissa * 2 ^ exponent` rounded to a precision. With `more` the exact number is a little larger
than that. -/
def round (precision mantissa : Nat) (exponent : Int) (more : Bool) : Magnitude :=
  if mantissa = 0 || top mantissa exponent < minTop then .zero
  else if maxTop < top mantissa exponent then .infinite
  else
    let extra := bitLength mantissa - precision
    if extra = 0 then .finite mantissa exponent
    else
      let quotient := mantissa / twoPow extra
      let rest := mantissa % twoPow extra
      let half := twoPow (extra - 1)
      let up := half < rest || (rest = half && (more || quotient % 2 = 1))
      let rounded := if up then quotient + 1 else quotient
      let exponent := exponent + extra
      if maxTop < top rounded exponent then .infinite else .finite rounded exponent

/-- A size rounded to a precision. -/
def roundTo (precision : Nat) : Magnitude → Magnitude
  | .finite m e => round precision m e false
  | other => other

/-- The mantissas of two sizes at their lower exponent. -/
def aligned (m : Nat) (e : Int) (n : Nat) (f : Int) : Nat × Nat × Int :=
  let low := min e f
  (m * twoPow (e - low).toNat, n * twoPow (f - low).toNat, low)

/-- The order of two sizes. -/
def order : Magnitude → Magnitude → Ordering
  | .zero, .zero | .infinite, .infinite => .eq
  | .zero, _ | _, .infinite => .lt
  | _, .zero | .infinite, _ => .gt
  | .finite m e, .finite n f =>
    (compare (top m e) (top n f)).then
      (let (a, b, _) := aligned m e n f
       compare a b)

/-- The quotient of two finite sizes. Bits are added until the quotient has more than the precision
asks for. -/
def divide (precision m : Nat) (e : Int) (n : Nat) (f : Int) : Magnitude :=
  let extra := precision + 1 + bitLength n - bitLength m
  let scaled := m * twoPow extra
  round precision (scaled / n) (e - f - extra) (scaled % n ≠ 0)

/-- The number of bits that a size needs. -/
def bitsNeeded : Magnitude → Nat
  | .finite m _ => bitLength m - trailing (bitLength m) m
  | _ => 0
where
  /-- The number of zeros at the end of a mantissa. -/
  trailing : Nat → Nat → Nat
    | 0, _ => 0
    | fuel + 1, m => if m % 2 = 0 then trailing fuel (m / 2) + 1 else 0

end Magnitude

namespace Binary

/-- The bits of numbers that are read from a text. -/
def fullPrecision : Nat := 512

/-- A natural number. -/
def ofNat (precision n : Nat) : Binary where
  negative := false
  precision := precision
  magnitude := .round precision n 0 false

/-- Is the number zero, of either sign? -/
def isZero (x : Binary) : Bool :=
  x.magnitude == .zero

/-- Is the number infinite? -/
def isInfinite (x : Binary) : Bool :=
  x.magnitude == .infinite

/-- The number with the other sign; zero has one too. -/
def negate (x : Binary) : Binary :=
  { x with negative := !x.negative }

/-- The order of two numbers. The signs of zeros do not count. -/
def order (x y : Binary) : Ordering :=
  match x.isZero, y.isZero with
  | true, true => .eq
  | true, false => if y.negative then .gt else .lt
  | false, true => if x.negative then .lt else .gt
  | false, false =>
    match x.negative, y.negative with
    | false, false => x.magnitude.order y.magnitude
    | true, true => y.magnitude.order x.magnitude
    | true, false => .lt
    | false, true => .gt

/-- The sum, rounded to the precision given. Opposite infinities have none. -/
def addAt? (precision : Nat) (x y : Binary) : Option Binary :=
  match x.magnitude, y.magnitude with
  | .finite m e, .finite n f =>
    let (a, b, low) := Magnitude.aligned m e n f
    if x.negative = y.negative then some ⟨x.negative, precision, .round precision (a + b) low false⟩
    else if a = b then some ⟨false, precision, .zero⟩
    else if b < a then some ⟨x.negative, precision, .round precision (a - b) low false⟩
    else some ⟨y.negative, precision, .round precision (b - a) low false⟩
  | .infinite, .infinite =>
    if x.negative = y.negative then some { x with precision := precision } else none
  | .zero, .zero => some ⟨x.negative && y.negative, precision, .zero⟩
  | .infinite, _ | _, .zero => some ⟨x.negative, precision, x.magnitude.roundTo precision⟩
  | _, .infinite | .zero, _ => some ⟨y.negative, precision, y.magnitude.roundTo precision⟩

/-- The sum, at the higher precision. -/
def add? (x y : Binary) : Option Binary :=
  addAt? (max x.precision y.precision) x y

/-- The difference, at the higher precision. -/
def subtract? (x y : Binary) : Option Binary :=
  add? x y.negate

/-- The product, rounded to the precision given. Zero times infinity has none. -/
def multiplyAt? (precision : Nat) (x y : Binary) : Option Binary :=
  let negative := x.negative != y.negative
  match x.magnitude, y.magnitude with
  | .finite m e, .finite n f => some ⟨negative, precision, .round precision (m * n) (e + f) false⟩
  | .zero, .infinite | .infinite, .zero => none
  | .zero, _ | _, .zero => some ⟨negative, precision, .zero⟩
  | .infinite, _ | _, .infinite => some ⟨negative, precision, .infinite⟩

/-- The product. It is computed at full precision and keeps as many bits as it needs, but no fewer than
its factors. -/
def multiply? (x y : Binary) : Option Binary :=
  (multiplyAt? fullPrecision x y).map fun z =>
    { z with precision := max (max x.precision y.precision) z.magnitude.bitsNeeded }

/-- The quotient, rounded to the precision given. A number over zero is infinite; zero over zero and
infinity over infinity have no quotient. -/
def divideAt? (precision : Nat) (x y : Binary) : Option Binary :=
  let negative := x.negative != y.negative
  match x.magnitude, y.magnitude with
  | .finite m e, .finite n f => some ⟨negative, precision, .divide precision m e n f⟩
  | .zero, .zero | .infinite, .infinite => none
  | .zero, _ | _, .infinite => some ⟨negative, precision, .zero⟩
  | .infinite, _ | _, .zero => some ⟨negative, precision, .infinite⟩

/-- The quotient, at the higher precision. -/
def divide? (x y : Binary) : Option Binary :=
  divideAt? (max x.precision y.precision) x y

/-- The whole part of a finite number, its sign apart. -/
def whole? (x : Binary) : Option Nat :=
  match x.magnitude with
  | .zero => some 0
  | .finite m e => some (if 0 ≤ e then m * twoPow e.toNat else m / twoPow e.natAbs)
  | .infinite => none

/-- The natural number that a number is, if it is a small one. Either zero is. -/
def toNat? (x : Binary) : Option Nat :=
  match x.magnitude with
  | .zero => some 0
  | .finite m e =>
    if x.negative || 63 < Magnitude.top m e then none
    else if 0 ≤ e then some (m * twoPow e.toNat)
    else if e.natAbs < bitLength m && m % twoPow e.natAbs = 0 then some (m / twoPow e.natAbs)
    else none
  | .infinite => none

/-- The remainder of a division whose quotient is cut to a whole number. Zero as the divisor leaves the
dividend; infinity has no remainder. -/
def modulo? (x y : Binary) : Option Binary := do
  if x.isInfinite || y.isInfinite then none
  else if y.isZero then some x
  else
    let quotient ← divide? x y
    let whole ← quotient.whole?
    let whole := { ofNat x.precision whole with negative := quotient.negative && whole ≠ 0 }
    let product ← multiplyAt? x.precision y whole
    addAt? x.precision x product.negate

/-- The nearest number of double precision. -/
def toBinary64 (x : Binary) : Binary64 :=
  match x.magnitude with
  | .zero => .ofParts x.negative 0
  | .finite m e =>
    if 1100 < Magnitude.top m e then .infinity x.negative
    else if Magnitude.top m e < -1200 then .ofParts x.negative 0
    else if 0 ≤ e then .ofRatio x.negative (m * twoPow e.toNat) 1
    else .ofRatio x.negative m (twoPow e.natAbs)
  | .infinite => .infinity x.negative

/-- A power of five by repeated squaring: `result` times `base` to the power `n`, every product rounded
to the precision of its first factor. -/
def powerFrom : Nat → Nat → Binary → Binary → Binary
  | 0, _, result, _ => result
  | fuel + 1, n, result, base =>
    if n = 0 then result
    else
      let result := if n % 2 = 1 then (multiplyAt? result.precision result base).getD result else result
      powerFrom fuel (n / 2) result ((multiplyAt? base.precision base base).getD base)

/-- The `n`-th power of five, of slightly more than full precision. The powers that fit into 64 bits
are exact. -/
def powerOfFive (n : Nat) : Binary :=
  let exact := min n 27
  powerFrom 64 (n - exact) (ofNat (fullPrecision + 64) (Nat.pow 5 exact)) (ofNat (fullPrecision + 128) 5)

/-- The number `digits * 10 ^ (exponent - places)`, or with a binary exponent
`digits * 10 ^ -places * 2 ^ exponent`. The powers of two are exact, those of five are rounded. There is
none if the powers of two alone go out of range. -/
def ofDigits? (negative : Bool) (digits places : Nat) (exponent : Int) (binary : Bool) :
    Option Binary :=
  if digits = 0 then some ⟨negative, fullPrecision, .zero⟩
  else
    let twos := exponent - places
    let fives : Int := (if binary then 0 else exponent) - places
    let top := Magnitude.top digits twos
    let start : Binary := ⟨negative, fullPrecision, .finite digits twos⟩
    if top < Magnitude.minTop || Magnitude.maxTop < top then none
    else if fives = 0 then
      some { start with magnitude := start.magnitude.roundTo fullPrecision }
    else if fives < 0 then divideAt? fullPrecision start (powerOfFive fives.natAbs)
    else multiplyAt? fullPrecision start (powerOfFive fives.natAbs)

/-- The value of decimal digits. -/
def digitsValue (ds : List Char) : Nat :=
  ds.foldl (fun n d => 10 * n + (d.toNat - '0'.toNat)) 0

/-- The exponent behind a mantissa: a power of ten, or behind `p` one of two. Gives whether it is one of
two. It has to fit into 64 bits. -/
def exponent? : List Char → Option (Int × Bool)
  | [] => some (0, false)
  | mark :: cs => do
    let binary ←
      if mark = 'e' || mark = 'E' then some false
      else if mark = 'p' || mark = 'P' then some true
      else none
    let (negative, ds) := match cs with
      | '-' :: ds => (true, ds)
      | '+' :: ds => (false, ds)
      | ds => (false, ds)
    if ds.isEmpty || !ds.all Text.isDigit then none
    let value : Int := if negative then -(digitsValue ds : Int) else digitsValue ds
    if fitsInt64 value then some (value, binary) else none

/-- Reads a number: an optional sign, digits with an optional point among them, an optional exponent; or
an optional sign and `inf`. -/
def ofText? (text : String) : Option Binary := do
  let (negative, cs) := match text.toList with
    | '-' :: cs => (true, cs)
    | '+' :: cs => (false, cs)
    | cs => (false, cs)
  if cs = ['i', 'n', 'f'] || cs = ['I', 'n', 'f'] then some ⟨negative, fullPrecision, .infinite⟩
  else
    let whole := cs.takeWhile Text.isDigit
    let (places, rest) := match cs.drop whole.length with
      | '.' :: rest => (rest.takeWhile Text.isDigit, rest.dropWhile Text.isDigit)
      | rest => ([], rest)
    if whole.isEmpty && places.isEmpty then none
    let (exponent, binary) ← exponent? rest
    ofDigits? negative (digitsValue (whole ++ places)) places.length exponent binary

/-- A decimal fraction `0.d₁d₂… * 10 ^ point` by its digits, of which the last is not zero. -/
structure Digits where
  digits : List Nat
  point : Int
  deriving DecidableEq, Repr

namespace Digits

/-- The digits without the zeros at their end. -/
def stripped (ds : List Nat) : List Nat :=
  (ds.reverse.dropWhile (· = 0)).reverse

/-- The digits of `mantissa * 2 ^ exponent`, all of them. -/
def ofBinary (mantissa : Nat) (exponent : Int) : Digits :=
  let whole := if 0 ≤ exponent then mantissa * twoPow exponent.toNat
    else mantissa * Nat.pow 5 exponent.natAbs
  let ds := if whole = 0 then [] else (Nat.toDigits 10 whole).map fun c => c.toNat - '0'.toNat
  ⟨stripped ds, if 0 ≤ exponent then ds.length else ds.length + exponent⟩

/-- The digits cut to the first `n`. -/
def cutDown (d : Digits) (n : Nat) : Digits :=
  if d.digits.length ≤ n then d else { d with digits := stripped (d.digits.take n) }

/-- The first `n` digits with the last of them raised by one; nines before it carry. -/
def cutUp (d : Digits) (n : Nat) : Digits :=
  if d.digits.length ≤ n then d
  else
    match ((d.digits.take n).reverse.dropWhile (· = 9)) with
    | [] => ⟨[1], d.point + 1⟩
    | last :: front => { d with digits := (front.reverse ++ [last + 1]) }

/-- The first `n` digits, rounded to the nearest, a tie to the even digit. -/
def cutNear (d : Digits) (n : Nat) : Digits :=
  match d.digits.drop n with
  | [] => d
  | [5] => if ((d.digits.take n).getLast?.getD 0) % 2 = 1 then d.cutUp n else d.cutDown n
  | next :: _ => if 5 ≤ next then d.cutUp n else d.cutDown n

/-- Where digits may be cut: `low` and `high` are the digits of the ends of the interval in question,
and `closed` tells whether they belong to it. Gives the number of digits kept, and whether they may be
cut down and up. -/
def cutPoint (closed : Bool) : Nat → List Nat → List Nat → List Nat → Option (Nat × Bool × Bool)
  | _, [], _, _ => none
  | n, d :: ds, low, high =>
    let l := low.headD 0
    let h := high.headD 0
    let down := l ≠ d || (closed && low.length = 1)
    let up := d ≠ h && (closed || d + 1 < h || 1 < high.length)
    if down || up then some (n + 1, down, up) else cutPoint closed (n + 1) ds low.tail high.tail

/-- The fewest of the digits of `mantissa * 2 ^ exponent` that tell it from its neighbours of the same
precision. The neighbourhood reaches half a unit of the last bit to both sides. -/
def shortest (precision mantissa : Nat) (exponent : Int) : Digits :=
  let d := ofBinary mantissa exponent
  let shift := precision + 1 - bitLength mantissa
  let wide := mantissa * twoPow shift
  let exponent := exponent - shift
  let low := ofBinary (wide - 1) exponent
  let high := ofBinary (wide + 1) exponent
  match cutPoint (wide / 2 % 2 = 0) 0 d.digits low.digits high.digits with
  | some (n, true, true) => d.cutNear n
  | some (n, true, false) => d.cutDown n
  | some (n, false, true) => d.cutUp n
  | _ => d

/-- The decimal number of digits. -/
def toScaled (d : Digits) : Scaled :=
  ⟨d.digits.foldl (fun n x => 10 * n + x) 0, d.point - d.digits.length⟩

end Digits

/-- The text of a number, without exponent. -/
def text (x : Binary) : String :=
  let sign := if x.negative then "-" else ""
  match x.magnitude with
  | .zero => sign ++ "0"
  | .finite m e => sign ++ (Digits.shortest x.precision m e).toScaled.positional
  | .infinite => (if x.negative then "-" else "+") ++ "Inf"

/-- Are two numbers the same to a reader? They are if they have one text; the sign of zero does not
count. -/
def same (x y : Binary) : Bool :=
  (x.isZero && y.isZero) || (!x.isZero && !y.isZero && x.negative == y.negative && x.text == y.text)

end Binary

end InfraSmells
