import InfraSmells.Datum.Basic
import InfraSmells.Datum.Instant

/-!
# MessagePack

`Datum.ofPack?` reads the first MessagePack value of a byte sequence; what follows it is ignored.
A map whose keys are not all texts, and an extension other than a moment, become data no use accepts. `Datum.toPack`
writes a value in its smallest form: integers, texts, lists and tables by size, floating-point
numbers in 64 bits.
-/

namespace InfraSmells.Pack

/-- The value of bytes, the first the most significant. -/
def bigEndian (bs : List UInt8) : Nat :=
  bs.foldl (fun n b => 256 * n + b.toNat) 0

/-- The first `n` bytes and the rest, if there are so many. -/
def takeBytes (n : Nat) (bs : List UInt8) : Option (List UInt8 × List UInt8) :=
  let head := bs.take n
  if head.length = n then some (head, bs.drop n) else none

/-- A number of `n` bytes. -/
def readNat (n : Nat) (bs : List UInt8) : Option (Nat × List UInt8) :=
  (takeBytes n bs).map fun (head, rest) => (bigEndian head, rest)

/-- The integer that `n` bytes stand for in two's complement. -/
def signed (n value : Nat) : Int :=
  if twoPow (8 * n - 1) ≤ value then (value : Int) - twoPow (8 * n) else value

/-- A text of `n` bytes. -/
def readText (n : Nat) (bs : List UInt8) : Option (Datum × List UInt8) :=
  (takeBytes n bs).map fun (head, rest) => (.text (Text.ofBytes head), rest)

/-- Raw data of `n` bytes. -/
def readRaw (n : Nat) (bs : List UInt8) : Option (Datum × List UInt8) :=
  (takeBytes n bs).map fun (head, rest) => (.bytes head, rest)

/-- The moment that the bytes of an extension stand for: seconds in four bytes, nanoseconds and seconds in
thirty and thirty-four bits, or nanoseconds in four bytes and signed seconds in eight. -/
def moment? (bs : List UInt8) : Option Datum :=
  let n := bigEndian bs
  match bs.length with
  | 4 => some (.instant (Instant.momentText n 0))
  | 8 => some (.instant (Instant.momentText (n % twoPow 34 : Nat) (n / twoPow 34)))
  | 12 => some (.instant (Instant.momentText (signed 8 (n % twoPow 64)) (n / twoPow 64)))
  | _ => none

/-- An extension of `n` bytes after its type byte. Only moments, of type `-1`, are known. -/
def readExtension (n : Nat) (bs : List UInt8) : Option (Datum × List UInt8) :=
  (takeBytes (n + 1) bs).map fun (head, rest) =>
    match head with
    | 0xFF :: body => ((moment? body).getD .other, rest)
    | _ => (.other, rest)

/-- The name a map key stands for, if it stands for one. -/
def keyName? : Datum → Option String
  | .text s => some s
  | .bytes bs => some (Text.ofBytes bs)
  | .null => some ""
  | _ => none

/-- The table of key-value pairs. -/
def tableOf (pairs : List (Datum × Datum)) : Datum :=
  match pairs.mapM fun (k, v) => (keyName? k).map (·, v) with
  | some ms => .table ms
  | none => .other

mutual

/-- The first value of a byte sequence and the rest. -/
def readValue : Nat → List UInt8 → Option (Datum × List UInt8)
  | 0, _ => none
  | _, [] => none
  | fuel + 1, b :: bs =>
    let c := b.toNat
    let int (n : Int) : Datum := .number (.integer n)
    if c ≤ 0x7F then some (int c, bs)
    else if 0xE0 ≤ c then some (int ((c : Int) - 256), bs)
    else if c ≤ 0x8F then (readPairs fuel (c - 0x80) bs).map fun (ps, rest) => (tableOf ps, rest)
    else if c ≤ 0x9F then (readItems fuel (c - 0x90) bs).map fun (xs, rest) => (.list xs, rest)
    else if c ≤ 0xBF then readText (c - 0xA0) bs
    else
      match c with
      | 0xC0 => some (.null, bs)
      | 0xC2 => some (.flag false, bs)
      | 0xC3 => some (.flag true, bs)
      | 0xC4 => (readNat 1 bs).bind fun (n, rest) => readRaw n rest
      | 0xC5 => (readNat 2 bs).bind fun (n, rest) => readRaw n rest
      | 0xC6 => (readNat 4 bs).bind fun (n, rest) => readRaw n rest
      | 0xC7 => (readNat 1 bs).bind fun (n, rest) => readExtension n rest
      | 0xC8 => (readNat 2 bs).bind fun (n, rest) => readExtension n rest
      | 0xC9 => (readNat 4 bs).bind fun (n, rest) => readExtension n rest
      | 0xCA => (readNat 4 bs).map fun (n, rest) =>
          (.number (.single ⟨UInt32.ofNat n⟩), rest)
      | 0xCB => (readNat 8 bs).map fun (n, rest) => (.number (.float ⟨UInt64.ofNat n⟩), rest)
      | 0xCC => (readNat 1 bs).map fun (n, rest) => (int n, rest)
      | 0xCD => (readNat 2 bs).map fun (n, rest) => (int n, rest)
      | 0xCE => (readNat 4 bs).map fun (n, rest) => (int n, rest)
      | 0xCF => (readNat 8 bs).map fun (n, rest) => (int n, rest)
      | 0xD0 => (readNat 1 bs).map fun (n, rest) => (int (signed 1 n), rest)
      | 0xD1 => (readNat 2 bs).map fun (n, rest) => (int (signed 2 n), rest)
      | 0xD2 => (readNat 4 bs).map fun (n, rest) => (int (signed 4 n), rest)
      | 0xD3 => (readNat 8 bs).map fun (n, rest) => (int (signed 8 n), rest)
      | 0xD4 => readExtension 1 bs
      | 0xD5 => readExtension 2 bs
      | 0xD6 => readExtension 4 bs
      | 0xD7 => readExtension 8 bs
      | 0xD8 => readExtension 16 bs
      | 0xD9 => (readNat 1 bs).bind fun (n, rest) => readText n rest
      | 0xDA => (readNat 2 bs).bind fun (n, rest) => readText n rest
      | 0xDB => (readNat 4 bs).bind fun (n, rest) => readText n rest
      | 0xDC => (readNat 2 bs).bind fun (n, rest) =>
          (readItems fuel n rest).map fun (xs, rest) => (.list xs, rest)
      | 0xDD => (readNat 4 bs).bind fun (n, rest) =>
          (readItems fuel n rest).map fun (xs, rest) => (.list xs, rest)
      | 0xDE => (readNat 2 bs).bind fun (n, rest) =>
          (readPairs fuel n rest).map fun (ps, rest) => (tableOf ps, rest)
      | 0xDF => (readNat 4 bs).bind fun (n, rest) =>
          (readPairs fuel n rest).map fun (ps, rest) => (tableOf ps, rest)
      | _ => none

/-- The given number of values. -/
def readItems : Nat → Nat → List UInt8 → Option (List Datum × List UInt8)
  | _, 0, bs => some ([], bs)
  | 0, _, _ => none
  | fuel + 1, n + 1, bs => do
    let (d, bs) ← readValue fuel bs
    let (ds, rest) ← readItems fuel n bs
    return (d :: ds, rest)

/-- The given number of key-value pairs. -/
def readPairs : Nat → Nat → List UInt8 → Option (List (Datum × Datum) × List UInt8)
  | _, 0, bs => some ([], bs)
  | 0, _, _ => none
  | fuel + 1, n + 1, bs => do
    let (k, bs) ← readValue fuel bs
    let (v, bs) ← readValue fuel bs
    let (ps, rest) ← readPairs fuel n bs
    return ((k, v) :: ps, rest)

end

/-- The `n` bytes of a number, the most significant first. -/
def writeNat : Nat → Nat → List UInt8
  | 0, _ => []
  | n + 1, value => writeNat n (value / 256) ++ [UInt8.ofNat (value % 256)]

/-- An integer in its smallest form. -/
def writeInt (n : Int) : List UInt8 :=
  if 0 ≤ n then
    let v := n.toNat
    if v ≤ 0x7F then writeNat 1 v
    else if v ≤ 0xFF then 0xCC :: writeNat 1 v
    else if v ≤ 0xFFFF then 0xCD :: writeNat 2 v
    else if v ≤ 0xFFFFFFFF then 0xCE :: writeNat 4 v
    else 0xCF :: writeNat 8 v
  else if -32 ≤ n then writeNat 1 (n + twoPow 8).toNat
  else if -twoPow 7 ≤ n then 0xD0 :: writeNat 1 (n + twoPow 8).toNat
  else if -twoPow 15 ≤ n then 0xD1 :: writeNat 2 (n + twoPow 16).toNat
  else if -twoPow 31 ≤ n then 0xD2 :: writeNat 4 (n + twoPow 32).toNat
  else 0xD3 :: writeNat 8 (n + twoPow 64).toNat

/-- A floating-point number. -/
def writeFloat (x : Binary64) : List UInt8 :=
  0xCB :: writeNat 8 x.bits.toNat

/-- A number. -/
def writeNumber : Numeral → List UInt8
  | .integer n => writeInt n
  | .float x => writeFloat x
  | .single x => writeFloat x.toBinary64
  | .decimal negative mantissa exponent _ =>
    writeFloat (Binary64.ofDecimal negative mantissa exponent)

/-- A size behind its mark: in the mark itself below `small`, else in one, two or four bytes; a
family without a one-byte form has none. -/
def writeSize (fix small : Nat) (one : Option UInt8) (two four : UInt8) (n : Nat) : List UInt8 :=
  if n < small then [UInt8.ofNat (fix + n)]
  else
    match one, decide (n ≤ 0xFF) with
    | some mark, true => mark :: writeNat 1 n
    | _, _ => if n ≤ 0xFFFF then two :: writeNat 2 n else four :: writeNat 4 n

/-- A text. -/
def writeText (s : String) : List UInt8 :=
  let bs := Text.toBytes s
  writeSize 0xA0 32 (some 0xD9) 0xDA 0xDB bs.length ++ bs

/-- Raw data. -/
def writeRaw (bs : List UInt8) : List UInt8 :=
  writeSize 0 0 (some 0xC4) 0xC5 0xC6 bs.length ++ bs

mutual

/-- The bytes of a value. -/
def write : Datum → List UInt8
  | .null | .other => [0xC0]
  | .flag b => [if b then 0xC3 else 0xC2]
  | .number n => writeNumber n
  | .text s => writeText s
  | .instant s => writeText s
  | .bytes bs => writeRaw bs
  | .list xs => writeSize 0x90 16 none 0xDC 0xDD xs.length ++ writeItems xs
  | .tables xs => writeSize 0x90 16 none 0xDC 0xDD xs.length ++ writeItems xs
  | .table ms => writeSize 0x80 16 none 0xDE 0xDF ms.length ++ writeMembers ms

/-- The bytes of the items of a list. -/
def writeItems : List Datum → List UInt8
  | [] => []
  | d :: ds => write d ++ writeItems ds

/-- The bytes of the members of a table. -/
def writeMembers : List (String × Datum) → List UInt8
  | [] => []
  | (k, d) :: ms => writeText k ++ write d ++ writeMembers ms

end

end InfraSmells.Pack

namespace InfraSmells.Datum

/-- The first MessagePack value of a byte sequence. -/
def ofPack? (bs : List UInt8) : Option Datum :=
  (Pack.readValue (2 * bs.length + 2) bs).map Prod.fst

/-- The MessagePack bytes of a datum. -/
def toPack (d : Datum) : List UInt8 :=
  Pack.write d

end InfraSmells.Datum
