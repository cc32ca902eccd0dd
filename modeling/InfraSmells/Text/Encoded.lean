import InfraSmells.Text.CharSet

/-!
# Characters met byte by byte

A reader that walks along bytes takes a byte for the first of a character before it has seen the
others. `looseLength?` asks only that as many continuation bytes follow as the first byte announces,
and `CharSet.leadingBytes?` only that the bytes lie between the encodings of the ends of a range. On
UTF-8 both agree with the characters; on other bytes they accept more. `splitBytes` cuts characters
at a number of bytes.
-/

namespace InfraSmells.Text

/-- Cuts characters after `n` bytes. A character that the cut goes through is left as its bytes. -/
def splitBytes : Nat → List Char → List Char × List Char
  | 0, cs => ([], cs)
  | _, [] => ([], [])
  | n + 1, c :: cs =>
    let bytes := charBytes c
    if bytes.length ≤ n + 1 then
      let (front, rest) := splitBytes (n + 1 - bytes.length) cs
      (c :: front, rest)
    else ((bytes.take (n + 1)).map stray, (bytes.drop (n + 1)).map stray ++ cs)

/-- The number of bytes of a sequence that begins as a character and goes on with continuation bytes,
whether or not it encodes one. -/
def looseLength? : List UInt8 → Option Nat
  | [] => none
  | b :: rest =>
    let tails (n : Nat) : Option Nat :=
      if ((rest.take n).takeWhile isTail).length = n then some (n + 1) else none
    if b < 0x80 then some 1
    else if b < 0xC0 then none
    else if b < 0xE0 then tails 1
    else if b < 0xF0 then tails 2
    else if b < 0xF8 then tails 3
    else none

/-- The parts of a range of characters whose encodings have one length. -/
def encodingRanges (lo hi : Nat) : List (Nat × Nat) :=
  [(0, 0x7F), (0x80, 0x7FF), (0x800, 0xFFFF), (0x10000, 0x10FFFF)].filterMap fun (first, last) =>
    let a := max lo first
    let b := min hi last
    if a ≤ b then some (a, b) else none

/-- The number of bytes at the front that lie between the encodings of two characters of one length. -/
def bytesBetween? (lo hi : Nat) (bs : List UInt8) : Option Nat :=
  let low := String.utf8EncodeChar (Char.ofNat lo)
  let high := String.utf8EncodeChar (Char.ofNat hi)
  let front := bs.take low.length
  if front.length = low.length && compareBytes low front != .gt && compareBytes front high != .gt then
    some low.length
  else none

/-- The number of bytes at the front that lie in a range of the set. -/
def CharSet.leadingBytes? (s : CharSet) (bs : List UInt8) : Option Nat :=
  s.ranges.toList.findSome? fun (lo, hi) =>
    (encodingRanges lo hi).findSome? fun (a, b) => bytesBetween? a b bs

/-- Cuts off the first character if it is in the set, met byte by byte. -/
def CharSet.cut? (s : CharSet) : List Char → Option (List Char × List Char)
  | [] => none
  | c :: cs =>
    if isStray c then
      (s.leadingBytes? ((c :: cs).take 4 |>.flatMap charBytes)).map fun n => splitBytes n (c :: cs)
    else if s.contains c then some ([c], cs)
    else none

end InfraSmells.Text
