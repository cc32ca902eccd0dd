/-!
# Text that arrives as bytes

Documents and source files are byte sequences, and nothing forces them to be UTF-8. A text is
therefore a `String` in which every byte that belongs to no well-formed UTF-8 sequence is carried
by one reserved private-use character, its *stray* character. `ofBytes` reads bytes this way and
`toBytes` gives the same bytes back; the reserved characters themselves, should a source contain
them, are carried as the four stray bytes of their encoding.

`isUtf8` tells whether a byte sequence is well formed. `glyphs` is what a reader meets in a text, one
after the other: characters, and bytes that belong to none. `characters` shows each such byte as
U+FFFD; `ofCharacters` is the text of characters.
-/

namespace InfraSmells.Text

/-- The character that carries the byte `b`, for `b ≥ 0x80`. -/
def stray (b : UInt8) : Char :=
  Char.ofNat (0xF1E00 + b.toNat)

/-- Is `c` one of the characters that carry a byte? -/
def isStray (c : Char) : Bool :=
  0xF1E80 ≤ c.toNat && c.toNat ≤ 0xF1EFF

/-- The replacement character, shown where a byte cannot be read. -/
def replacement : Char :=
  Char.ofNat 0xFFFD

/-- A continuation byte of UTF-8. -/
def isTail (b : UInt8) : Bool :=
  0x80 ≤ b && b ≤ 0xBF

/-- The six payload bits of a continuation byte. -/
def tailBits (b : UInt8) : Nat :=
  b.toNat % 64

/-- The well-formed UTF-8 character at the head of a byte sequence, with the number of bytes it
takes. Overlong forms, surrogates and values past U+10FFFF are not well formed. -/
def firstChar : List UInt8 → Option (Char × Nat)
  | [] => none
  | a :: rest =>
    if a < 0x80 then some (Char.ofNat a.toNat, 1)
    else if 0xC2 ≤ a && a ≤ 0xDF then
      match rest with
      | b :: _ => if isTail b then some (Char.ofNat (a.toNat % 32 * 64 + tailBits b), 2) else none
      | _ => none
    else if 0xE0 ≤ a && a ≤ 0xEF then
      match rest with
      | b :: c :: _ =>
        let n := (a.toNat % 16 * 64 + tailBits b) * 64 + tailBits c
        if isTail b && isTail c && 0x800 ≤ n && !(0xD800 ≤ n && n ≤ 0xDFFF) then
          some (Char.ofNat n, 3)
        else none
      | _ => none
    else if 0xF0 ≤ a && a ≤ 0xF4 then
      match rest with
      | b :: c :: d :: _ =>
        let n := ((a.toNat % 8 * 64 + tailBits b) * 64 + tailBits c) * 64 + tailBits d
        if isTail b && isTail c && isTail d && 0x10000 ≤ n && n ≤ 0x10FFFF then
          some (Char.ofNat n, 4)
        else none
      | _ => none
    else none

/-- Reads bytes as the characters that carry them. `skip` counts the bytes already taken by the
character before. -/
def carriersFrom : Nat → List UInt8 → List Char
  | _, [] => []
  | skip + 1, _ :: rest => carriersFrom skip rest
  | 0, b :: rest =>
    match firstChar (b :: rest) with
    | some (c, n) =>
      if isStray c then stray b :: carriersFrom 0 rest else c :: carriersFrom (n - 1) rest
    | none => stray b :: carriersFrom 0 rest

/-- The text of a byte sequence, with stray bytes carried. -/
def ofBytes (bs : List UInt8) : String :=
  String.ofList (carriersFrom 0 bs)

/-- The bytes of one character of a text. -/
def charBytes (c : Char) : List UInt8 :=
  if isStray c then [UInt8.ofNat (c.toNat - 0xF1E00)] else String.utf8EncodeChar c

/-- The bytes a text stands for. -/
def toBytes (s : String) : List UInt8 :=
  s.toList.flatMap charBytes

/-- The number of bytes a text stands for. -/
def byteLength (s : String) : Nat :=
  (toBytes s).length

/-- The characters that carry a character: itself, or the stray bytes of a reserved one. -/
def carry (c : Char) : List Char :=
  if isStray c then (String.utf8EncodeChar c).map stray else [c]

/-- The text of characters. -/
def ofCharacters (cs : List Char) : String :=
  String.ofList (cs.flatMap carry)

/-- What a reader meets next in a text: a character, or a byte that belongs to none. -/
inductive Glyph where
  | char (c : Char)
  | byte (b : UInt8)
  deriving DecidableEq, Repr

/-- The glyphs of bytes. `skip` counts the bytes already taken by the character before. -/
def glyphsFrom : Nat → List UInt8 → List Glyph
  | _, [] => []
  | skip + 1, _ :: rest => glyphsFrom skip rest
  | 0, b :: rest =>
    match firstChar (b :: rest) with
    | some (c, n) => .char c :: glyphsFrom (n - 1) rest
    | none => .byte b :: glyphsFrom 0 rest

/-- The glyphs of a text. -/
def glyphs (s : String) : List Glyph :=
  if s.toList.any isStray then glyphsFrom 0 (toBytes s) else s.toList.map .char

/-- The character by which a glyph is shown: U+FFFD stands for a byte. -/
def Glyph.shown : Glyph → Char
  | .char c => c
  | .byte _ => replacement

/-- The characters a reader of a text sees. -/
def characters (s : String) : List Char :=
  if s.toList.any isStray then (glyphs s).map Glyph.shown else s.toList

/-- Is every byte part of a well-formed UTF-8 sequence? `skip` counts the bytes already taken. -/
def wellFormed : Nat → List UInt8 → Bool
  | _, [] => true
  | skip + 1, _ :: rest => wellFormed skip rest
  | 0, b :: rest =>
    match firstChar (b :: rest) with
    | some (_, n) => wellFormed (n - 1) rest
    | none => false

/-- Is the byte sequence UTF-8 throughout? -/
def isUtf8 (bs : List UInt8) : Bool :=
  wellFormed 0 bs

/-- Does the text hold a byte outside well-formed UTF-8? -/
def hasStray (s : String) : Bool :=
  !isUtf8 (toBytes s)

/-- The order of two byte sequences: the first difference decides, a proper beginning is smaller. -/
def compareBytes : List UInt8 → List UInt8 → Ordering
  | [], [] => .eq
  | [], _ :: _ => .lt
  | _ :: _, [] => .gt
  | a :: as, b :: bs => (compare a b).then (compareBytes as bs)

/-- The order of texts is the order of their bytes. -/
def compareText (a b : String) : Ordering :=
  compareBytes (toBytes a) (toBytes b)

/-- `a` does not come after `b` in the order of texts. -/
def le (a b : String) : Bool :=
  compareText a b != .gt

/-- The texts of a list, each once, in the order of texts. -/
def sortDistinct (xs : List String) : List String :=
  xs.eraseDups.mergeSort le

/-- The text without its last `n` bytes. -/
def dropLastBytes (n : Nat) (s : String) : String :=
  ofBytes ((toBytes s).take (byteLength s - n))

end InfraSmells.Text
