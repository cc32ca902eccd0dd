import InfraSmells.Text.Letter

/-!
# Quoted form of a text

The form in which a message shows a text it was given: between double quotes, with quotes,
backslashes, controls, invisible characters and unreadable bytes escaped.
-/

namespace InfraSmells.Text

/-- The hexadecimal digit of a number below sixteen. -/
def hexDigit (n : Nat) : Char :=
  Char.ofNat (if n < 10 then '0'.toNat + n else 'a'.toNat + n - 10)

/-- A number in hexadecimal, with `width` digits. -/
def hexDigits : Nat → Nat → List Char
  | 0, _ => []
  | width + 1, n => hexDigits width (n / 16) ++ [hexDigit (n % 16)]

/-- One character between quotes. -/
def quoteChar (c : Char) : List Char :=
  if c == '"' then ['\\', '"']
  else if c == '\\' then ['\\', '\\']
  else if isPrintable c then [c]
  else
    match c.toNat with
    | 7 => ['\\', 'a']
    | 8 => ['\\', 'b']
    | 12 => ['\\', 'f']
    | 10 => ['\\', 'n']
    | 13 => ['\\', 'r']
    | 9 => ['\\', 't']
    | 11 => ['\\', 'v']
    | n =>
      if n < 0x20 || n == 0x7F then '\\' :: 'x' :: hexDigits 2 n
      else if n < 0x10000 then '\\' :: 'u' :: hexDigits 4 n
      else '\\' :: 'U' :: hexDigits 8 n

/-- One glyph between quotes. -/
def quoteGlyph : Glyph → List Char
  | .char c => quoteChar c
  | .byte b => '\\' :: 'x' :: hexDigits 2 b.toNat

/-- The text between double quotes. -/
def quote (s : String) : String :=
  ofCharacters ('"' :: (glyphs s).flatMap quoteGlyph ++ ['"'])

end InfraSmells.Text
