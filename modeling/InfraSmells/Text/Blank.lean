import InfraSmells.Text.Search

/-!
# White space

The characters that separate words, and trimming them from the ends of a text.
-/

namespace InfraSmells.Text

/-- White space: the ASCII controls from tab to carriage return, the space, next line, no-break
space and the Unicode spaces and separators. -/
def isBlank (c : Char) : Bool :=
  let n := c.toNat
  (0x9 ≤ n && n ≤ 0xD) || n == 0x20 || n == 0x85 || n == 0xA0 || n == 0x1680 ||
  (0x2000 ≤ n && n ≤ 0x200A) || n == 0x2028 || n == 0x2029 || n == 0x202F || n == 0x205F ||
  n == 0x3000

/-- The characters without leading characters of the class `p`. -/
def trimStartChars (p : Char → Bool) (cs : List Char) : List Char :=
  cs.dropWhile p

/-- The characters without trailing characters of the class `p`. -/
def trimEndChars (p : Char → Bool) (cs : List Char) : List Char :=
  (cs.reverse.dropWhile p).reverse

/-- The text without white space at either end. -/
def trim (s : String) : String :=
  String.ofList (trimEndChars isBlank (trimStartChars isBlank s.toList))

/-- The text without leading characters of the class `p`. -/
def trimStart (p : Char → Bool) (s : String) : String :=
  String.ofList (trimStartChars p s.toList)

/-- The text without trailing characters of the class `p`. -/
def trimEnd (p : Char → Bool) (s : String) : String :=
  String.ofList (trimEndChars p s.toList)

/-- The first line of the trimmed text. -/
def firstLine (s : String) : String :=
  before "\n" (trim s)

end InfraSmells.Text
