import InfraSmells.Terraform.Column

/-!
# Tokens of Terraform's configuration language

A token has a kind, its text and the range it covers. Columns count what a reader sees as one
character, lines end with a newline, and offsets count bytes.
-/

namespace InfraSmells.Terraform

/-- A position in a source: line and column from one, and the number of bytes before it. -/
structure Position where
  line : Nat
  column : Nat
  offset : Nat
  deriving DecidableEq, Repr, Inhabited

/-- The position behind one column of characters. -/
def Position.past (p : Position) (column : List Char) : Position :=
  let offset := p.offset + (column.flatMap Text.charBytes).length
  if column = ['\n'] || column = ['\r', '\n'] then ⟨p.line + 1, 1, offset⟩
  else ⟨p.line, p.column + 1, offset⟩

/-- The position behind some characters. -/
def Position.behind (p : Position) (cs : List Char) : Position :=
  (columns cs).foldl Position.past p

/-- A part of a source. -/
structure Range where
  start : Position
  stop : Position
  deriving DecidableEq, Repr, Inhabited

/-- From the start of one range to the end of another. -/
def Range.to (a b : Range) : Range :=
  ⟨a.start, b.stop⟩

/-- The empty range at the start of a range. -/
def Range.front (r : Range) : Range :=
  ⟨r.start, r.start⟩

/-- The empty range at the end of a range. -/
def Range.back (r : Range) : Range :=
  ⟨r.stop, r.stop⟩

/-- Tokens that stand for themselves. -/
inductive Mark where
  | openBrace | closeBrace | openBracket | closeBracket | openParen | closeParen
  | dot | comma | colon | doubleColon | question | equal | arrow | ellipsis
  | plus | minus | star | slash | percent | bang
  | equalTo | notEqualTo | less | atMost | greater | atLeast | both | either
  deriving DecidableEq, Repr, Inhabited

/-- The kinds of tokens. -/
inductive Kind where
  | space
  | newline
  | comment
  | name
  | number
  | mark (m : Mark)
  | openQuote
  | closeQuote
  /-- The beginning of a text over several lines; `flush` if its indentation is removed. -/
  | openHeredoc (flush : Bool)
  | closeHeredoc
  /-- A literal part of a template; `quoted` if it may hold escapes. -/
  | literal (quoted : Bool)
  /-- The beginning of a value in a template; `trim` if it removes the white space before it. -/
  | openValue (trim : Bool)
  /-- The beginning of a directive in a template. -/
  | openDirective (trim : Bool)
  /-- The end of a value or directive; `trim` if it removes the white space behind it. -/
  | closeSequence (trim : Bool)
  /-- A character that begins no token. -/
  | invalid
  | eof
  deriving DecidableEq, Repr, Inhabited

/-- A piece of a source, of one kind. -/
structure Lexeme where
  kind : Kind
  chars : List Char
  deriving DecidableEq, Repr, Inhabited

/-- A token: a lexeme in its place. -/
structure Token where
  kind : Kind
  text : String
  range : Range
  deriving DecidableEq, Repr, Inhabited

/-- The tokens of lexemes that begin at a position, blanks left out; the last marks the end. -/
def place (p : Position) : List Lexeme → List Token
  | [] => [⟨.eof, "", ⟨p, p⟩⟩]
  | l :: ls =>
    let stop := p.behind l.chars
    if l.kind = .space then place stop ls
    else ⟨l.kind, String.ofList l.chars, ⟨p, stop⟩⟩ :: place stop ls

end InfraSmells.Terraform
