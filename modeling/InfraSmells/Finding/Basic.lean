import InfraSmells.Tree.Text

/-!
# Findings

A finding is one occurrence of a smell: the code of the smell, the path and line where it was found,
a context that shows it and possibly a suggestion. Code, path and line are the identity of a
finding; the order of findings is by path, line and code.
-/

namespace InfraSmells

/-- One occurrence of a smell. -/
structure Finding where
  code : String
  path : String
  /-- The line, or `-1` when the element stands at no line. -/
  line : Int
  context : String
  suggestion : String := ""
  deriving DecidableEq, Repr, Inhabited

namespace Finding

/-- The line at which a finding about an element of this span is reported. -/
def lineOf (s : Span) : Int :=
  if 0 < s.line then s.line else -1

/-- A finding about an element, with a context of its own. -/
def about (code : String) (e : Element) (path context : String) : Finding where
  code := code
  path := path
  line := lineOf e.span
  context := context

/-- A finding about an element, shown by its summary. -/
def of (code : String) (e : Element) (path : String) : Finding :=
  about code e path e.summary

/-- The finding moved to another line. -/
def atLine (f : Finding) (line : Int) : Finding :=
  { f with line := line }

/-- The finding with a suggestion. -/
def suggest (f : Finding) (s : String) : Finding :=
  { f with suggestion := s }

/-- The identity of a finding: the bytes of its code and of its path, and its line. -/
abbrev Key := List UInt8 × List UInt8 × Int

/-- Code, path and line: the identity of a finding. -/
def key (f : Finding) : Key :=
  (Text.toBytes f.code, Text.toBytes f.path, f.line)

/-- The order of findings: by path, then line, then code. -/
def order (a b : Finding) : Ordering :=
  (Text.compareText a.path b.path).then
    ((compare a.line b.line).then (Text.compareText a.code b.code))

/-- The first line of the context, without white space around it. -/
def snippet (f : Finding) : String :=
  Text.trim (Text.before "\n" f.context)

end Finding

end InfraSmells
