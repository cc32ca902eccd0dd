import InfraSmells.Text.Search

/-!
# Styles of terminal text

A style is a sequence of renditions. Painted text stands between the control sequence that sets them
and the one that takes them back; a style that is switched off leaves the text as it is.
-/

namespace InfraSmells

/-- One property of terminal text. -/
inductive Rendition where
  | bold | faint | underline | red | green | yellow | blue | cyan | gray
  deriving DecidableEq, Repr

/-- The parameter that sets a rendition. -/
def Rendition.parameter : Rendition → Nat
  | .bold => 1
  | .faint => 2
  | .underline => 4
  | .red => 31
  | .green => 32
  | .yellow => 33
  | .blue => 34
  | .cyan => 36
  | .gray => 90

/-- The parameter that takes a rendition back; a colour is taken back with all else. -/
def Rendition.reset : Rendition → Nat
  | .bold | .faint => 22
  | .underline => 24
  | _ => 0

/-- The renditions of a text. -/
abbrev Style := List Rendition

namespace Style

/-- The control sequence of parameters. -/
def sequence (parameters : List Nat) : String :=
  "\x1b[" ++ Text.join ";" (parameters.map toString) ++ "m"

/-- The text in a style, each rendition taken back on its own. -/
def paint (on : Bool) (s : Style) (text : String) : String :=
  if on then sequence (s.map Rendition.parameter) ++ text ++ sequence (s.map Rendition.reset)
  else text

/-- The text in a style, all renditions taken back at once. -/
def paintHeading (on : Bool) (s : Style) (text : String) : String :=
  if on then sequence (s.map Rendition.parameter) ++ text ++ sequence [0] else text

end Style

end InfraSmells
