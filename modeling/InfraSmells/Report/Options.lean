import InfraSmells.Files.Path
import InfraSmells.Finding.Catalog
import InfraSmells.Text.Case

/-!
# What a report looks like

The formats in which findings are shown, and the options that several formats share.
-/

namespace InfraSmells.Report

/-- The form of a report. -/
inductive Format where
  | pretty | text | csv | linter | json | sarif
  deriving DecidableEq, Repr, Inhabited

namespace Format

/-- The name of a format. -/
def name : Format → String
  | pretty => "pretty"
  | text => "text"
  | csv => "csv"
  | linter => "linter"
  | json => "json"
  | sarif => "sarif"

/-- Every format. -/
def all : List Format := [pretty, text, csv, linter, json, sarif]

/-- The format of an exact name; the empty name asks for the first one. -/
def named? (s : String) : Option Format :=
  if s = "" then some pretty else all.find? (·.name == s)

/-- The format of a name, whatever its letter case and the blanks around it. -/
def ofName? (s : String) : Option Format :=
  named? (Text.lower (Text.trim s))

/-- The message for a name that no format has. -/
def unknownMessage (s : String) : String :=
  "unknown format " ++ Text.quote s ++ " (expected: " ++ Text.join "|" (all.map name) ++ ")"

end Format

/-- The program a report comes from. -/
structure Tool where
  name : String := ""
  version : String := ""
  arguments : List String := []
  deriving Inhabited

/-- The options of a report. -/
structure Options where
  color : Bool := false
  pathMode : PathMode := .asGiven
  /-- The directory from which paths are shown in relative mode. -/
  baseDir : String := ""
  /-- The cells a source line may take; no number above zero sets no limit. -/
  width : Int := 0
  tool : Tool := {}
  deriving Inhabited

/-- The path of a finding as the options show it, `here` being the current directory. -/
def Options.pathOf (o : Options) (here : String) (f : Finding) : String :=
  o.pathMode.format here o.baseDir f.path

/-- The description of the smell of a finding. -/
def describe (f : Finding) : String :=
  ((Smell.ofCode? f.code).map (·.description)).getD ""

end InfraSmells.Report
