import InfraSmells.Report.Options
import InfraSmells.Report.Style
import InfraSmells.Source.Reader
import InfraSmells.Text.Width

/-!
# Listings

The forms of a report for people: `Report.pretty` groups findings by file, with their source lines
and a summary, and `Report.plain` writes one paragraph per finding. Both show the source line of a
finding as it stands in the file; where the file or the line is missing, the finding's own snippet
stands in.
-/

namespace InfraSmells.Report

/-- The source line that shows a finding, without white space around it. -/
def sourceLine (fs : FileSystem) (r : Reader) (f : Finding) : String × Reader :=
  if f.line ≤ 0 then (f.snippet, r)
  else
    match r.load fs f.path with
    | (.ok file, r) =>
      (if f.line ≤ file.lines.length then Text.trim (file.line f.line) else f.snippet, r)
    | (.error _, r) => (f.snippet, r)

/-- The findings, each with the source line that shows it. -/
def withLines (fs : FileSystem) : Reader → List Finding → List (Finding × String)
  | _, [] => []
  | r, f :: rest =>
    let (line, r) := sourceLine fs r f
    (f, line) :: withLines fs r rest

/-- One paragraph per finding. -/
def plain (fs : FileSystem) (o : Options) (findings : List Finding) : String :=
  let paragraph (f : Finding) (line : String) : String :=
    o.pathOf fs.herePath f ++ "\nIssue on line " ++ toString f.line ++ ": " ++ describe f ++ "\n" ++
      line ++ "\n\n"
  String.join ((withLines fs (.ofSize 0) findings).map fun ((f, line) : Finding × String) =>
    paragraph f line)

/-- A line cut to a number of cells; three dots show the cut where there is room for them. -/
def shorten (cells : Int) (line : String) : String :=
  if cells ≤ 0 then line
  else Text.truncate line cells.toNat (if cells ≤ 3 then "" else "...")

/-- The number of a line, or a dash where there is none. -/
def lineLabel (line : Int) : String :=
  if line < 1 then "-" else toString line

/-- The style of a severity. -/
def severityStyle : Severity → Style
  | .info => [.blue, .bold]
  | .warning => [.yellow, .bold]
  | .error => [.red, .bold]

/-- The entry of one finding below the name of its file. -/
def entry (o : Options) (width : Nat) (f : Finding) (line : String) : String :=
  let pad := Text.padLeft (width + 2) ""
  let severity := Smell.severityOf f.code
  let line := shorten o.width line
  "  " ++ Text.padLeft width (lineLabel f.line) ++ "  " ++
    (severityStyle severity).paint o.color (Text.padRight 7 severity.name) ++ "  " ++
    Style.paint o.color [.faint] f.code ++ "  " ++ Smell.titleOf f.code ++ "\n" ++
    (if line = "" then ""
      else pad ++ "| " ++ Style.paint o.color [.gray] line ++ "\n") ++
    (if f.suggestion = "" then ""
      else pad ++ "= " ++ Style.paint o.color [.cyan] ("hint: " ++ f.suggestion) ++ "\n")

/-- The entries of findings; a finding in another file than `previous` opens with the name of its
file. The second part counts the files that were opened, `files` of them before. -/
def entries (o : Options) (here : String) (width : Nat) (previous : String) (files : Nat) :
    List (Finding × String) → String × Nat
  | [] => ("", files)
  | (f, line) :: rest =>
    let opens := f.path != previous
    let heading :=
      if opens then
        (if 0 < files then "\n" else "") ++
          Style.paintHeading o.color [.bold, .underline] (o.pathOf here f) ++ "\n"
      else ""
    let (text, count) := entries o here width f.path (if opens then files + 1 else files) rest
    (heading ++ entry o width f line ++ text, count)

/-- A count with its noun. -/
def counted (n : Nat) (one many : String) : String :=
  toString n ++ " " ++ if n = 1 then one else many

/-- The last line of a listing. -/
def summary (findings files : Nat) : String :=
  if findings = 0 then "no smells found"
  else counted findings "smell" "smells" ++ " in " ++ counted files "file" "files"

/-- A path that no file has. -/
def noPath : String := "\x00"

/-- The findings by file, and a summary. -/
def pretty (fs : FileSystem) (o : Options) (findings : List Finding) : String :=
  let width := (findings.map fun f => (lineLabel f.line).length).foldl max 1
  let shown := withLines fs (.ofSize 0) findings
  let (text, files) := entries o fs.herePath width noPath 0 shown
  text ++ (if findings.isEmpty then "" else "\n") ++
    Style.paint o.color [.bold] (summary findings.length files) ++ "\n"

end InfraSmells.Report
