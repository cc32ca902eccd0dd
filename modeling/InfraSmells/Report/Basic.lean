import InfraSmells.Finding.Bag
import InfraSmells.Csv.Basic
import InfraSmells.Report.Listing
import InfraSmells.Report.Sarif

/-!
# Reports

`Report.render` shows findings in a format. A code that the catalog does not know spoils the whole
report, before anything of it is written.
-/

namespace InfraSmells.Report

/-- Why there is no report. -/
inductive RenderError where
  | unknownCode (code : String)
  | unknownFormat (name : String)
  deriving DecidableEq, Repr

/-- The message of a failure. -/
def RenderError.message : RenderError → String
  | .unknownCode code => Smell.unknownMessage code
  | .unknownFormat name => "unknown format " ++ Text.quote name

/-- The fields of a finding in a table. -/
def fields (o : Options) (here : String) (f : Finding) : List String :=
  [o.pathOf here f, toString f.line, f.code, f.snippet]

/-- One row of values per finding. -/
def csv (o : Options) (here : String) (findings : List Finding) : String :=
  String.join (findings.map fun f => Csv.row (fields o here f))

/-- One row of values per finding, the description of its smell in front. -/
def linter (o : Options) (here : String) (findings : List Finding) : String :=
  String.join (findings.map fun f => Csv.row (describe f :: fields o here f))

/-- The object of a finding. -/
def object (o : Options) (here : String) (f : Finding) : Datum :=
  .table ([("path", Datum.text (o.pathOf here f)), ("line", .number (.integer f.line)),
      ("code", .text f.code), ("category", .text (Smell.categoryNameOf f.code)),
      ("severity", .text (Smell.severityOf f.code).name), ("description", .text (describe f))] ++
    (if f.snippet = "" then [] else [("snippet", Datum.text f.snippet)]) ++
    (if f.suggestion = "" then [] else [("suggestion", Datum.text f.suggestion)]))

/-- One object for all findings, with a count per code. -/
def json (o : Options) (here : String) (findings : List Finding) : String :=
  let counts := (Finding.countByCode findings).map fun ((code, n) : String × Nat) =>
    (code, Datum.number (.integer n))
  let d : Datum := .table ([("diagnostics", Datum.list (findings.map (object o here))),
      ("count", .number (.integer findings.length))] ++
    if findings.isEmpty then [] else [("by_code", Datum.table counts)])
  d.toJsonIndented ++ "\n"

/-- The SARIF log of findings, as text. -/
def sarif (o : Options) (here : String) (findings : List Finding) : String :=
  (Sarif.logOf o.tool (o.pathOf here) findings).toDatum.toJsonIndented ++ "\n"

/-- Findings whose codes are all known, in a format. -/
def write (fs : FileSystem) (o : Options) (findings : List Finding) : Format → String
  | .pretty => pretty fs o findings
  | .text => plain fs o findings
  | .csv => csv o fs.herePath findings
  | .linter => linter o fs.herePath findings
  | .json => json o fs.herePath findings
  | .sarif => sarif o fs.herePath findings

/-- The report on findings in the format of a name. -/
def render (fs : FileSystem) (o : Options) (format : String) (findings : List Finding) :
    Except RenderError String :=
  match Finding.unknownCode? findings, Format.named? format with
  | some code, _ => .error (.unknownCode code)
  | none, none => .error (.unknownFormat format)
  | none, some f => .ok (write fs o findings f)

end InfraSmells.Report
