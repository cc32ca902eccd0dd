import InfraSmells.Datum.Json
import InfraSmells.Report.Options

/-!
# SARIF logs

A log holds a result for every finding and a rule for every code that occurs, sorted by code. A
result points to its rule by the rule's place in that list.
-/

namespace InfraSmells.Sarif

open Report

/-- What a log says of a smell. -/
structure Rule where
  id : String
  name : String
  description : String
  level : String
  category : String
  deriving DecidableEq, Repr

/-- A place in a file. -/
structure Region where
  startLine : Int
  snippet : String
  deriving DecidableEq, Repr

/-- What a log says of a finding. -/
structure Result where
  ruleId : String
  /-- The place of the rule among the rules of the log. -/
  ruleIndex : Nat
  level : String
  message : String
  uri : String
  region : Option Region
  deriving DecidableEq, Repr

/-- A log. -/
structure Log where
  tool : Tool
  rules : List Rule
  results : List Result

/-- The level of a severity. -/
def level : Severity → String
  | .info => "note"
  | .warning => "warning"
  | .error => "error"

/-- The rule of a code. -/
def ruleOf (code : String) : Rule where
  id := code
  name := Smell.titleOf code
  description := ((Smell.ofCode? code).map (·.description)).getD ""
  level := level (Smell.severityOf code)
  category := Smell.categoryNameOf code

/-- The codes that occur, each once, sorted. -/
def codesOf (findings : List Finding) : List String :=
  Text.sortDistinct (findings.map (·.code))

/-- The region of a finding. A line that 32 bits do not hold, or that is none, has no region. -/
def regionOf (f : Finding) : Option Region :=
  if 0 < f.line && f.line < twoPow 32 then some ⟨f.line, f.snippet⟩ else none

/-- The result of a finding, under rules of the given codes. -/
def resultOf (codes : List String) (path : Finding → String) (f : Finding) : Result where
  ruleId := f.code
  ruleIndex := codes.idxOf f.code
  level := level (Smell.severityOf f.code)
  message := Smell.titleOf f.code ++ if f.suggestion = "" then "" else ": " ++ f.suggestion
  uri := path f
  region := regionOf f

/-- The log of findings, their paths shown by `path`. -/
def logOf (tool : Tool) (path : Finding → String) (findings : List Finding) : Log :=
  let codes := codesOf findings
  { tool := tool
    rules := codes.map ruleOf
    results := findings.map (resultOf codes path) }

/-- The name under which a program that gives none is listed. -/
def defaultToolName : String := "iacsmell"

/-- A message object. -/
def messageObject (s : String) : Datum := .table [("text", .text s)]

/-- The object of a rule. -/
def Rule.toDatum (r : Rule) : Datum :=
  .table [("id", .text r.id), ("name", .text r.name), ("shortDescription", messageObject r.name),
    ("fullDescription", messageObject r.description),
    ("defaultConfiguration", .table [("level", .text r.level)]),
    ("properties", .table [("category", .text r.category)])]

/-- The object of a region. -/
def Region.toDatum (r : Region) : Datum :=
  .table ([("startLine", .number (.integer r.startLine))] ++
    if r.snippet = "" then [] else [("snippet", messageObject r.snippet)])

/-- The object of a result. -/
def Result.toDatum (r : Result) : Datum :=
  let place := [("artifactLocation", Datum.table [("uri", .text r.uri)])] ++
    (r.region.map fun g => ("region", g.toDatum)).toList
  .table [("ruleId", .text r.ruleId), ("ruleIndex", .number (.integer r.ruleIndex)),
    ("level", .text r.level), ("message", messageObject r.message),
    ("locations", .list [.table [("physicalLocation", .table place)]])]

/-- The object of a log. -/
def Log.toDatum (l : Log) : Datum :=
  let tool := l.tool
  let driver :=
    [("name", Datum.text (if tool.name = "" then defaultToolName else tool.name))] ++
    (if tool.version = "" then [] else [("version", Datum.text tool.version)]) ++
    [("rules", Datum.list (l.rules.map Rule.toDatum))]
  let invocations :=
    if tool.arguments.isEmpty then []
    else [("invocations", Datum.list [.table [("arguments", .list (tool.arguments.map .text)),
      ("executionSuccessful", .flag true)]])]
  .table [("version", .text "2.1.0"),
    ("$schema", .text "https://json.schemastore.org/sarif-2.1.0.json"),
    ("runs", .list [.table ([("tool", Datum.table [("driver", .table driver)])] ++ invocations ++
      [("results", Datum.list (l.results.map Result.toDatum))])])]

end InfraSmells.Sarif
