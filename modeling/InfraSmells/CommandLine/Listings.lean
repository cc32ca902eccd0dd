import InfraSmells.Checker.Registry
import InfraSmells.CommandLine.Check
import InfraSmells.Datum.Json
import InfraSmells.Text.Width

/-!
# The commands `codes` and `version`

`codes` lists the catalog of smells, or the part of it that is checked for a technology; `version`
tells the version of the program. Both write for people or as JSON.
-/

namespace InfraSmells.CommandLine

/-- The message for a format that a listing does not have. -/
def unsupportedFormat (format : String) : String :=
  "unsupported format " ++ Text.quote format ++ " (must be pretty or json)"

/-- The codes that are asked for, sorted. -/
def selectedCodes (technology : String) (smells : List String) : Except String (List String) := do
  if Text.trim technology = "" then
    if !smells.isEmpty then throw "--smells needs --tech"
    return Smell.catalog.map (·.code)
  let t ← orMessage (Technology.ofName? technology) (Technology.unknownMessage technology)
  let families ← familiesOf smells
  return (Registry.codes (Registry.active t families)).mergeSort Text.le

/-- The catalog entries of codes. -/
def entriesOf (codes : List String) : Except String (List Smell) :=
  codes.mapM fun c => orMessage (Smell.ofCode? c) (Smell.unknownMessage c)

/-- The widest of some texts. -/
def widest (texts : List String) : Nat :=
  (texts.map Text.width).foldl max 0

/-- The entries in columns, and their number. -/
def codeLines (describe : Bool) (entries : List Smell) : String :=
  let codeWidth := widest (entries.map (·.code))
  let categoryWidth := widest (entries.map (·.category.name))
  let line (s : Smell) : String :=
    Text.fillRight s.code codeWidth ++ "  " ++ Text.fillRight s.category.name categoryWidth ++
      "  " ++ s.title ++ "\n" ++ if describe then "    " ++ s.description ++ "\n" else ""
  String.join (entries.map line) ++ toString entries.length ++ " codes\n"

/-- The object of an entry. -/
def codeObject (describe : Bool) (s : Smell) : Datum :=
  .table ([("code", Datum.text s.code), ("category", .text s.category.name),
      ("severity", .text s.severity.name), ("title", .text s.title)] ++
    if describe then [("description", Datum.text s.description)] else [])

/-- Carries `codes` out. -/
def respondCodes (g : Given) : Except String String := do
  let codes ← selectedCodes (g.text codesFlags "tech") (g.texts codesFlags "smells")
  let entries ← entriesOf codes
  let describe := g.flag codesFlags "describe"
  let format := g.text codesFlags "format"
  match Text.lower format with
  | "pretty" => return codeLines describe entries
  | "json" =>
    let d : Datum := .list (entries.map (codeObject describe))
    return d.toJsonIndented ++ "\n"
  | _ => throw (unsupportedFormat format)

/-- What the program says of itself. -/
def tagline : String := "smells before they ship"

/-- What stands for a part of the build that was not recorded. -/
def unrecorded : String := "unknown"

/-- The parts of the build that are asked for: the flag, its member in JSON and its heading. -/
def buildParts (g : Given) : List (String × String) :=
  let asked (name : String) : Bool := g.flag versionFlags name || g.flag versionFlags "full"
  (if asked "hash" then [("git_commit", "commit: ")] else []) ++
    (if asked "message" then [("git_message", "message: ")] else []) ++
    (if asked "date" then [("build_date", "built:  ")] else [])

/-- Carries `version` out. -/
def respondVersion (color : Bool) (g : Given) : Except String String :=
  let parts := buildParts g
  let format := g.text versionFlags "format"
  match Text.lower format with
  | "pretty" =>
    .ok (Version.tool ++ " " ++ Version.pretty color Version.current ++ ": " ++ tagline ++ "\n" ++
      if parts.isEmpty then
        "set --hash, --message, --date, or --full for more build trivia\n"
      else String.join (parts.map fun ((_, heading) : String × String) =>
        heading ++ unrecorded ++ "\n"))
  | "json" =>
    let d : Datum := .table ([("tool", .text Version.tool), ("version", .text Version.current),
        ("tagline", .text tagline)] ++
      parts.map fun ((member, _) : String × String) => (member, .text unrecorded))
    .ok (d.toJsonIndented ++ "\n")
  | _ => .error (unsupportedFormat format)

end InfraSmells.CommandLine
