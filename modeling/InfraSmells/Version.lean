import InfraSmells.Report.Style

/-!
# Versions

The name and version of the program, and how a version is shown.
-/

namespace InfraSmells.Version

/-- The name of the program. -/
def tool : String := "iacsmell"

/-- The version of the program. -/
def current : String := "0.1.0-dev"

/-- A version with its major, minor and patch parts coloured. What follows the patch is left as it
is, and so is a version that does not have the three parts. -/
def pretty (color : Bool) (v : String) : String :=
  match Text.split '.' v with
  | major :: minor :: patch :: more =>
    let tail := (Text.join "." (patch :: more)).toList
    let inPatch (c : Char) : Bool := c != '-' && c != '+'
    Style.paint color [.yellow, .bold] major ++ "." ++
      Style.paint color [.green, .bold] minor ++ "." ++
      Style.paint color [.blue, .bold] (String.ofList (tail.takeWhile inPatch)) ++
      String.ofList (tail.dropWhile inPatch)
  | _ => v

end InfraSmells.Version
