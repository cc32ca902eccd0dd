import InfraSmells.Text.Blank
import InfraSmells.Text.Case
import InfraSmells.Text.Quoted

/-!
# Log settings

The levels from which records are logged, and the forms of a record.
-/

namespace InfraSmells

/-- How important a record has to be. -/
inductive LogLevel where
  | debug | info | warn | error
  deriving DecidableEq, Repr, Inhabited

namespace LogLevel

/-- The label of a level. -/
def label : LogLevel → String
  | debug => "DEBUG"
  | info => "INFO"
  | warn => "WARN"
  | error => "ERROR"

/-- The level of a name, whatever its letter case and the blanks around it. -/
def ofName? (s : String) : Option LogLevel :=
  match Text.lower (Text.trim s) with
  | "debug" => some debug
  | "" | "info" => some info
  | "warn" | "warning" => some warn
  | "error" => some error
  | _ => none

/-- The message for a name that no level has. -/
def unknownMessage (s : String) : String :=
  "unknown log level " ++ Text.quote s ++ " (expected: debug|info|warn|error)"

end LogLevel

/-- The form of a record. -/
inductive LogFormat where
  | text | json
  deriving DecidableEq, Repr, Inhabited

namespace LogFormat

/-- The form of a name, whatever its letter case. -/
def ofName? (s : String) : Option LogFormat :=
  match Text.lower s with
  | "" | "text" => some text
  | "json" => some json
  | _ => none

/-- The message for a name that no form has. -/
def unknownMessage (s : String) : String :=
  "unknown log format " ++ Text.quote s ++ " (expected: text|json)"

end LogFormat

end InfraSmells
