import InfraSmells.CommandLine.Environment
import InfraSmells.Files.System

/-!
# What a call sees and what it answers

A call of the program sees files, variables, its arguments and where its output goes. It answers with
an exit code and what it writes. The exit code is 0 when nothing was found, 1 when something was, and
2 when the call could not be carried out.
-/

namespace InfraSmells.CommandLine

/-- What a call of the program sees. -/
structure Call where
  files : FileSystem
  vars : Variables := []
  arguments : List String
  /-- Does the output go to a terminal? -/
  terminal : Bool := false
  /-- How many workers can run at once. -/
  processors : Nat := 1

/-- What a call answers. -/
structure Response where
  exitCode : Nat := 0
  output : String := ""
  errors : String := ""
  deriving DecidableEq, Repr, Inhabited

/-- The exit code of a call that found something. -/
def exitFindings : Nat := 1

/-- The exit code of a call that could not be carried out. -/
def exitFatal : Nat := 2

/-- The answer of a call that could not be carried out. -/
def Response.fatal (message : String) : Response :=
  { exitCode := exitFatal, errors := "error: " ++ message ++ "\n" }

/-- The answer of a call that only writes. -/
def Response.text (s : String) : Response :=
  { output := s }

end InfraSmells.CommandLine
