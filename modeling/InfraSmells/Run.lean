import InfraSmells.Analysis.Basic
import InfraSmells.Input.Discovery
import InfraSmells.Run.Pool

/-!
# Runs

A run analyses every input that its roots name. Each input is a task of its own, analysed from a
fresh start, and its outcome does not hang on the others: `Run.outcome` gives it and `Run.merge` puts
the outcomes together in the order of the tasks. A task whose input cannot be parsed is skipped; one
whose analysis fails is listed with its failure; the findings of all others are reported once for
each code, path and line, sorted.
-/

namespace InfraSmells.Run

/-- What a run is asked for. -/
structure Settings where
  config : Config
  input : Input := .documents
  families : List Family := []
  /-- The type of blocks that have none. -/
  type : BlockType := .unknown
  /-- Is every root that is a directory one module? -/
  asModules : Bool := false

/-- One input to analyse. -/
structure Task where
  path : String
  isModule : Bool := false
  deriving DecidableEq, Repr, Inhabited

/-- What became of a task. -/
inductive Outcome where
  | found (findings : List Finding)
  /-- The input holds nothing to check. -/
  | nothing
  | failed (e : AnalysisError)
  | skipped
  deriving DecidableEq, Repr

/-- Why a run gives no result. -/
inductive RunError where
  | discovery (e : FileError)
  /-- A document broke the parser down. -/
  | breakdown
  deriving DecidableEq, Repr

/-- The message of a failure. -/
def RunError.message : RunError → String
  | .discovery e => "failed to discover inputs: " ++ e.message
  | .breakdown => "parser broke down"

/-- The result of a run. -/
structure Result where
  /-- The inputs, in the order of the tasks. -/
  files : List String
  findings : List Finding
  errors : List (String × AnalysisError)
  skipped : List String
  deriving Inhabited

/-- Did the run find anything, or fail on something? -/
def Result.failed (r : Result) : Bool :=
  !r.findings.isEmpty || !r.errors.isEmpty

/-- The tasks of roots taken as modules: the directories first, then the files. -/
def moduleTasks (fs : FileSystem) (roots : List String) : Except FileError (List Task) := do
  let kinds ← roots.mapM fun r => (fs.isDirectory r).map fun isDir => (Path.clean r, isDir)
  let of (wanted : Bool) : List String :=
    Text.sortDistinct ((kinds.filter fun (k : String × Bool) => k.2 == wanted).map Prod.fst)
  return (of true).map (⟨·, true⟩) ++ (of false).map (⟨·, false⟩)

/-- The tasks the roots stand for. -/
def tasks (fs : FileSystem) (s : Settings) (roots : List String) : Except FileError (List Task) :=
  if s.asModules then moduleTasks fs roots
  else (s.input.discover fs roots).map (List.map (⟨·, false⟩))

/-- What becomes of a task, unless its document breaks the parser down. -/
def outcome (fs : FileSystem) (s : Settings) (t : Task) : Option Outcome :=
  match s.input.parsePath fs t.path s.type t.isModule with
  | .error (.document _ .missingElement) | .error (.document _ .repeatedValue) => none
  | .error _ => some .skipped
  | .ok none => some .nothing
  | .ok (some root) =>
    match (Analysis.ofConfig s.config s.families).check fs root with
    | (.ok findings, _) => some (.found findings)
    | (.error e, _) => some (.failed e)

/-- The findings of an outcome. -/
def Outcome.findings : Outcome → List Finding
  | .found fs => fs
  | _ => []

/-- The failure of an outcome. -/
def Outcome.error? : Outcome → Option AnalysisError
  | .failed e => some e
  | _ => none

/-- Puts the outcomes of tasks together. -/
def merge (done : List (Task × Outcome)) : Result where
  files := done.map (·.1.path)
  findings := Finding.sort (Finding.dedup (done.flatMap (·.2.findings)))
  errors := done.filterMap fun (d : Task × Outcome) => d.2.error?.map fun e => (d.1.path, e)
  skipped := (done.filter fun (d : Task × Outcome) => d.2 == .skipped).map (·.1.path)

/-- The result of analysing all that the roots name. -/
def run (fs : FileSystem) (s : Settings) (roots : List String) : Except RunError Result := do
  let tasks ← (tasks fs s roots).mapError .discovery
  match tasks.mapM (outcome fs s) with
  | none => throw .breakdown
  | some outcomes => return merge (tasks.zip outcomes)

end InfraSmells.Run
