import InfraSmells.CommandLine.Commands
import InfraSmells.CommandLine.Response
import InfraSmells.Config.Reading
import InfraSmells.Report.Basic
import InfraSmells.Run
import InfraSmells.Timing

/-!
# The command `check`

`CheckJob.ofGiven` turns the flags and arguments of the command into a job, and says what is wrong
with them: of several faults the first in a fixed order. `CheckJob.respond` carries a job out. How
long its phases take is measured by a stopwatch of the caller: with `Stopwatch.still` the answer is a
function of what the call sees.
-/

namespace InfraSmells.CommandLine

/-- A way to compute something and tell how long it took, in nanoseconds. -/
abbrev Stopwatch (m : Type → Type) := {α : Type} → (Unit → α) → m (α × Int64)

/-- A stopwatch that does not run. -/
def Stopwatch.still : Stopwatch Id :=
  fun f => (f (), 0)

/-- What `check` is to do. -/
structure CheckJob where
  settings : Run.Settings
  roots : List String
  format : Report.Format
  options : Report.Options
  /-- How many workers may run at once; no number above zero leaves it open. -/
  jobs : Int
  timings : Bool
  /-- The files to which profiles are written. -/
  profiles : List (String × String)

/-- The families of names; the first unknown one is the fault. -/
def familiesOf (names : List String) : Except String (List Family) :=
  names.mapM fun n =>
    match Family.ofName? n with
    | some f => .ok f
    | none => .error (Family.unknownMessage n)

/-- The value of a look-up, or a message. -/
def orMessage {α : Type} (x : Option α) (message : String) : Except String α :=
  match x with
  | some a => .ok a
  | none => .error message

/-- The job of flags and arguments. -/
def CheckJob.ofGiven (call : Call) (flags : List Flag) (color : Bool) (g : Given) :
    Except String CheckJob := do
  let technology := g.text flags "tech"
  if Text.trim technology = "" then
    throw ("--tech is required (or set " ++ technologyVariable ++ ")")
  let t ← orMessage (Technology.ofName? technology) (Technology.unknownMessage technology)
  let format := g.text flags "format"
  let f ← orMessage (Report.Format.ofName? format) (Report.Format.unknownMessage format)
  let families ← familiesOf (g.texts flags "smells")
  let name := g.text flags "input"
  let name := if name = "" && t = .terraform then "terraform" else name
  let input ← (Input.ofName name t).mapError InputError.message
  let config ← (Config.load call.files (g.text flags "config") t).mapError fun e =>
    "failed to load configuration: " ++ e.message?.getD "malformed configuration"
  return {
    settings :=
      { config := config
        input := input
        families := families
        type := .ofName (g.text flags "type")
        asModules := g.flag flags "module" }
    roots := g.arguments
    format := f
    options :=
      { color := color
        width := g.integer flags "width"
        pathMode := if g.flag flags "fullpath" then .absolute else .asGiven
        tool := ⟨Version.tool, Version.current, call.arguments⟩ }
    jobs := g.integer flags "jobs"
    timings := g.flag flags "timings"
    profiles := [("cpu profile", g.text flags "cpu-profile"),
      ("trace", g.text flags "runtime-trace")] }

/-- Why a file cannot be made at a path. -/
def creationFault? (fs : FileSystem) (path : String) : Option FileError :=
  let parent :=
    if path.toList.contains '/' then
      String.ofList (path.toList.reverse.dropWhile (· != '/')).reverse
    else "."
  match fs.entry path, fs.entry parent with
  | .ok (.directory _), _ => some ⟨"open", path, .isDirectory⟩
  | .ok (.file _), _ => none
  | .error .notFound, .ok (.directory _) => none
  | .error cause, _ => some ⟨"open", path, cause⟩

/-- The files with empty profiles made; the first that cannot be made is the fault. -/
def startProfiles (fs : FileSystem) : List (String × String) → Except String FileSystem
  | [] => .ok fs
  | (what, path) :: rest =>
    if path = "" then startProfiles fs rest
    else
      match creationFault? fs path with
      | some e => .error ("failed to start " ++ what ++ ": " ++ e.message)
      | none => startProfiles (fs.write path []) rest

/-- The outcome of every task with the time it took. -/
def timedOutcomes {m : Type → Type} [Monad m] (watch : Stopwatch m) (fs : FileSystem)
    (s : Run.Settings) : List Run.Task → m (List (Run.Task × Option Run.Outcome × Int64))
  | [] => pure []
  | t :: ts => do
    let timed ← watch fun _ => Run.outcome fs s t
    let rest ← timedOutcomes watch fs s ts
    return (t, timed) :: rest

/-- The phase of one file. What could not be parsed or holds nothing to check has none. -/
def filePhase? (t : Run.Task) (outcome : Run.Outcome) (time : Int64) : Option Timing.Phase :=
  match outcome with
  | .skipped | .nothing => none
  | .failed _ => some ⟨Timing.fileMark ++ t.path, time, "failed"⟩
  | .found findings =>
    some ⟨Timing.fileMark ++ t.path, time, toString findings.length ++ " diagnostics"⟩

/-- How many files are listed as slowest. -/
def slowestCount : Int := 5

/-- The answer of a job that was carried out. -/
def CheckJob.answer (job : CheckJob) (result : Run.Result) (report : String)
    (phases : List Timing.Phase) : Response where
  exitCode := if result.failed then exitFindings else 0
  output := report
  errors :=
    String.join (result.errors.map fun ((path, e) : String × AnalysisError) =>
      "error: " ++ path ++ ": " ++ e.message ++ "\n") ++
    if job.timings then Timing.summary slowestCount phases else ""

/-- Carries a job out. There is no answer when a document breaks the parser down. -/
def CheckJob.respond {m : Type → Type} [Monad m] (watch : Stopwatch m) (call : Call)
    (job : CheckJob) : m (Option Response) := do
  match startProfiles call.files job.profiles with
  | .error message => return some (.fatal message)
  | .ok fs =>
    let (tasks, discovery) ← watch fun _ => Run.tasks fs job.settings job.roots
    match tasks with
    | .error e => return some (.fatal (Run.RunError.discovery e).message)
    | .ok tasks =>
      let timed ← timedOutcomes watch fs job.settings tasks
      let done? := timed.mapM fun ((t, o, _) : Run.Task × Option Run.Outcome × Int64) =>
        o.map fun o => (t, o)
      match done? with
      | none => return none
      | some done =>
        let (result, merging) ← watch fun _ => Run.merge done
        let (report, rendering) ← watch fun _ =>
          Report.write fs job.options result.findings job.format
        match Finding.unknownCode? result.findings with
        | some code => return some (.fatal (Report.RenderError.unknownCode code).message)
        | none =>
          let count := tasks.length
          let workers := Run.workers job.jobs call.processors count
          let analysis := (timed.map (·.2.2)).foldl (· + ·) 0
          let phases : List Timing.Phase :=
            [⟨"discover", discovery, toString count ++ " inputs"⟩] ++
            (if tasks.isEmpty then []
              else
                [⟨"analyze", analysis, "jobs=" ++ toString workers⟩] ++
                (timed.zip done).filterMap (fun (x, y) => filePhase? y.1 y.2 x.2.2) ++
                [⟨"merge", merging, toString result.findings.length ++ " diagnostics"⟩]) ++
            [⟨"render", rendering, job.format.name⟩]
          return some (job.answer result report phases)

end InfraSmells.CommandLine
