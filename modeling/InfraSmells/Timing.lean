import InfraSmells.Decimal.Shortest
import InfraSmells.Text.Search

/-!
# Timings

How long the phases of a run took. A phase whose name says so is about one file: it runs within the
others and does not add to their total. `Timing.summary` lists the phases, the total and the slowest
files.
-/

namespace InfraSmells.Timing

/-- One step of a run. -/
structure Phase where
  name : String
  /-- How long it took. -/
  nanoseconds : Int64
  note : String := ""
  deriving DecidableEq, Repr, Inhabited

/-- The beginning of the name of a phase about one file. -/
def fileMark : String := "file:"

/-- A time in milliseconds. -/
def milliseconds (t : Int64) : Binary64 :=
  let x := Binary64.ofInt t.toInt
  let (m, q) := x.parts
  let (num, den) := Binary64.inUnits m (tenPow 6) (-q)
  Binary64.ofRatio x.isNegative num den

/-- Is one time at least as long as another, in milliseconds? -/
def atLeast (a b : Int64) : Bool :=
  milliseconds a == milliseconds b || b ≤ a

/-- The phases that are about no single file. -/
def steps (phases : List Phase) : List Phase :=
  phases.filter fun p => !Text.startsWith p.name fileMark

/-- The phases about single files, named for their files. -/
def files (phases : List Phase) : List Phase :=
  phases.filterMap fun p => (Text.dropStart? fileMark p.name).map fun name => { p with name := name }

/-- The slowest files, at most `n` of them; equally slow ones keep their order. -/
def slowest (n : Int) (phases : List Phase) : List Phase :=
  ((files phases).mergeSort fun a b => atLeast a.nanoseconds b.nanoseconds).take n.toNat

/-- A time with two places. -/
def shown (t : Int64) : String :=
  Text.padLeft 7 ((milliseconds t).fixed 2) ++ " ms"

/-- The line of a phase. -/
def stepLine (name : String) (t : Int64) (note : String) : String :=
  "  " ++ Text.padRight 20 name ++ " " ++ shown t ++ (if note = "" then "" else "  // " ++ note) ++
    "\n"

/-- The phases and their total, then the slowest files, at most `n` of them. -/
def summary (n : Int) (phases : List Phase) : String :=
  let steps := steps phases
  let total := (steps.map (·.nanoseconds)).foldl (· + ·) 0
  let slow := slowest n phases
  "timings:\n" ++ String.join (steps.map fun p => stepLine p.name p.nanoseconds p.note) ++
    stepLine "total" total "" ++
    if slow.isEmpty then ""
    else "slowest files:\n" ++
      String.join (slow.map fun p => "  " ++ shown p.nanoseconds ++ "  " ++ p.name ++ "\n")

end InfraSmells.Timing
