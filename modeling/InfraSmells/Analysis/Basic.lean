import InfraSmells.Analysis.Passage
import InfraSmells.Checker.Registry

/-!
# Analysis

An analysis goes through trees, one after the other. The findings about a tree are reported once for
each code, path and line, sorted. `Analysis.check` begins every tree anew, but goes on with the reader
and with whatever the tree before has left as the current file.
-/

namespace InfraSmells

/-- What a silent way through a tree shows: the visits in their order and the state at the end. -/
structure Walk where
  visits : List Visit
  trail : Analysis

namespace Analysis

/-- A new analysis, with a reader of the given size. -/
def fresh (config : Config) (checkers : List Checker) (size : Int) : Analysis where
  config := config
  checkers := checkers
  reader := .ofSize size

/-- The analysis of a configuration with the checkers of the given families. -/
def ofConfig (config : Config) (families : List Family) : Analysis :=
  fresh config (Registry.build config families) 0

/-- The findings about a tree, and the analysis to go on with. -/
def check (fs : FileSystem) (a : Analysis) (root : Element) :
    Except AnalysisError (List Finding) × Analysis :=
  match Action.root? fs root with
  | none => (.error (.unsupportedRoot root.typeName), a.reset)
  | some action =>
    match action a.reset with
    | (a, some e) => (.error e, a)
    | (a, none) =>
      let sorted := Finding.sort a.found
      (.ok sorted, { a with found := sorted })

/-- The analysis after several trees. -/
def after (fs : FileSystem) (a : Analysis) (roots : List Element) : Analysis :=
  roots.foldl (fun a root => (a.check fs root).2) a

/-- Goes through the tree below an element, if it is the root of one, and reports nothing. -/
def walk? (fs : FileSystem) (a : Analysis) (root : Element) : Option Walk :=
  (Action.root? fs root).map fun action =>
    let silent : Checker := .ofFindings "silent" fun _ _ _ => []
    let trail := (action { a.reset with checkers := [silent] }).1
    { visits := trail.calls.reverse.map (·.visit), trail := trail }

end Analysis

end InfraSmells
