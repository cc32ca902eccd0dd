import InfraSmells.Finding.Catalog

/-!
# Collections of findings

Sorting, removing repetitions, filtering and counting. A repetition is a finding whose code, path and
line were met before, whatever its context. `Reporter` removes repetitions as findings arrive.
-/

namespace InfraSmells

namespace Finding

/-- The findings sorted by path, line and code; equal ones keep their order. -/
def sort (fs : List Finding) : List Finding :=
  fs.mergeSort fun a b => order a b != .gt

/-- The findings whose key is not among `seen` and not that of an earlier finding. -/
def dedupFrom (seen : List Key) : List Finding → List Finding
  | [] => []
  | f :: fs => if f.key ∈ seen then dedupFrom seen fs else f :: dedupFrom (f.key :: seen) fs

/-- The first finding of each key. -/
def dedup (fs : List Finding) : List Finding :=
  dedupFrom [] fs

/-- The first code that the catalog does not know. -/
def unknownCode? (fs : List Finding) : Option String :=
  (fs.find? fun f => (Smell.ofCode? f.code).isNone).map (·.code)

/-- How often each code occurs, in the order of the codes. -/
def countByCode (fs : List Finding) : List (String × Nat) :=
  (Text.sortDistinct (fs.map (·.code))).map fun c => (c, (fs.filter (·.code == c)).length)

end Finding

/-- Passes findings on, without repetitions. -/
structure Reporter where
  seen : List Finding.Key := []
  deriving Inhabited

/-- Adds a finding to those collected, unless its key has been reported before. -/
def Reporter.report (r : Reporter) (fs : List Finding) (f : Finding) : Reporter × List Finding :=
  if f.key ∈ r.seen then (r, fs) else ({ seen := f.key :: r.seen }, fs ++ [f])

end InfraSmells
