import InfraSmells.CommandLine.Basic

/-!
# The program

The outer layer: it gathers what a call sees (its arguments, variables and the files it names), lets
`CommandLine.respondWith` carry the call out, and writes the answer.
-/

open InfraSmells InfraSmells.CommandLine

/-- The files of a tree with those at a path added, as they stand on disk below `here`. -/
partial def gatherPath (here : String) (fs : FileSystem) (path : String) : IO FileSystem := do
  let place := (← IO.currentDir) / here / path
  if ← place.isDir then
    let mut found := fs.makeDirectory path
    for entry in ← place.readDir do
      found ← gatherPath here found (Path.join path entry.fileName)
    return found
  else if ← place.pathExists then
    return fs.write path (← IO.FS.readBinFile place).toList
  else
    return fs

/-- The files of a tree with those at several paths added. -/
def gatherPaths (here : String) (fs : FileSystem) (paths : List String) : IO FileSystem :=
  (paths.filter (· ≠ "")).foldlM (gatherPath here) fs

/-- The variables that the program reads. -/
def gatherVariables : IO Variables := do
  let names := [technologyVariable, configVariable, formatVariable, fileVariable] ++
    descriptionVariables
  names.filterMapM fun name => do return (← IO.getEnv name).map fun value => (name, value)

/-- The paths that arguments may name: themselves, and the values of flags in them. -/
def namedPaths (arguments : List String) : List String :=
  arguments ++ arguments.filterMap (Text.after? "=")

/-- The sources that the documents below some roots were made from. -/
def sourcesOf (fs : FileSystem) (roots : List String) : List String :=
  let sources (path : String) : List String :=
    match Input.documents.parseFile fs path .unknown with
    | .ok root =>
      let analysis : Analysis := { config := {}, checkers := [] }
      ((analysis.walk? fs root).map fun w => w.visits.map (·.path)).getD []
    | .error _ => []
  let roots := roots.filter fun r => (fs.entry r).toOption.isSome
  match Input.documents.discover fs roots with
  | .ok files => (files.flatMap sources).eraseDups
  | .error _ => []

/-- A stopwatch that runs. -/
def stopwatch : Stopwatch IO := fun f => do
  let start ← IO.monoNanosNow
  let x ← IO.lazyPure f
  let stop ← IO.monoNanosNow
  return (x, Int64.ofNat (stop - start))

/-- Writes a text to a stream, byte by byte as it was read. -/
def writeText (stream : IO.FS.Stream) (s : String) : IO Unit := do
  stream.write (ByteArray.mk (Text.toBytes s).toArray)
  stream.flush

def main (arguments : List String) : IO UInt32 := do
  let here := (← IO.currentDir).toString
  let vars ← gatherVariables
  let files ← gatherPaths here (.empty (Path.ofText here).parts)
    [defaultFile, vars.value fileVariable, vars.value configVariable]
  let files ← gatherPaths here files (namedPaths arguments)
  let call : Call := { files := files, vars := vars, arguments := arguments }
  let configured := ((variablesOf call).toOption.getD []).value configVariable
  let files ← gatherPaths here files (configured :: sourcesOf files (namedPaths arguments))
  let stdout ← IO.getStdout
  let call := { call with files := files, terminal := ← stdout.isTty }
  match ← respondWith stopwatch call with
  | some response =>
    writeText stdout response.output
    writeText (← IO.getStderr) response.errors
    return response.exitCode.toUInt32
  | none =>
    writeText (← IO.getStderr) "error: a document broke the parser down\n"
    return exitFatal.toUInt32
