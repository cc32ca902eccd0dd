import InfraSmells.Source.File
import InfraSmells.Files.System

/-!
# Reading source files through a cache

A reader keeps the source files read last, under the clean form of their paths. A file found there
is not read again, and it is labelled with the spelling of the path under which it was first read. A
failed read leaves no trace.
-/

namespace InfraSmells

/-- Why a source file could not be read. -/
inductive ReadError where
  | file (e : FileError)
  /-- The file exists, but is no text. -/
  | notText (path : String)
  deriving DecidableEq, Repr, Inhabited

/-- The message of a failure. -/
def ReadError.message : ReadError → String
  | .file e => e.message
  | .notText path => SourceFile.notTextMessage path

/-- A source file read without a cache. -/
def FileSystem.source (fs : FileSystem) (path : String) : Except ReadError SourceFile :=
  match fs.read path with
  | .error e => .error (.file e)
  | .ok bytes =>
    match SourceFile.ofBytes? path bytes with
    | some f => .ok f
    | none => .error (.notText path)

/-- A bounded cache of source files, the one used last at the front. -/
structure Reader where
  capacity : Nat
  cached : List (String × SourceFile)
  deriving Inhabited

namespace Reader

/-- The capacity of a reader for which none is asked. -/
def defaultCapacity : Nat := 64

/-- A reader without files; a size that is not positive asks for the default. -/
def ofSize (size : Int) : Reader :=
  { capacity := if size ≤ 0 then defaultCapacity else size.toNat, cached := [] }

/-- The cached file of a clean path. -/
def get? (r : Reader) (key : String) : Option SourceFile :=
  (r.cached.find? (·.1 == key)).map Prod.snd

/-- Puts a file at the front, dropping what was used least recently. -/
def use (r : Reader) (key : String) (f : SourceFile) : Reader :=
  { r with cached := ((key, f) :: r.cached.filter (·.1 != key)).take r.capacity }

/-- Reads a source file, through the cache. -/
def load (fs : FileSystem) (r : Reader) (path : String) : Except ReadError SourceFile × Reader :=
  let key := Path.clean path
  match r.get? key with
  | some f => (.ok f, r.use key f)
  | none =>
    match fs.source path with
    | .ok f => (.ok f, r.use key f)
    | .error e => (.error e, r)

end Reader

end InfraSmells
