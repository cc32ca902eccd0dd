import InfraSmells.Checker.Basic
import InfraSmells.Finding.Bag
import InfraSmells.Source.Reader

/-!
# The state of an analysis

An `Analysis` goes through trees, one after the other, and lets its checkers look at their elements. It
holds all that changes on the way: the reader, what the checkers see besides the element (the current
file, the variables and the blocks in scope), the marks that tell how many variables were in scope
before each open block, the files found not to be text, and the findings reported so far. `calls` keeps
account of the calls of checkers; nothing depends on it.

An `Action` is a part of that way. It ends with a changed state and, if it came to a stop, with the
reason; the state it stops in is kept.
-/

namespace InfraSmells

/-- Why a way through a tree stops. -/
structure Stop where
  path : String
  error : FileError
  deriving DecidableEq, Repr

/-- The message of a stop. -/
def Stop.message (s : Stop) : String :=
  s.path ++ ": " ++ s.error.message

/-- Why a tree could not be analysed. -/
inductive AnalysisError where
  | unsupportedRoot (typeName : String)
  | stopped (stop : Stop)
  /-- A checker broke down. -/
  | breakdown
  deriving DecidableEq, Repr

/-- The message of a failure. -/
def AnalysisError.message : AnalysisError → String
  | .unsupportedRoot typeName => "unsupported analysis root: " ++ typeName
  | .stopped stop => stop.message
  | .breakdown => "analysis panic"

/-- One visit of an element: the element, the path of its block and what is seen besides. -/
structure Visit where
  context : Context
  element : Element
  path : String

/-- One call of a checker. -/
structure CheckerCall where
  checker : Checker
  visit : Visit

/-- An analysis. -/
structure Analysis where
  config : Config
  checkers : List Checker
  reader : Reader := .ofSize 0
  /-- The source file of the current block, if it has one. -/
  file : Option SourceFile := none
  firstCodeLine : Nat := 0
  newFile : Bool := false
  /-- The names of the variables in scope, the outermost first. -/
  vars : List String := []
  scope : List Block := []
  /-- How many variables were in scope before each open block, the innermost first. -/
  marks : List Nat := []
  /-- The paths of files that were found not to be text. -/
  notText : List String := []
  reporter : Reporter := {}
  found : List Finding := []
  /-- The calls of checkers so far, the last one first. -/
  calls : List CheckerCall := []

/-- The number of the first line that is no comment; zero if there is none. -/
def SourceFile.firstCodeLine (t : Technology) (f : SourceFile) : Nat :=
  match f.lines.findIdx? fun line => !t.isCommentLine (Text.dropEnd "\n" line) with
  | some i => i + 1
  | none => 0

namespace Analysis

/-- What the checkers see besides the element. -/
def context (a : Analysis) : Context where
  config := a.config
  file := a.file
  newFile := a.newFile
  firstCodeLine := a.firstCodeLine
  vars := a.vars
  scope := a.scope

/-- Brings names into scope. -/
def declare (names : List String) (a : Analysis) : Analysis :=
  { a with vars := a.vars ++ names }

/-- Marks where the variables of a block begin. -/
def openScope (a : Analysis) : Analysis :=
  { a with marks := a.vars.length :: a.marks }

/-- Takes the variables behind the last mark out of scope, and the mark with them. -/
def closeScope (a : Analysis) : Analysis :=
  match a.marks with
  | [] => a
  | mark :: marks => { a with marks := marks, vars := a.vars.take mark }

/-- There is no current file. -/
def leaveFile (a : Analysis) : Analysis :=
  { a with file := none, firstCodeLine := 0, newFile := false }

/-- The current file is the one of another state. -/
def withFileOf (a before : Analysis) : Analysis :=
  { a with file := before.file, firstCodeLine := before.firstCodeLine, newFile := before.newFile }

/-- Is a file that could not be read none at all? A path that leads nowhere or to a directory has no
file. -/
def hasNoFile (fs : FileSystem) (path : String) (e : FileError) : Bool :=
  e.cause = .notFound ||
    match fs.isDirectory path with
    | .ok b => b
    | .error _ => false

/-- Makes a file that has been read the current one. -/
def takeFile (fs : FileSystem) (path : String) (a : Analysis) :
    Except ReadError SourceFile → Analysis × Except AnalysisError Bool
  | .ok f =>
    let first := f.firstCodeLine a.config.technology
    ({ a with file := some f, newFile := true, firstCodeLine := first }, .ok true)
  | .error (.notText _) => ({ a with notText := path :: a.notText }, .ok false)
  | .error (.file e) =>
    if hasNoFile fs path e then (a.leaveFile, .ok true) else (a, .error (.stopped ⟨path, e⟩))

/-- Makes the file of a path the current one. The answer is whether the elements of the file are looked
at, which they are not if it is no text. A file that cannot be read is a reason to stop. -/
def enterFile (fs : FileSystem) (path : String) (a : Analysis) :
    Analysis × Except AnalysisError Bool :=
  if path = "" then (a.leaveFile, .ok true)
  else if a.file.map (·.path) = some path then ({ a with newFile := false }, .ok true)
  else if path ∈ a.notText then (a, .ok false)
  else
    let (result, reader) := a.reader.load fs path
    { a with reader := reader }.takeFile fs path result

/-- Reports a finding, unless it is about a file that is not text. -/
def report (a : Analysis) (f : Finding) : Analysis :=
  if f.path ∈ a.notText then a
  else
    let (reporter, found) := a.reporter.report a.found f
    { a with reporter := reporter, found := found }

/-- The state in which a tree is begun. The reader and the current file are left as they are. -/
def reset (a : Analysis) : Analysis :=
  { a with
    vars := []
    scope := []
    marks := []
    notText := []
    reporter := {}
    found := []
    calls := [] }

end Analysis

/-- A part of the way through a tree. -/
abbrev Action := Analysis → Analysis × Option AnalysisError

namespace Action

/-- Nothing is done. -/
def done : Action := fun a => (a, none)

/-- A change of the state. -/
def change (f : Analysis → Analysis) : Action := fun a => (f a, none)

/-- One action after the other; the first that stops is the last. -/
def andThen (first second : Action) : Action := fun a =>
  match first a with
  | (a, none) => second a
  | (a, some e) => (a, some e)

/-- The actions for the items of a list, one after the other. -/
def each {α : Type} (f : α → Action) : List α → Action
  | [] => done
  | x :: xs => (f x).andThen (each f xs)

/-- Whatever comes of an action, the current file is afterwards the one it was before. -/
def keepingFile (action : Action) : Action := fun a =>
  let result := action a
  (result.1.withFileOf a, result.2)

/-- Lets one checker look at an element. -/
def call (e : Element) (path : String) (c : Checker) : Action := fun a =>
  let b := { a with calls := ⟨c, a.context, e, path⟩ :: a.calls }
  match c.check a.context e path with
  | none => (b, some .breakdown)
  | some found => (found.foldl Analysis.report b, none)

/-- Lets every checker look at an element. -/
def visit (e : Element) (path : String) : Action := fun a =>
  each (call e path) a.checkers a

end Action

end InfraSmells
