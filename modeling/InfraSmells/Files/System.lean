import InfraSmells.Files.Path
import InfraSmells.Text.Bytes

/-!
# Trees of files

A file system is a tree of named entries and a directory in which relative paths start. Following a
path is physical: every component but the last has to be a directory that exists, and `..` leads to
the directory above the one reached so far.
-/

namespace InfraSmells

/-- A file, or a directory with its entries in the order of their names. -/
inductive Entry where
  | file (content : List UInt8)
  | directory (entries : List (String × Entry))
  deriving Repr, Inhabited

/-- Why a path could not be used. -/
inductive FileCause where
  | notFound | notDirectory | isDirectory | nameTooLong | invalid
  deriving DecidableEq, Repr, Inhabited

/-- The text of a cause. -/
def FileCause.message : FileCause → String
  | .notFound => "no such file or directory"
  | .notDirectory => "not a directory"
  | .isDirectory => "is a directory"
  | .nameTooLong => "file name too long"
  | .invalid => "invalid argument"

/-- A failed use of a path. -/
structure FileError where
  action : String
  path : String
  cause : FileCause
  deriving DecidableEq, Repr, Inhabited

/-- The message of a failure. -/
def FileError.message (e : FileError) : String :=
  e.action ++ " " ++ e.path ++ ": " ++ e.cause.message

namespace Entry

/-- Is the entry a directory? -/
def isDirectory : Entry → Bool
  | file _ => false
  | directory _ => true

/-- The entries of a directory; a file has none. -/
def entries : Entry → List (String × Entry)
  | file _ => []
  | directory es => es

/-- The entry of a given name. -/
def child? (e : Entry) (name : String) : Option Entry :=
  (e.entries.find? (·.1 == name)).map Prod.snd

/-- Sets the entry of a name, keeping the entries sorted. -/
def setChild (name : String) (e : Entry) : List (String × Entry) → List (String × Entry)
  | [] => [(name, e)]
  | x :: xs =>
    match Text.compareText name x.1 with
    | .lt => (name, e) :: x :: xs
    | .eq => (name, e) :: xs
    | .gt => x :: setChild name e xs

/-- Puts an entry at the end of a path of names, making the directories on the way. An existing
directory is not replaced by an empty one. -/
def insert (e : Entry) : List String → Entry → Entry
  | [], old =>
    match e, old with
    | .directory [], .directory es => .directory es
    | _, _ => e
  | name :: names, old =>
    let inner := insert e names ((old.child? name).getD (.directory []))
    .directory (setChild name inner old.entries)

/-- Removes the entry at the end of a path of names. -/
def remove : List String → Entry → Entry
  | [], e => e
  | [name], e => .directory (e.entries.filter (·.1 != name))
  | name :: names, e =>
    match e.child? name with
    | some inner => .directory (setChild name (remove names inner) e.entries)
    | none => e

/-- Follows components from the directories `above`, the innermost first. -/
def follow : List Entry → List String → Except FileCause Entry
  | [], _ => .error .notFound
  | e :: _, [] => .ok e
  | e :: above, part :: parts =>
    if !e.isDirectory then .error .notDirectory
    else if part = "" || part = "." then follow (e :: above) parts
    else if part = ".." then
      match above with
      | [] => follow [e] parts
      | a :: rest => follow (a :: rest) parts
    else if 255 < Text.byteLength part then .error .nameTooLong
    else
      match e.child? part with
      | some inner => follow (inner :: e :: above) parts
      | none => .error .notFound
termination_by _ parts => parts.length

end Entry

/-- A tree of files and the directory in which relative paths start. -/
structure FileSystem where
  root : Entry
  /-- The names that lead from the root to the current directory. -/
  here : List String
  deriving Inhabited

namespace FileSystem

/-- The path of the current directory. -/
def herePath (fs : FileSystem) : String :=
  (Path.mk true fs.here).text

/-- The directories from the root down to the current one, the innermost first. -/
def hereStack (fs : FileSystem) : List Entry :=
  let step (stack : List Entry) (name : String) : List Entry :=
    match stack with
    | [] => []
    | e :: above => ((e.child? name).getD (.directory [])) :: e :: above
  fs.here.foldl step [fs.root]

/-- The entry a path leads to. -/
def entry (fs : FileSystem) (path : String) : Except FileCause Entry :=
  if path.toList.contains (Char.ofNat 0) then .error .invalid
  else if path = "" then .error .notFound
  else if 4095 < Text.byteLength path then .error .nameTooLong
  else
    let start := if Text.startsWith path "/" then [fs.root] else fs.hereStack
    Entry.follow start (Text.split '/' path)

/-- Is the path a directory? It has to exist. -/
def isDirectory (fs : FileSystem) (path : String) : Except FileError Bool :=
  match fs.entry path with
  | .ok e => .ok e.isDirectory
  | .error cause => .error ⟨"stat", path, cause⟩

/-- The content of a file. -/
def read (fs : FileSystem) (path : String) : Except FileError (List UInt8) :=
  match fs.entry path with
  | .ok (.file content) => .ok content
  | .ok (.directory _) => .error ⟨"read", path, .isDirectory⟩
  | .error cause => .error ⟨"open", path, cause⟩

/-- The entries of a directory. -/
def list (fs : FileSystem) (path : String) : Except FileError (List (String × Entry)) :=
  match fs.entry path with
  | .ok (.directory entries) => .ok entries
  | .ok (.file _) => .error ⟨"open", path, .notDirectory⟩
  | .error cause => .error ⟨"open", path, cause⟩

/-- The names that lead from the root to a path. -/
def names (fs : FileSystem) (path : String) : List String :=
  (Path.absolute fs.herePath path).parts

/-- The file system with a file written, its directories made. -/
def write (fs : FileSystem) (path : String) (content : List UInt8) : FileSystem :=
  { fs with root := Entry.insert (.file content) (fs.names path) fs.root }

/-- The file system with a directory made. -/
def makeDirectory (fs : FileSystem) (path : String) : FileSystem :=
  { fs with root := Entry.insert (.directory []) (fs.names path) fs.root }

/-- The file system without the entry at a path. -/
def remove (fs : FileSystem) (path : String) : FileSystem :=
  { fs with root := Entry.remove (fs.names path) fs.root }

/-- A file system whose only directories are those on the way to the current one. -/
def empty (here : List String) : FileSystem :=
  { root := Entry.insert (.directory []) here (.directory []), here := here }

end FileSystem

end InfraSmells
