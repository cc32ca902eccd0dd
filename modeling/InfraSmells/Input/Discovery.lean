import InfraSmells.Input.Basic

/-!
# Finding inputs

`Input.discover` lists the files that the given roots name: a root that is a file stands for itself,
and a directory for the files below it that the input accepts, hidden directories left out. The list
is sorted and names every file once, so that neither order nor repetition of the roots matters.
-/

namespace InfraSmells.Input

mutual

/-- The files an entry of a directory gives. -/
def entryFiles (accepts : String → Bool) (path : String) (hidden : Bool) : Entry → List String
  | .file _ => if accepts path then [path] else []
  | .directory entries => if hidden then [] else filesBelow accepts path entries

/-- The files below a directory that are accepted, without those in hidden directories. -/
def filesBelow (accepts : String → Bool) (dir : String) : List (String × Entry) → List String
  | [] => []
  | (name, e) :: entries =>
    entryFiles accepts (Path.join dir name) (Text.startsWith name ".") e ++
      filesBelow accepts dir entries

end

/-- The files a root names. -/
def rootFiles (fs : FileSystem) (input : Input) (root : String) : Except FileError (List String) :=
  match fs.entry root with
  | .error cause => .error ⟨"stat", root, cause⟩
  | .ok (.file _) => .ok [Path.clean root]
  | .ok (.directory entries) => .ok (filesBelow input.accepts root entries)

/-- The files the roots name; the first root that does not exist decides. -/
def discover (fs : FileSystem) (input : Input) (roots : List String) :
    Except FileError (List String) := do
  let files ← roots.mapM (rootFiles fs input)
  return Text.sortDistinct files.flatten

end InfraSmells.Input
