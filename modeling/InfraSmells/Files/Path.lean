import InfraSmells.Text.Search

/-!
# Paths

A path is a text of components between slashes. Its clean form (`Path.clean`) has no empty and no
`.` component, and a `..` only at the front of a path that does not start at the root; it is
computed on `Path`, which holds the components. All this is about names: whether a component exists
plays no part.
-/

namespace InfraSmells

/-- A clean path by its components. -/
structure Path where
  /-- Does the path start at the root? -/
  rooted : Bool
  parts : List String
  deriving DecidableEq, Repr

namespace Path

/-- Puts one more component behind `stack`, which holds the components in reverse. -/
def push (rooted : Bool) (stack : List String) (part : String) : List String :=
  if part = "" || part = "." then stack
  else if part = ".." then
    match stack with
    | [] => if rooted then [] else [".."]
    | top :: rest => if top = ".." then ".." :: top :: rest else rest
  else part :: stack

/-- The clean path of a text. -/
def ofText (s : String) : Path :=
  let rooted := Text.startsWith s "/"
  { rooted := rooted, parts := ((Text.split '/' s).foldl (push rooted) []).reverse }

/-- The text of a clean path. -/
def text (p : Path) : String :=
  if p.rooted then "/" ++ Text.join "/" p.parts
  else if p.parts.isEmpty then "."
  else Text.join "/" p.parts

/-- The clean form of a path. -/
def clean (s : String) : String :=
  (ofText s).text

/-- The clean form of a name below a directory. -/
def join (dir name : String) : String :=
  if dir = "" then clean name else clean (dir ++ "/" ++ name)

/-- The last component of a path; `.` stands for an empty path. -/
def base (s : String) : String :=
  if s = "" then "."
  else
    match s.toList.reverse.dropWhile (· == '/') with
    | [] => "/"
    | cs => String.ofList (cs.takeWhile (· != '/')).reverse

/-- The ending of the last component, from its last dot on. -/
def extension (s : String) : String :=
  let name := s.toList.reverse.takeWhile (· != '/')
  if name.contains '.' then String.ofList ('.' :: (name.takeWhile (· != '.')).reverse) else ""

/-- The path of a text, seen from the directory `here`, which is rooted. -/
def absolute (here s : String) : Path :=
  if Text.startsWith s "/" then ofText s else ofText (here ++ "/" ++ s)

/-- Two lists of components without those with which both begin. -/
def apart : List String → List String → List String × List String
  | d :: ds, t :: ts => if d = t then apart ds ts else (d :: ds, t :: ts)
  | ds, ts => (ds, ts)

/-- The path that leads from `dir` to `target`: a step up for every component that only `dir` has,
and then those that only `target` has. There is none if only one of the two starts at the root, or if
a step up would have to undo a `..`. -/
def between? (dir target : Path) : Option Path :=
  if dir.rooted != target.rooted then none
  else
    let (ds, ts) := apart dir.parts target.parts
    if ds.head? = some ".." then none else some ⟨false, ds.map (fun _ => "..") ++ ts⟩

/-- Does a path lead out of the directory it starts from? -/
def leadsOut (s : String) : Bool :=
  s == ".." || Text.startsWith s "../"

/-- The path of `target` as seen from `dir`, or its absolute path when it lies outside `dir`. -/
def relative? (here target dir : String) : Option String := do
  let t := absolute here target
  let r ← between? (absolute here dir) t
  return clean (if leadsOut r.text then t.text else r.text)

/-- The path of `target` as seen from `dir`, or as it is given when no path leads there. -/
def relative (here target dir : String) : String :=
  (relative? here target dir).getD target

end Path

/-- How a report shows paths. -/
inductive PathMode where
  | asGiven | absolute | relative | basename
  deriving DecidableEq, Repr, Inhabited

/-- The mode of a name; every other name leaves paths as they are. -/
def PathMode.ofName : String → PathMode
  | "absolute" => .absolute
  | "relative" => .relative
  | "basename" => .basename
  | _ => .asGiven

/-- A path as a mode shows it, `dir` being the directory that relative paths start from. -/
def PathMode.format (mode : PathMode) (here dir path : String) : String :=
  match mode with
  | .asGiven => path
  | .absolute => (Path.absolute here path).text
  | .relative => Path.relative here path dir
  | .basename => Path.base path

end InfraSmells
