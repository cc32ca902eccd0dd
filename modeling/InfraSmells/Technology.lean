import InfraSmells.Text.Blank
import InfraSmells.Text.Case
import InfraSmells.Text.Quoted

/-!
# Technologies

The infrastructure technologies whose scripts can be checked, with what is known of their source
text: how a comment line opens and which files hold scripts. `any` stands for scripts of no
particular technology.
-/

namespace InfraSmells

/-- A technology. -/
inductive Technology where
  | any | ansible | chef | puppet | terraform | docker | gha | nomad | swarm
  deriving DecidableEq, Repr, Inhabited

namespace Technology

/-- The name of a technology. -/
def name : Technology → String
  | any => "any"
  | ansible => "ansible"
  | chef => "chef"
  | puppet => "puppet"
  | terraform => "terraform"
  | docker => "docker"
  | gha => "gha"
  | nomad => "nomad"
  | swarm => "swarm"

/-- Every technology a user can name. -/
def all : List Technology :=
  [ansible, chef, puppet, terraform, docker, gha, nomad, swarm]

/-- The technology of a name, whatever its letter case and the blanks around it. -/
def ofName? (s : String) : Option Technology :=
  let key := Text.lower (Text.trim s)
  if key = "github-actions" then some gha else all.find? (·.name == key)

/-- The message for a name that no technology has. -/
def unknownMessage (s : String) : String :=
  "unknown technology " ++ Text.quote s ++ " (expected: " ++ Text.join "|" (all.map name) ++ ")"

/-- The beginnings of a comment line. -/
def commentMarkers : Technology → List String
  | terraform | nomad => ["#", "//"]
  | any => ["//"]
  | _ => ["#"]

/-- Does the line open a comment? Blanks in front of a marker count. -/
def isCommentLine (t : Technology) (line : String) : Bool :=
  t.commentMarkers.any (Text.startsWith line)

/-- The endings of the names of script files. -/
def extensions : Technology → List String
  | ansible | gha | swarm => [".yml", ".yaml"]
  | chef => [".rb"]
  | puppet => [".pp"]
  | terraform => [".tf"]
  | docker => ["Dockerfile", ".dockerfile"]
  | nomad => [".nomad", ".hcl"]
  | any => []

end Technology

end InfraSmells
