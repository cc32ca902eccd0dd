import InfraSmells.Config.Words
import InfraSmells.Finding.Basic
import InfraSmells.Source.File

/-!
# Checkers

A checker looks at one element of a script and reports the smells it finds there. Besides the element
it sees the `Context` of the traversal: the source file, the variables in scope and the blocks whose
resources may refer to each other. A checker that breaks down gives no verdict.
-/

namespace InfraSmells

/-- What a checker sees besides the element. -/
structure Context where
  config : Config
  /-- The source file of the current block, if it has one. -/
  file : Option SourceFile := none
  /-- Is this the first block of the file? -/
  newFile : Bool := false
  /-- The first line of the file that is no comment, counted from one; zero if there is none. -/
  firstCodeLine : Nat := 0
  /-- The names of the variables in scope, the outermost first. -/
  vars : List String := []
  /-- The blocks whose resources may refer to each other. -/
  scope : List Block := []
  deriving Inhabited

mutual

/-- The resources of a type in a block and the blocks nested in it. -/
def Block.resourcesOf (type : String) : Block → List Resource
  | ⟨_, _, _, _, resources, _, _, _, _, _, blocks⟩ =>
    resources.filter (·.type == type) ++ resourcesOfAll type blocks

/-- The resources of a type in several blocks. -/
def resourcesOfAll (type : String) : List Block → List Resource
  | [] => []
  | b :: bs => b.resourcesOf type ++ resourcesOfAll type bs

end

namespace Context

/-- The lines of the current file, without their newlines. -/
def lines (c : Context) : List String :=
  match c.file with
  | some f => f.lines.map (Text.dropEnd "\n")
  | none => []

/-- A line of the current file by its number; empty if there is none. -/
def line (c : Context) (n : Int) : String :=
  match c.file with
  | some f => f.line n
  | none => ""

/-- The resources of a type in scope, in the order of their declaration. -/
def resources (c : Context) (type : String) : List Resource :=
  resourcesOfAll type c.scope

/-- The first resource in scope of a type and a literal name. -/
def resource? (c : Context) (type name : String) : Option Resource :=
  (c.resources type).find? fun r => r.literalName? == some name

end Context

/-- The findings of a checker, or none if it breaks down. -/
abbrev Verdict := Option (List Finding)

/-- A checker. -/
structure Checker where
  name : String
  check : Context → Element → String → Verdict

/-- A checker that never breaks down. -/
def Checker.ofFindings (name : String) (f : Context → Element → String → List Finding) : Checker where
  name := name
  check c e path := some (f c e path)

/-- The two families of checkers. -/
inductive Family where
  | design | security
  deriving DecidableEq, Repr, Inhabited

/-- The name of a family. -/
def Family.name : Family → String
  | .design => "design"
  | .security => "security"

/-- The family of a name, whatever its letter case and the blanks around it. -/
def Family.ofName? (s : String) : Option Family :=
  match Text.lower (Text.trim s) with
  | "design" => some .design
  | "security" => some .security
  | _ => none

/-- The message for a name that no family has. -/
def Family.unknownMessage (s : String) : String :=
  "unknown smell category " ++ Text.quote s ++ " (expected: design|security)"

/-- A checker as it is registered: where it applies and which smells it may report. -/
structure Registration where
  name : String
  family : Family
  /-- The technology it is for; `any` stands for all. -/
  technology : Technology := .any
  /-- Technologies it is not for. -/
  exceptions : List Technology := []
  /-- The codes of the smells it may report. -/
  codes : List String
  check : Config → Context → Element → String → Verdict

namespace Registration

/-- Does the checker apply to a technology? -/
def appliesTo (r : Registration) (t : Technology) : Bool :=
  (r.technology == .any || r.technology == t) && !r.exceptions.contains t

/-- The checker for a configuration. -/
def checker (r : Registration) (c : Config) : Checker :=
  ⟨r.name, r.check c⟩

end Registration

end InfraSmells
