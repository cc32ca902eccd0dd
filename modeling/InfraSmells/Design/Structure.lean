import InfraSmells.Checker.Basic

/-!
# Smells of structure

Checks of how a script is built: too many variables or commands for its size, resources that are long
or chain several commands, and comments between the code.
-/

namespace InfraSmells.Design

mutual

/-- The variables declared in an element, through its statements. -/
def countVariables : Element → Nat
  | .block b => countBlock b
  | .resource r => countResource r
  | .expr e => countExpr e
  | .pair p => if p.kind = .var then 1 else 0
  | .project _ | .module _ | .dependency _ | .comment _ => 0

/-- The variables declared in a block; the blocks it lists are counted on their own. -/
def countBlock : Block → Nat
  | ⟨_, _, _, _, _, vars, _, _, statements, _, _⟩ =>
    vars.length + countStatements statements

/-- The variables declared in the statements of a resource. -/
def countResource : Resource → Nat
  | ⟨_, _, _, _, statements⟩ => countStatements statements

/-- The variables declared in the branches of a conditional. -/
def countExpr : Expr → Nat
  | .conditional head rest => countBranch head + countBranches rest
  | .absent | .string _ _ | .number _ _ | .boolean _ _ | .null _ | .array _ _ | .hash _ _
  | .reference _ _ | .call _ _ _ | .methodCall _ _ _ _ | .unary _ _ _ | .binary _ _ _ _ => 0

/-- The variables declared in a branch. -/
def countBranch : Branch → Nat
  | ⟨_, _, _, _, statements⟩ => countStatements statements

/-- The variables declared in several branches. -/
def countBranches : List Branch → Nat
  | [] => 0
  | b :: bs => countBranch b + countBranches bs

/-- The variables declared in several statements. -/
def countStatements : List Element → Nat
  | [] => 0
  | e :: es => countVariables e + countStatements es

end

/-- Reports a block whose variables are more than three in ten lines of its file. The older measure
counts only its own variables, and reports more than one in two lines. Blocks of variables are meant
to have them. -/
def tooManyVariables (legacy : Bool) (c : Context) (e : Element) (path : String) : List Finding :=
  match e with
  | .block b =>
    let lines := c.lines.length
    let many :=
      if legacy then lines != 0 && lines < 2 * b.vars.length
      else 3 * max lines 1 < 10 * countBlock b
    if b.type != .vars && many then [Finding.of "implementation_too_many_variables" e path] else []
  | _ => []

/-- How many resources there are, and how many of them run commands. -/
structure Tally where
  all : Nat
  execs : Nat
  deriving DecidableEq, Repr

instance : Add Tally := ⟨fun s t => ⟨s.all + t.all, s.execs + t.execs⟩⟩

mutual

/-- The resources of a block and of the blocks nested in it, counted. -/
def tally (config : Config) : Block → Tally
  | ⟨_, _, _, _, resources, _, _, _, _, _, blocks⟩ =>
    ⟨resources.length, resources.countP fun r => config.isExec r.type⟩ + tallyAll config blocks

/-- The resources of several blocks, counted. -/
def tallyAll (config : Config) : List Block → Tally
  | [] => ⟨0, 0⟩
  | b :: bs => tally config b + tallyAll config bs

end

/-- Reports a block in which more than two resources, and more than one in five, run commands. -/
def imperativeAbstraction (config : Config) (_ : Context) (e : Element) (path : String) :
    List Finding :=
  match e with
  | .block b =>
    let counted := tally config b
    if 2 < counted.execs && counted.all < 5 * counted.execs then
      [Finding.of "design_imperative_abstraction" e path]
    else []
  | _ => []

/-- The lines of a text that hold more than white space. -/
def solidLines (s : String) : Nat :=
  ((Text.split '\n' s).filter fun line => Text.trim line != "").length

/-- Reports a resource that runs commands and has more than seven lines of attributes. -/
def longResource (config : Config) (_ : Context) (e : Element) (path : String) : List Finding :=
  match e with
  | .resource r =>
    let lines := r.attributes.foldl (fun n a => n + solidLines a.span.code) 0
    if config.isExec r.type && 7 < lines then [Finding.of "design_long_resource" e path] else []
  | _ => []

/-- Does the text chain several commands? -/
def chainsCommands (s : String) : Bool :=
  Text.contains s "&&" || s.toList.any fun c => c == ';' || c == '|'

/-- Reports a resource that runs a chain of commands. -/
def multifacetedAbstraction (config : Config) (_ : Context) (e : Element) (path : String) :
    List Finding :=
  match e with
  | .resource r =>
    if config.isExec r.type &&
        (r.literalName?.any chainsCommands || r.attributes.any fun a => chainsCommands a.value.text)
    then [Finding.of "design_multifaceted_abstraction" e path]
    else []
  | _ => []

/-- Reports comments that stand at or behind the first line of code. -/
def avoidComments (c : Context) (e : Element) (path : String) : List Finding :=
  match e with
  | .comment m =>
    if 0 < c.firstCodeLine && (c.firstCodeLine : Int) ≤ m.span.line then
      [Finding.of "design_avoid_comments" e path]
    else []
  | _ => []

end InfraSmells.Design
