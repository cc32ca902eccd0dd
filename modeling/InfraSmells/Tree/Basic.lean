import InfraSmells.Decimal.Binary64

/-!
# Scripts as trees

An infrastructure script, whatever its technology, is a tree of elements. A `Project` holds
modules and blocks, a `Module` holds blocks and modules, and a `Block` (a script file or a part of
one) holds all that is declared in it: resources, variables, attributes, dependencies, statements,
comments and nested blocks. A `Resource` is one declared resource, task or step; a `Pair` is an
attribute or a variable, with a value or with children; an `Expr` is a value.

A place where an expression may stand but none is written holds `Expr.absent`. The branches of a
conditional form a non-empty list: the head and the branches of its else chain.
-/

namespace InfraSmells

/-- Where an element stands in its source, and the text it was read from. Lines and columns count
from one. -/
structure Span where
  line : Int
  column : Int
  endLine : Int
  endColumn : Int
  code : String
  deriving DecidableEq, Repr, Inhabited

/-- The span of an element that stands at no place of a source. -/
def Span.nowhere : Span :=
  ⟨-1, -1, -1, -1, ""⟩

/-- What a block stands for. -/
inductive BlockType where
  | script | tasks | vars | block | function | definition | unknown
  deriving DecidableEq, Repr, Inhabited

/-- The name of a block type. -/
def BlockType.name : BlockType → String
  | .script => "script"
  | .tasks => "tasks"
  | .vars => "vars"
  | .block => "block"
  | .function => "function"
  | .definition => "definition"
  | .unknown => "unknown"

/-- The block type of a name; every other name is unknown. -/
def BlockType.ofName (s : String) : BlockType :=
  ([.script, .tasks, .vars, .block, .function, .definition].find? (·.name == s)).getD .unknown

/-- Attributes are set on something, variables are declared. -/
inductive PairKind where
  | attr | var
  deriving DecidableEq, Repr, Inhabited

/-- A conditional is an if chain or a switch. -/
inductive ConditionKind where
  | ifChain | switch
  deriving DecidableEq, Repr, Inhabited

/-- A reference to other units, such as an import. -/
structure Dependency where
  span : Span
  names : List String
  deriving DecidableEq, Repr, Inhabited

/-- The text of a comment. -/
structure Comment where
  span : Span
  content : String
  deriving DecidableEq, Repr, Inhabited

mutual

/-- A value. -/
inductive Expr where
  /-- No expression is written here. -/
  | absent
  | string (span : Span) (value : String)
  | number (span : Span) (value : Binary64)
  | boolean (span : Span) (value : Bool)
  | null (span : Span)
  | array (span : Span) (items : List Expr)
  | hash (span : Span) (entries : List (Expr × Expr))
  /-- A reference to a variable, by its text. -/
  | reference (span : Span) (name : String)
  | call (span : Span) (name : String) (args : List Expr)
  | methodCall (span : Span) (receiver : Expr) (method : String) (args : List Expr)
  | unary (span : Span) (op : String) (operand : Expr)
  | binary (span : Span) (op : String) (left right : Expr)
  /-- A conditional: its head and the branches of the else chain. -/
  | conditional (head : Branch) (rest : List Branch)

/-- One branch of a conditional. -/
structure Branch where
  span : Span
  condition : Expr
  kind : ConditionKind
  isDefault : Bool
  statements : List Element

/-- An attribute or a variable. A pair without a value may have children instead. -/
structure Pair where
  span : Span
  kind : PairKind
  name : String
  value : Expr
  /-- Is the value known only when the script runs? -/
  hasVariable : Bool
  children : List Pair

/-- One declared resource, task or step. -/
structure Resource where
  span : Span
  name : Expr
  type : String
  attributes : List Pair
  statements : List Element

/-- A script file or a part of one. -/
structure Block where
  span : Span
  name : String
  type : BlockType
  path : String
  resources : List Resource
  vars : List Pair
  attributes : List Pair
  dependencies : List Dependency
  statements : List Element
  comments : List Comment
  blocks : List Block

/-- One reusable unit, such as a role, a cookbook or a directory of files. -/
structure Module where
  name : String
  path : String
  blocks : List Block
  modules : List Module

/-- A code base of several modules. -/
structure Project where
  name : String
  modules : List Module
  blocks : List Block

/-- Any element of a tree. -/
inductive Element where
  | project (p : Project)
  | module (m : Module)
  | block (b : Block)
  | resource (r : Resource)
  | pair (p : Pair)
  | dependency (d : Dependency)
  | comment (c : Comment)
  | expr (e : Expr)

end

instance : Inhabited Expr := ⟨.absent⟩

instance : Inhabited Element := ⟨.expr .absent⟩

/-- The span of an expression. -/
def Expr.span : Expr → Span
  | .absent => .nowhere
  | .string s _ | .number s _ | .boolean s _ | .null s | .array s _ | .hash s _ | .reference s _
  | .call s _ _ | .methodCall s _ _ _ | .unary s _ _ | .binary s _ _ _ => s
  | .conditional head _ => head.span

/-- Is no expression written? -/
def Expr.isAbsent : Expr → Bool
  | .absent => true
  | _ => false

/-- The text of a string literal. -/
def Expr.string? : Expr → Option String
  | .string _ s => some s
  | _ => none

/-- The value of the first entry whose key is the string literal `k`. -/
def Expr.lookup (k : String) : List (Expr × Expr) → Option Expr
  | [] => none
  | (key, value) :: entries => if key.string? = some k then some value else lookup k entries

/-- The span of an element; projects and modules have none. -/
def Element.span : Element → Span
  | .project _ | .module _ => .nowhere
  | .block b => b.span
  | .resource r => r.span
  | .pair p => p.span
  | .dependency d => d.span
  | .comment c => c.span
  | .expr e => e.span

/-- The name of a resource when it is a string literal. -/
def Resource.literalName? (r : Resource) : Option String :=
  r.name.string?

/-- The first child of a given name. -/
def Pair.child? (p : Pair) (name : String) : Option Pair :=
  p.children.find? (·.name == name)

/-- Is some branch of a conditional the default one? -/
def hasDefault (head : Branch) (rest : List Branch) : Bool :=
  (head :: rest).any (·.isDefault)

/-- The name a message gives to the type of an element. -/
def Element.typeName : Element → String
  | .project _ => "*ir.Project"
  | .module _ => "*ir.Module"
  | .block _ => "*ir.UnitBlock"
  | .resource _ => "*ir.AtomicUnit"
  | .pair _ => "*ir.KeyValue"
  | .dependency _ => "*ir.Dependency"
  | .comment _ => "*ir.Comment"
  | .expr e =>
    match e with
    | .absent => "<nil>"
    | .string _ _ => "*ir.String"
    | .number _ _ => "*ir.Number"
    | .boolean _ _ => "*ir.Boolean"
    | .null _ => "*ir.Null"
    | .array _ _ => "*ir.Array"
    | .hash _ _ => "*ir.Hash"
    | .reference _ _ => "*ir.VariableReference"
    | .call _ _ _ => "*ir.FunctionCall"
    | .methodCall _ _ _ _ => "*ir.MethodCall"
    | .unary _ _ _ => "*ir.UnaryOperation"
    | .binary _ _ _ _ => "*ir.BinaryOperation"
    | .conditional _ _ => "*ir.ConditionalStatement"

end InfraSmells
