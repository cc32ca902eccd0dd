import InfraSmells.Terraform.Evaluation
import InfraSmells.Tree.Traversal

/-!
# Terraform files as trees

A source becomes a block. Its resources, data sources, variables, modules and outputs are resources
of the tree, its locals are variables, and a nested block or an object is an attribute with
children; providers and settings hold nothing to check. Attributes and nested blocks stand in the
order of the source.
-/

namespace InfraSmells.Terraform

/-- Why a source is not accepted. -/
inductive SyntaxError where
  /-- The source does not follow the grammar. -/
  | malformed
  | labels (type : String) (line : Nat) (two : Bool)
  | unknownBlock (type : String) (line : Nat)
  deriving DecidableEq, Repr, Inhabited

/-- What every message about a source begins with. -/
def SyntaxError.heading : String := "terraform: syntax error"

/-- The message of an error; the grammar has none of its own. -/
def SyntaxError.message? : SyntaxError → Option String
  | .malformed => none
  | .labels type line two =>
    some (heading ++ ": " ++ type ++ " block at line " ++ toString line ++ " needs " ++
      (if two then "two labels" else "one label"))
  | .unknownBlock type line =>
    some (heading ++ ": unknown block " ++ Text.quote type ++ " at line " ++ toString line)

/-- A source with what its parts are shown by. -/
structure Script where
  bytes : List UInt8
  /-- The lines, each with its newline; what follows the last newline is a line too. -/
  lines : List String

namespace Script

/-- The script of a source. -/
def ofText (text : String) : Script where
  bytes := Text.toBytes text
  lines :=
    let lines := (Text.linesOf text.toList).map String.ofList
    if text = "" || Text.endsWith text "\n" then lines ++ [""] else lines

/-- The text of a range. -/
def textOf (s : Script) (r : Range) : String :=
  Text.ofBytes ((s.bytes.drop r.start.offset).take (r.stop.offset - r.start.offset))

/-- The span of a range, shown by a text. -/
def spanOf (r : Range) (code : String) : Span where
  line := r.start.line
  column := r.start.column
  endLine := r.stop.line
  endColumn := r.stop.column
  code := code

/-- The span of an element, shown by all lines it touches, so that its indentation is seen. -/
def lineSpan (s : Script) (r : Range) : Span :=
  let lines := (s.lines.drop (r.start.line - 1)).take (r.stop.line + 1 - r.start.line)
  spanOf r (Text.dropEnd "\n" (String.join lines))

/-- The span of a term, shown by its own text. -/
def termSpan (s : Script) (r : Range) : Span :=
  spanOf r (s.textOf r)

/-- The name of a member of an object: the bare name, the text of a constant, or as it is written. -/
def keyName (s : Script) (key : Term) (inParens : Bool) : String :=
  match keyword? key, inParens with
  | some name, false => name
  | _, _ =>
    (constantText? key).getD (s.textOf key.range)

end Script

/-- The name of an operator in the tree. -/
def UnaryOp.name : UnaryOp → String
  | .minus => "minus"
  | .not => "not"

/-- The name of an operator in the tree. -/
def BinaryOp.name : BinaryOp → String
  | .or => "or"
  | .and => "and"
  | .equal => "equal"
  | .notEqual => "notequal"
  | .greater => "greaterthan"
  | .greaterEqual => "greaterthanorequal"
  | .less => "lessthan"
  | .lessEqual => "lessthanorequal"
  | .sum => "sum"
  | .subtract => "subtract"
  | .multiply => "multiply"
  | .divide => "divide"
  | .modulo => "modulo"

/-- Is the part of a template a literal value? -/
def isLiteral : Term → Bool
  | .null _ | .boolean _ _ | .number _ _ | .text _ _ => true
  | _ => false

/-- Parts of a template as sums, from left to right; no parts are an empty text. -/
def sumOf (span : Span) : List Expr → Expr
  | [] => .string span ""
  | e :: es => es.foldl (fun left right => .binary span "sum" left right) e

/-- The text of a template that has only literal parts. -/
def literalTemplate? (range : Range) (parts : List Term) : Option String :=
  if parts.all isLiteral then constantText? (.template range parts) else none

namespace Script

mutual

/-- The expression of a term. What the tree has no form for is a reference, by its text. -/
def exprOf (s : Script) : Term → Expr
  | .null r => .null (s.termSpan r)
  | .boolean r b => .boolean (s.termSpan r) b
  | .number r d => .number (s.termSpan r) d.toBinary64
  | .text r t => .string (s.termSpan r) t
  | .template r parts =>
    match literalTemplate? r parts with
    | some t => .string (s.termSpan r) t
    | none => sumOf (s.termSpan r) (s.exprsOf parts)
  | .wrapped _ t | .parens _ t => s.exprOf t
  | .bare r _ | .access r _ _ | .index r _ _ | .splat r _ _ | .item r
  | .comprehension r _ _ _ _ _ _ | .repeated r _ _ _ => .reference (s.termSpan r) (s.textOf r)
  | .call r name args => .call (s.termSpan r) name (s.exprsOf args)
  | .unary r op t => .unary (s.termSpan r) op.name (s.exprOf t)
  | .binary r op left right => .binary (s.termSpan r) op.name (s.exprOf left) (s.exprOf right)
  | .conditional r condition yes no =>
    .conditional ⟨s.termSpan r, s.exprOf condition, .ifChain, false, [.expr (s.exprOf yes)]⟩
      [⟨s.termSpan no.range, .absent, .ifChain, true, [.expr (s.exprOf no)]⟩]
  | .tuple r items => .array (s.termSpan r) (s.exprsOf items)
  | .object r items => .hash (s.termSpan r) (s.entriesOf items)

/-- The expressions of terms. -/
def exprsOf (s : Script) : List Term → List Expr
  | [] => []
  | t :: ts => s.exprOf t :: s.exprsOf ts

/-- The entries of an object. -/
def entriesOf (s : Script) : List ObjectItem → List (Expr × Expr)
  | [] => []
  | ⟨key, inParens, value⟩ :: items =>
    (.string (s.termSpan key.range) (s.keyName key inParens), s.exprOf value) :: s.entriesOf items

end

mutual

/-- The pair of a named value. The members of an object are children. -/
def pairOf (s : Script) (kind : PairKind) (name : String) (r : Range) : Term → Pair
  | .object _ items => ⟨s.lineSpan r, kind, name, .absent, false, s.memberPairs kind items⟩
  | t => Pair.ofValue kind name (s.exprOf t) (s.lineSpan r)

/-- The pairs of the members of an object. -/
def memberPairs (s : Script) (kind : PairKind) : List ObjectItem → List Pair
  | [] => []
  | ⟨key, inParens, value⟩ :: items =>
    s.pairOf kind (s.keyName key inParens) (key.range.to value.range) value ::
      s.memberPairs kind items

end

/-- The pairs of attributes, each with the place where it begins. -/
def attributePairs (s : Script) (kind : PairKind) (attributes : List Attribute) :
    List (Nat × Pair) :=
  attributes.map fun a => (a.range.start.offset, s.pairOf kind a.name a.range a.value)

/-- Pairs in the order of the source. -/
def inOrder (pairs : List (Nat × Pair)) : List Pair :=
  (pairs.mergeSort fun a b => a.1 ≤ b.1).map Prod.snd

/-- The name of a nested block; a generated one tells what it generates. -/
def sectionName (type : String) (labels : List (String × Range)) : String :=
  match type, labels with
  | "dynamic", [(label, _)] => "dynamic." ++ label
  | _, _ => type

mutual

/-- The attributes and nested blocks of a body as pairs, in the order of the source. -/
def bodyPairs (s : Script) (kind : PairKind) : Body → List Pair
  | .mk attributes sections =>
    inOrder (s.attributePairs kind attributes ++ s.sectionPairs kind sections)

/-- The pairs of nested blocks, each with the place where it begins. -/
def sectionPairs (s : Script) (kind : PairKind) : List Section → List (Nat × Pair)
  | [] => []
  | .mk type labels typeRange range body :: more =>
    (typeRange.start.offset,
      ⟨s.lineSpan range, kind, sectionName type labels, .absent, false, s.bodyPairs kind body⟩) ::
      s.sectionPairs kind more

end

/-- The resource of a block at the top. -/
def resourceOf (s : Script) (type : String) (name : String × Range) (range : Range) (body : Body) :
    Resource where
  span := s.lineSpan range
  name := .string (s.lineSpan name.2) name.1
  type := type
  attributes := s.bodyPairs .attr body
  statements := []

/-- What a block at the top declares: resources and variables. -/
def declared (s : Script) : Section → Except SyntaxError (List Resource × List Pair)
  | .mk type labels typeRange range body =>
    let line := typeRange.start.line
    match type with
    | "resource" | "data" =>
      match labels with
      | [(kind, _), name] => .ok ([s.resourceOf (type ++ "." ++ kind) name range body], [])
      | _ => .error (.labels type line true)
    | "variable" | "module" | "output" =>
      match labels with
      | [name] => .ok ([s.resourceOf type name range body], [])
      | _ => .error (.labels type line false)
    | "locals" => .ok ([], s.bodyPairs .var body)
    | "provider" | "terraform" => .ok ([], [])
    | _ => .error (.unknownBlock type line)

/-- What several blocks declare; the first fault decides. -/
def declaredAll (s : Script) : List Section → Except SyntaxError (List Resource × List Pair)
  | [] => .ok ([], [])
  | x :: xs => do
    let (resources, vars) ← s.declared x
    let (moreResources, moreVariables) ← s.declaredAll xs
    return (resources ++ moreResources, vars ++ moreVariables)

/-- The comments among tokens. -/
def commentsOf (ts : List Token) : List Comment :=
  (ts.filter (·.kind == .comment)).map fun t =>
    let text := Text.trimEnd (fun c => c == '\r' || c == '\n') t.text
    ⟨spanOf t.range text, text⟩

end Script

/-- The block of a source. -/
def parse (path text : String) (type : BlockType) : Except SyntaxError Block := do
  let ts := tokens text
  let some source := parse? ts | throw .malformed
  let s := Script.ofText text
  let (resources, vars) ← s.declaredAll source.body.sections
  return {
    span := s.lineSpan source.range
    name := path
    type := type
    path := path
    resources := resources
    vars := vars
    attributes := []
    dependencies := []
    statements := []
    comments := Script.commentsOf ts
    blocks := [] }

end InfraSmells.Terraform
