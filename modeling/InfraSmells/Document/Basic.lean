import InfraSmells.Tree.Traversal
import InfraSmells.Document.Written
import InfraSmells.Datum.Json
import InfraSmells.Datum.Pack

/-!
# Documents

A document carries a tree from a parser to the checkers, as JSON or as MessagePack. `Document.decode`
rebuilds the tree of a document and says why a document is malformed; `Element.toRecord` gives the
record of an element, and `Document.encodeJson?` and `Document.encodePack` write it.

A list that must hold elements may hold a null instead, and a value may be repeated. Reading then stops
without an answer: these are `DocumentError.missingElement` and `DocumentError.repeatedValue`.
-/

namespace InfraSmells

/-- Why a document gives no tree. -/
inductive DocumentError where
  /-- The bytes are no document of the encoding, or a member has the wrong type. -/
  | unreadable
  /-- The kind of an element, or of an expression where one is needed, is not known. -/
  | unknownKind (kind : String)
  /-- An element of this kind stands where it may not. -/
  | unexpectedKind (kind : String)
  /-- A number has a value that is none. -/
  | notNumeric (value : String) (line : Int)
  /-- A list of elements holds a null. -/
  | missingElement
  /-- A value stands twice where it may stand only once. -/
  | repeatedValue
  deriving DecidableEq, Repr

/-- The message of an error, if it has a text of its own. -/
def DocumentError.message? : DocumentError → Option String
  | .unreadable | .missingElement | .repeatedValue => none
  | .unknownKind kind => some ("ir: malformed document: unknown ir_type " ++ Text.quote kind)
  | .unexpectedKind kind =>
    some ("ir: malformed document: unexpected " ++ Text.quote kind ++ " node")
  | .notNumeric value line =>
    some ("ir: malformed document: non-numeric value " ++ value ++ " at line " ++ toString line)

/-- The encoding of a document by the name of its file. -/
def Encoding.ofPath (path : String) : Encoding :=
  let name := Text.lower path
  if Text.endsWith name ".msgpack" || Text.endsWith name ".mp" then .pack else .json

namespace Element

/-- The expression an element is; anything else is no expression. -/
def toExpr : Element → Expr
  | .expr e => e
  | _ => .absent

/-- The block an element is. -/
def block? : Element → Option Block
  | .block b => some b
  | _ => none

/-- The resource an element is. -/
def resource? : Element → Option Resource
  | .resource r => some r
  | _ => none

/-- The pair an element is. -/
def pair? : Element → Option Pair
  | .pair p => some p
  | _ => none

/-- The dependency an element is. -/
def dependency? : Element → Option Dependency
  | .dependency d => some d
  | _ => none

/-- The comment an element is. -/
def comment? : Element → Option Comment
  | .comment c => some c
  | _ => none

/-- The module an element is. -/
def module? : Element → Option Module
  | .module m => some m
  | _ => none

end Element

namespace Record

/-- The text of a value that is one. -/
def valueText (d : Datum) : String :=
  d.text?.getD ""

/-- The number of a value that is one. -/
def valueNumber? : Datum → Option Binary64
  | .number n => n.toBinary64?
  | _ => none

/-- The truth of a value that is Boolean. -/
def valueFlag : Datum → Bool
  | .flag b => b
  | _ => false

/-- The kind of a conditional by its written name. -/
def conditionKind (type : String) : ConditionKind :=
  if Text.equalFold type "switch" then .switch else .ifChain

/-- The kinds of element that are no expression. -/
def elementKinds : List String :=
  ["Project", "Module", "UnitBlock", "AtomicUnit", "Attribute", "Variable", "Dependency", "Comment"]

mutual

/-- The element of a record. Where an expression is needed, `exprOnly`, the kinds of other elements
are not known. -/
def toElement (exprOnly : Bool) : Record → Except DocumentError Element
  | .mk
      kind line column endLine endColumn code name path type value expr nameExpr content
      names hasVariable isDefault items entries args receiver method operand left right
      condition otherwise pairs resources vars attributes dependencies statements
      comments unitBlocks modules blocks => do
    let span : Span := ⟨line, column, endLine, endColumn, code⟩
    if exprOnly && elementKinds.contains kind then throw (.unknownKind kind)
    match kind with
    | "Project" =>
      let modules ← toElements (·.module?.isSome) modules
      let blocks ← toElements (·.block?.isSome) blocks
      return .project ⟨name, modules.filterMap (·.module?), blocks.filterMap (·.block?)⟩
    | "Module" =>
      let blocks ← toElements (·.block?.isSome) blocks
      let modules ← toElements (·.module?.isSome) modules
      return .module ⟨name, path, blocks.filterMap (·.block?), modules.filterMap (·.module?)⟩
    | "UnitBlock" =>
      let resources ← toElements (·.resource?.isSome) resources
      let vars ← toElements (·.pair?.isSome) vars
      let attributes ← toElements (·.pair?.isSome) attributes
      let dependencies ← toElements (·.dependency?.isSome) dependencies
      let statements ← toElements (fun _ => true) statements
      let comments ← toElements (·.comment?.isSome) comments
      let blocks ← toElements (·.block?.isSome) unitBlocks
      return .block
        { span := span
          name := name
          type := .ofName type
          path := path
          statements := statements
          resources := resources.filterMap (·.resource?)
          vars := vars.filterMap (·.pair?)
          attributes := attributes.filterMap (·.pair?)
          dependencies := dependencies.filterMap (·.dependency?)
          comments := comments.filterMap (·.comment?)
          blocks := blocks.filterMap (·.block?) }
    | "AtomicUnit" =>
      let name ← linkExpr nameExpr
      let attributes ← toElements (·.pair?.isSome) attributes
      let statements ← toElements (fun _ => true) statements
      return .resource ⟨span, name, type, attributes.filterMap (·.pair?), statements⟩
    | "Attribute" =>
      let value ← linkExpr expr
      let children ← toElements (·.pair?.isSome) pairs
      return .pair ⟨span, .attr, name, value, hasVariable || value.containsReference,
        children.filterMap (·.pair?)⟩
    | "Variable" =>
      let value ← linkExpr expr
      let children ← toElements (·.pair?.isSome) pairs
      return .pair ⟨span, .var, name, value, hasVariable || value.containsReference,
        children.filterMap (·.pair?)⟩
    | "Dependency" => return .dependency ⟨span, names⟩
    | "Comment" => return .comment ⟨span, content⟩
    | "ConditionalStatement" =>
      let condition ← linkExpr condition
      let statements ← toElements (fun _ => true) statements
      let rest ← elseChain otherwise
      return .expr (.conditional ⟨span, condition, conditionKind type, isDefault, statements⟩ rest)
    | "String" => return .expr (.string span (valueText value))
    | "VariableReference" => return .expr (.reference span (valueText value))
    | "Number" | "Integer" | "Float" =>
      match valueNumber? value with
      | some x => return .expr (.number span x)
      | none => throw (.notNumeric value.message line)
    | "Boolean" => return .expr (.boolean span (valueFlag value))
    | "Null" => return .expr (.null span)
    | "Array" => return .expr (.array span (← toExprs items))
    | "Hash" => return .expr (.hash span (← toEntries entries))
    | "FunctionCall" => return .expr (.call span name (← toExprs args))
    | "MethodCall" =>
      let receiver ← linkExpr receiver
      return .expr (.methodCall span receiver method (← toExprs args))
    | "UnaryOperation" => return .expr (.unary span type (← linkExpr operand))
    | "BinaryOperation" =>
      let left ← linkExpr left
      return .expr (.binary span type left (← linkExpr right))
    | _ => throw (.unknownKind kind)

/-- The expression a member holds. -/
def linkExpr : Option Record → Except DocumentError Expr
  | none => .ok .absent
  | some r => (toElement true r).map (·.toExpr)

/-- The elements of a list, each of which must be acceptable. -/
def toElements (accepts : Element → Bool) :
    List (Option Record) → Except DocumentError (List Element)
  | [] => .ok []
  | none :: _ => .error .missingElement
  | some r :: rs => do
    let e ← toElement false r
    if !accepts e then throw (.unexpectedKind r.kind)
    return e :: (← toElements accepts rs)

/-- The expressions of a list. -/
def toExprs : List (Option Record) → Except DocumentError (List Expr)
  | [] => .ok []
  | r :: rs => do
    let e ← linkExpr r
    return e :: (← toExprs rs)

/-- The entries of a hash. -/
def toEntries : List (Option Record × Option Record) → Except DocumentError (List (Expr × Expr))
  | [] => .ok []
  | (k, v) :: es => do
    let k ← linkExpr k
    let v ← linkExpr v
    return (k, v) :: (← toEntries es)

/-- The branches of an else chain, whatever kind its records name. -/
def elseChain : Option Record → Except DocumentError (List Branch)
  | none => .ok []
  | some (.mk
      _ line column endLine endColumn code _ _ type _ _ _ _ _ _ isDefault _ _ _ _ _ _ _ _
      condition otherwise _ _ _ _ _ statements _ _ _ _) => do
    let condition ← linkExpr condition
    let statements ← toElements (fun _ => true) statements
    let rest ← elseChain otherwise
    return ⟨⟨line, column, endLine, endColumn, code⟩, condition, conditionKind type, isDefault,
      statements⟩ :: rest

end

end Record

/-- The name of a kind of conditional in a document. -/
def ConditionKind.written : ConditionKind → String
  | .ifChain => "IF"
  | .switch => "SWITCH"

/-- The name of a kind of pair in a document. -/
def PairKind.written : PairKind → String
  | .attr => "Attribute"
  | .var => "Variable"

/-- A record of a kind with the members of a span. -/
def Record.at (span : Span) (kind : String) : Record :=
  { kind := kind, line := span.line, column := span.column, endLine := span.endLine
    endColumn := span.endColumn, code := span.code }

/-- The record of a dependency. -/
def Dependency.toRecord (d : Dependency) : Record :=
  { Record.at d.span "Dependency" with names := d.names }

/-- The record of a comment. -/
def Comment.toRecord (c : Comment) : Record :=
  { Record.at c.span "Comment" with content := c.content }

mutual

/-- The record of an expression; an absent one has none. -/
def Expr.toRecord? : Expr → Option Record
  | .absent => none
  | .string s v => some { Record.at s "String" with value := .text v }
  | .number s x => some { Record.at s "Number" with value := .number (.float x) }
  | .boolean s b => some { Record.at s "Boolean" with value := .flag b }
  | .null s => some (Record.at s "Null")
  | .reference s v => some { Record.at s "VariableReference" with value := .text v }
  | .array s items => some { Record.at s "Array" with items := exprRecords items }
  | .hash s entries => some { Record.at s "Hash" with entries := entryRecords entries }
  | .call s name args =>
    some { Record.at s "FunctionCall" with name := name, args := exprRecords args }
  | .methodCall s receiver method args =>
    some { Record.at s "MethodCall" with
      receiver := receiver.toRecord?, method := method, args := exprRecords args }
  | .unary s op operand =>
    some { Record.at s "UnaryOperation" with type := op, operand := operand.toRecord? }
  | .binary s op left right =>
    some { Record.at s "BinaryOperation" with
      type := op, left := left.toRecord?, right := right.toRecord? }
  | .conditional ⟨s, condition, kind, isDefault, statements⟩ rest =>
    some { Record.at s "ConditionalStatement" with
      type := kind.written, isDefault := isDefault, condition := condition.toRecord?
      statements := elementRecords statements, otherwise := chainRecord rest }

/-- The records of several expressions. -/
def exprRecords : List Expr → List (Option Record)
  | [] => []
  | e :: es => e.toRecord? :: exprRecords es

/-- The records of the entries of a hash. -/
def entryRecords : List (Expr × Expr) → List (Option Record × Option Record)
  | [] => []
  | (k, v) :: es => (k.toRecord?, v.toRecord?) :: entryRecords es

/-- The record of an else chain. -/
def chainRecord : List Branch → Option Record
  | [] => none
  | ⟨s, condition, kind, isDefault, statements⟩ :: rest =>
    some { Record.at s "ConditionalStatement" with
      type := kind.written, isDefault := isDefault, condition := condition.toRecord?
      statements := elementRecords statements, otherwise := chainRecord rest }

/-- The record of a pair. -/
def Pair.toRecord : Pair → Record
  | ⟨s, kind, name, value, hasVariable, children⟩ =>
    { Record.at s kind.written with
      name := name, expr := value.toRecord?, hasVariable := hasVariable
      pairs := pairRecords children }

/-- The records of several pairs. -/
def pairRecords : List Pair → List (Option Record)
  | [] => []
  | p :: ps => some p.toRecord :: pairRecords ps

/-- The record of a resource. -/
def Resource.toRecord : Resource → Record
  | ⟨s, name, type, attributes, statements⟩ =>
    { Record.at s "AtomicUnit" with
      type := type, nameExpr := name.toRecord?, attributes := pairRecords attributes
      statements := elementRecords statements }

/-- The records of several resources. -/
def resourceRecords : List Resource → List (Option Record)
  | [] => []
  | r :: rs => some r.toRecord :: resourceRecords rs

/-- The record of a block. -/
def Block.toRecord : Block → Record
  | ⟨s, name, type, path, resources, vars, attributes, dependencies, statements, comments,
      blocks⟩ =>
    { Record.at s "UnitBlock" with
      name := name, type := type.name, path := path, resources := resourceRecords resources
      vars := pairRecords vars, attributes := pairRecords attributes
      dependencies := dependencies.map (some ·.toRecord)
      statements := elementRecords statements
      comments := comments.map (some ·.toRecord)
      unitBlocks := blockRecords blocks }

/-- The records of several blocks. -/
def blockRecords : List Block → List (Option Record)
  | [] => []
  | b :: bs => some b.toRecord :: blockRecords bs

/-- The record of a module. -/
def Module.toRecord : Module → Record
  | ⟨name, path, blocks, modules⟩ =>
    { kind := "Module", name := name, path := path, blocks := blockRecords blocks
      modules := moduleRecords modules }

/-- The records of several modules. -/
def moduleRecords : List Module → List (Option Record)
  | [] => []
  | m :: ms => some m.toRecord :: moduleRecords ms

/-- The record of a project. -/
def Project.toRecord : Project → Record
  | ⟨name, modules, blocks⟩ =>
    { kind := "Project", name := name, modules := moduleRecords modules
      blocks := blockRecords blocks }

/-- The record of an element; an absent expression has none. -/
def Element.toRecord? : Element → Option Record
  | .project p => some p.toRecord
  | .module m => some m.toRecord
  | .block b => some b.toRecord
  | .resource r => some r.toRecord
  | .pair p => some p.toRecord
  | .dependency d => some d.toRecord
  | .comment c => some c.toRecord
  | .expr e => e.toRecord?

/-- The records of several elements. -/
def elementRecords : List Element → List (Option Record)
  | [] => []
  | e :: es => e.toRecord? :: elementRecords es

end

namespace Document

/-- The tree of a record. -/
def ofRecord (r : Record) : Except DocumentError Element :=
  r.toElement false

/-- The datum a byte sequence encodes. -/
def datum? (enc : Encoding) (bytes : List UInt8) : Option Datum :=
  match enc with
  | .json => Datum.ofJson? (Text.ofBytes bytes)
  | .pack => Datum.ofPack? bytes

/-- The tree of a datum. -/
def ofDatum (enc : Encoding) (d : Datum) : Except DocumentError Element :=
  match Record.ofDatum enc d with
  | .ok r => ofRecord r
  | .error .refused => .error .unreadable
  | .error .breakdown => .error .repeatedValue

/-- The tree of a document. -/
def decode (enc : Encoding) (bytes : List UInt8) : Except DocumentError Element :=
  match datum? enc bytes with
  | some d => ofDatum enc d
  | none => .error .unreadable

/-- The JSON text of a tree; a number that is not finite has none. -/
def encodeJson? (e : Element) : Option String :=
  let d := ((e.toRecord?.map (Record.toDatum .json)).getD .null)
  if d.isWritable then some d.toJsonIndented else none

/-- The MessagePack bytes of a tree. -/
def encodePack (e : Element) : List UInt8 :=
  ((e.toRecord?.map (Record.toDatum .pack)).getD .null).toPack

end Document

end InfraSmells
