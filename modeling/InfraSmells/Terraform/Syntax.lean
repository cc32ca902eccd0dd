import InfraSmells.Decimal.Binary
import InfraSmells.Terraform.Token

/-!
# The syntax of Terraform's configuration language

A source is a body: attributes and blocks, which have bodies of their own. The values of attributes
are terms. Every term knows its range.
-/

namespace InfraSmells.Terraform

/-- Operators on one value. -/
inductive UnaryOp where
  | minus | not
  deriving DecidableEq, Repr, Inhabited

/-- Operators on two values. -/
inductive BinaryOp where
  | or | and | equal | notEqual | greater | greaterEqual | less | lessEqual
  | sum | subtract | multiply | divide | modulo
  deriving DecidableEq, Repr, Inhabited

/-- The names that a repetition declares for the key, if it does, and the value of an item. -/
structure LoopNames where
  key : Option String
  value : String
  deriving DecidableEq, Repr, Inhabited

mutual

/-- A term. -/
inductive Term where
  | null (range : Range)
  | boolean (range : Range) (value : Bool)
  | number (range : Range) (value : Binary)
  /-- A literal part of a template. -/
  | text (range : Range) (value : String)
  | template (range : Range) (parts : List Term)
  /-- A template that consists of a single value. -/
  | wrapped (range : Range) (value : Term)
  | parens (range : Range) (inner : Term)
  /-- A bare name. -/
  | bare (range : Range) (name : String)
  | access (range : Range) (source : Term) (name : String)
  | index (range : Range) (source key : Term)
  /-- What is accessed in every item of the source. -/
  | splat (range : Range) (source each : Term)
  /-- The item of the innermost splat. -/
  | item (range : Range)
  | call (range : Range) (name : String) (args : List Term)
  | unary (range : Range) (op : UnaryOp) (operand : Term)
  | binary (range : Range) (op : BinaryOp) (left right : Term)
  | conditional (range : Range) (condition yes no : Term)
  | tuple (range : Range) (items : List Term)
  | object (range : Range) (items : List ObjectItem)
  /-- A tuple, or with keys an object, made from the items of the source that meet the condition.
  `grouped` if values under one key are collected. -/
  | comprehension (range : Range) (names : LoopNames) (source : Term) (key : Option Term)
      (value : Term) (condition : Option Term) (grouped : Bool)
  /-- The texts of a repeated part of a template, joined. -/
  | repeated (range : Range) (names : LoopNames) (source : Term) (content : Term)

/-- An item of an object. A key in parentheses is never taken as a bare name. -/
structure ObjectItem where
  key : Term
  inParens : Bool
  value : Term

end

instance : Inhabited Term := ⟨.null default⟩

/-- The range of a term. -/
def Term.range : Term → Range
  | .null r | .boolean r _ | .number r _ | .text r _ | .template r _ | .wrapped r _ | .parens r _
  | .bare r _ | .access r _ _ | .index r _ _ | .splat r _ _ | .item r | .call r _ _ | .unary r _ _
  | .binary r _ _ _ | .conditional r _ _ _ | .tuple r _ | .object r _
  | .comprehension r _ _ _ _ _ _ | .repeated r _ _ _ => r

/-- An attribute: a name and its value. -/
structure Attribute where
  name : String
  value : Term
  range : Range

mutual

/-- A block: its type, its labels and its body. -/
inductive Section where
  | mk (type : String) (labels : List (String × Range)) (typeRange range : Range) (body : Body)

/-- The attributes and blocks between two braces, or of a whole source. -/
inductive Body where
  | mk (attributes : List Attribute) (sections : List Section)

end

instance : Inhabited Body := ⟨.mk [] []⟩

/-- The attributes of a body. -/
def Body.attributes : Body → List Attribute
  | .mk attributes _ => attributes

/-- The blocks of a body. -/
def Body.sections : Body → List Section
  | .mk _ sections => sections

/-- A whole source: its body and the range it covers. -/
structure Source where
  body : Body
  range : Range

end InfraSmells.Terraform
