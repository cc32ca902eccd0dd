import InfraSmells.Checker.Basic
import InfraSmells.Decimal.Integer
import InfraSmells.Policy.Lookup

/-!
# Tables of rules

A rule constrains one attribute of the resources of some types. A required attribute has to exist, a
forbidden one must not; and wherever the attribute stands in one of the blocks that the rule lists,
its value has to satisfy the comparison of the rule. `evaluate` reports what violates a table.
-/

namespace InfraSmells.Policy

/-- Among the values of a rule, this one accepts all that is not empty. -/
def anyNotEmpty : String := "any_not_empty"

/-- The advice to add an attribute. -/
def requiredAdvice (name : String) : String :=
  "check for a required attribute with name '" ++ name ++ "'"

/-- Does the rule apply to a resource? -/
def appliesTo (rule : PolicyRule) (r : Resource) : Bool :=
  rule.types.contains r.type

/-- Does the rule accept every value? -/
def acceptsAll (rule : PolicyRule) : Bool :=
  rule.values.isEmpty || rule.values == [""]

/-- Does the rule look at attributes in a block of this name? -/
def coversBlock (rule : PolicyRule) (parent : String) : Bool :=
  if rule.parents.isEmpty then parent == "" else rule.parents.contains parent

/-- Is an integer within the bound of the rule? A text that is no integer is not. -/
def isWithin (accepts : Int → Int → Bool) (rule : PolicyRule) (value : String) : Bool :=
  match parseInteger value, (rule.values.head?.map parseInteger) with
  | .ok n, some (.ok bound) => accepts n bound
  | _, _ => false

/-- Does the value of an attribute satisfy the comparison of the rule? -/
def satisfies (rule : PolicyRule) (value : String) : Bool :=
  match rule.comparison with
  | .equal => rule.values.contains value
  | .differ => !rule.values.contains value
  | .atLeast => isWithin (fun n bound => bound ≤ n) rule value
  | .atMost => isWithin (fun n bound => n ≤ bound) rule value

/-- Is the value written as a list? -/
def isList : Expr → Bool
  | .array _ _ => true
  | _ => false

/-- Does an attribute of the resource, in a block of this name, violate the rule by its value? -/
def violates (rule : PolicyRule) (r : Resource) (p : Pair) (parent : String) : Bool :=
  p.name == rule.attr && appliesTo rule r && coversBlock rule parent &&
    !p.value.isAbsent && !acceptsAll rule && !isList p.value &&
    (if rule.values.contains anyNotEmpty then Text.trim p.value.literal == ""
      else !p.hasVariable && !satisfies rule p.value.literal)

/-- What a rule reports about the existence of its attribute. -/
def existence (code path : String) (r : Resource) (rule : PolicyRule) : List Finding :=
  if !appliesTo rule r then []
  else
    match rule.requirement, find? r rule.parents rule.attr with
    | .required, none =>
      [(Finding.of code (.resource r) path).suggest (requiredAdvice rule.advice)]
    | .forbidden, some p => [Finding.of code (.pair p) path]
    | _, _ => []

/-- The findings of a table for a resource: first missing and forbidden attributes in the order of
the rules, then violating values in the order of the attributes. -/
def evaluate (code : String) (rules : List PolicyRule) (r : Resource) (path : String) :
    List Finding :=
  rules.flatMap (existence code path r) ++
    ((attributesOf r).filter fun (p, parent) => rules.any (violates · r p parent)).map
      fun (p, _) => Finding.of code (.pair p) path

/-- A checker of one table, and of what else is to be looked at in a resource. -/
def tableChecker (name code : String) (rules : List PolicyRule)
    (extra : Context → Resource → String → Verdict := fun _ _ _ => some []) : Checker where
  name := name
  check c e path :=
    match e with
    | .resource r => do
      let more ← extra c r path
      some (evaluate code rules r path ++ more)
    | _ => some []

end InfraSmells.Policy
