import InfraSmells.Config.Basic
import InfraSmells.Datum.Json
import InfraSmells.Decimal.Integer

/-!
# Lists of a configuration

A list of words, rules, keywords or flags is written as a list or as a string that holds the JSON
text of one. A list of tables is written as JSON first, so that both spellings go through the same
reading of members; a member whose name differs in letter case only is taken for the one it
resembles.
-/

namespace InfraSmells

/-- Why a value is no list of the kind that is needed. -/
inductive ListError where
  /-- A JSON text, or a value as JSON, does not have the form that is needed. -/
  | notJson
  | notTexts (typeName : String)
  | notText (index : Nat) (typeName : String)
  | ruleRequirement (index : Nat) (value : String)
  | ruleComparison (index : Nat) (value : String)
  | boundMissing (index : Nat) (comparison : Comparison)
  | boundMalformed (index : Nat) (comparison : Comparison) (e : IntegerError)
  | flagRequirement (index : Nat) (value : String)
  deriving DecidableEq, Repr

/-- The message of an error; faults of JSON have no text of their own. -/
def ListError.message? : ListError → Option String
  | .notJson => none
  | .notTexts type => some ("expected list of strings, got " ++ type)
  | .notText i type => some ("item " ++ toString i ++ ": expected string, got " ++ type)
  | .ruleRequirement i value =>
    some ("rule " ++ toString i ++ ": unknown required value " ++ Text.quote value)
  | .ruleComparison i value => some ("rule " ++ toString i ++ ": unknown logic " ++ Text.quote value)
  | .boundMissing i c => some ("rule " ++ toString i ++ ": " ++ c.name ++ " needs a bound in values")
  | .boundMalformed i c e =>
    some ("rule " ++ toString i ++ ": " ++ c.name ++ " bound: " ++ e.message)
  | .flagRequirement i value =>
    some ("flag " ++ toString i ++ ": unknown required value " ++ Text.quote value)

namespace Lists

/-- A text, or null, which leaves the old one. -/
def text? (old : String) : Datum → Option String
  | .text s => some s
  | .null => some old
  | _ => none

/-- The texts of items, a null leaving the old text of its place. -/
def textItems? : List String → List Datum → Option (List String)
  | _, [] => some []
  | old, d :: ds => do
    let s ← text? (old.head?.getD "") d
    return s :: (← textItems? old.tail ds)

/-- A list of texts; null stands for an empty one. -/
def texts? (old : List String) : Datum → Option (List String)
  | .null => some []
  | .list ds => textItems? old ds
  | _ => none

/-- The name of a member that `key` stands for. -/
def memberName? (names : List String) (key : String) : Option String :=
  if names.contains key then some key else names.find? (Text.equalFold key)

/-- Reads a list of tables, each through its members; null stands for an empty list and an empty
table. -/
def tables? {α : Type} (empty : α) (read : α → String × Datum → Option α) : Datum → Option (List α)
  | .null => some []
  | .list ds => ds.mapM fun d =>
    match d with
    | .null => some empty
    | .table ms => ms.foldlM read empty
    | _ => none
  | _ => none

/-- The JSON text that a value holds, or the one it is written as. -/
def jsonText? : Datum → Option String
  | .text s => some s
  | d => if d.isWritable then some d.normalize.toJson else none

/-- The tables of a JSON text. -/
def structured {α : Type} (empty : α) (read : α → String × Datum → Option α) (d : Datum) :
    Except ListError (List α) :=
  match ((jsonText? d).bind Datum.ofJson?).bind (tables? empty read) with
  | some xs => .ok xs
  | none => .error .notJson

/-- The members of a rule as they are written. -/
structure RuleText where
  rule : PolicyRule := {}
  required : String := ""
  logic : String := ""

/-- The names of the members of a rule. -/
def ruleNames : List String :=
  ["au_type", "attribute", "parents", "values", "required", "msg", "logic"]

/-- Reads a member of a rule. -/
def RuleText.read (r : RuleText) (m : String × Datum) : Option RuleText :=
  match memberName? ruleNames m.1 with
  | some "au_type" => (texts? r.rule.types m.2).map fun x => { r with rule.types := x }
  | some "attribute" => (text? r.rule.attr m.2).map fun x => { r with rule.attr := x }
  | some "parents" => (texts? r.rule.parents m.2).map fun x => { r with rule.parents := x }
  | some "values" => (texts? r.rule.values m.2).map fun x => { r with rule.values := x }
  | some "required" => (text? r.required m.2).map fun x => { r with required := x }
  | some "msg" => (text? r.rule.advice m.2).map fun x => { r with rule.advice := x }
  | some "logic" => (text? r.logic m.2).map fun x => { r with logic := x }
  | _ => some r

/-- The requirement of a name. -/
def requirement? : String → Option Requirement
  | "" => some .optional
  | "yes" => some .required
  | "no" => some .optional
  | "must_not_exist" => some .forbidden
  | _ => none

/-- The comparison of a name. -/
def comparison? : String → Option Comparison
  | "" => some .equal
  | "equal" => some .equal
  | "diff" => some .differ
  | "gte" => some .atLeast
  | "lte" => some .atMost
  | _ => none

/-- Checks the bound of a comparison that needs one. -/
def checkBound (i : Nat) (c : Comparison) (values : List String) : Except ListError Unit :=
  match c with
  | .equal | .differ => .ok ()
  | .atLeast | .atMost =>
    match values with
    | [] => .error (.boundMissing i c)
    | v :: _ =>
      match parseInteger v with
      | .ok _ => .ok ()
      | .error e => .error (.boundMalformed i c e)

/-- The rule of its written members. -/
def RuleText.rule? (i : Nat) (r : RuleText) : Except ListError PolicyRule := do
  let some requirement := requirement? r.required | throw (.ruleRequirement i r.required)
  let some comparison := comparison? r.logic | throw (.ruleComparison i r.logic)
  checkBound i comparison r.rule.values
  return { r.rule with requirement := requirement, comparison := comparison }

/-- Applies `f` to every element with its index. -/
def mapIndexed {α β ε : Type} (f : Nat → α → Except ε β) (i : Nat) : List α → Except ε (List β)
  | [] => .ok []
  | x :: xs => do
    let y ← f i x
    return y :: (← mapIndexed f (i + 1) xs)

/-- The texts of a list. -/
def textAt (i : Nat) : Datum → Except ListError String
  | .text s => .ok s
  | d => .error (.notText i d.typeName)

/-- A list of words. -/
def readTexts : Datum → Except ListError (List String)
  | .text s =>
    match (Datum.ofJson? s).bind (texts? []) with
    | some xs => .ok xs
    | none => .error .notJson
  | .list ds => mapIndexed textAt 0 ds
  | d => .error (.notTexts d.typeName)

/-- A list of rules. -/
def readRules (d : Datum) : Except ListError (List PolicyRule) := do
  mapIndexed RuleText.rule? 0 (← structured {} RuleText.read d)

/-- The names of the members of a keyword rule. -/
def keywordNames : List String :=
  ["au_type", "keyword", "value"]

/-- Reads a member of a keyword rule. -/
def readKeyword (r : KeywordRule) (m : String × Datum) : Option KeywordRule :=
  match memberName? keywordNames m.1 with
  | some "au_type" => (texts? r.types m.2).map fun x => { r with types := x }
  | some "keyword" => (text? r.keyword m.2).map fun x => { r with keyword := x }
  | some "value" => (text? r.value m.2).map fun x => { r with value := x }
  | _ => some r

/-- A list of keyword rules. -/
def readKeywords (d : Datum) : Except ListError (List KeywordRule) :=
  structured {} readKeyword d

/-- The names of the members of a flag. -/
def flagNames : List String :=
  ["flag_name", "value", "required"]

/-- Reads a member of a flag, whose requirement is kept as it is written. -/
def readFlag (r : DatabaseFlag × String) (m : String × Datum) : Option (DatabaseFlag × String) :=
  match memberName? flagNames m.1 with
  | some "flag_name" => (text? r.1.name m.2).map fun x => ({ r.1 with name := x }, r.2)
  | some "value" => (text? r.1.value m.2).map fun x => ({ r.1 with value := x }, r.2)
  | some "required" => (text? r.2 m.2).map fun x => (r.1, x)
  | _ => some r

/-- The flag of its written members. -/
def flag? (i : Nat) (r : DatabaseFlag × String) : Except ListError DatabaseFlag :=
  match r.2 with
  | "" | "yes" => .ok { r.1 with required := true }
  | "no" => .ok { r.1 with required := false }
  | other => .error (.flagRequirement i other)

/-- A list of flags. -/
def readFlags (d : Datum) : Except ListError (List DatabaseFlag) := do
  mapIndexed flag? 0 (← structured ({}, "") readFlag d)

/-- Sets a list to what is read from a value, once all of it has been read. -/
def assign {α : Type} (read : Datum → Except ListError (List α)) (d : Datum) :
    ExceptT ListError (StateM (List α)) Unit := do
  let xs ← ExceptT.mk (pure (read d))
  set xs

end Lists

end InfraSmells
