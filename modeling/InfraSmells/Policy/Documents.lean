import InfraSmells.Checker.Basic
import InfraSmells.Datum.Json
import InfraSmells.Document.Record
import InfraSmells.Policy.Lookup

/-!
# Policy documents

A policy document grants or denies actions. It is written as text, in which rules look for keywords
with a given value (`assigns`), or as structured data, given as JSON or through a call that makes
JSON of a value; `sensitiveAction` reports structured documents that allow too much. Documents are
compared in lower case throughout.
-/

namespace InfraSmells.Policy

/-- White space between the tokens of a document. -/
def isGap (c : Char) : Bool :=
  c == ' ' || c == '\t' || c == '\n' || c == '\r' || c == '\x0c'

/-- Every rest of the characters behind some white space, or none. -/
def afterGap : List Char → List (List Char)
  | [] => [[]]
  | c :: cs => (c :: cs) :: if isGap c then afterGap cs else []

/-- Every rest of the characters behind a character that may be left out. -/
def afterOptional (d : Char) : List Char → List (List Char)
  | [] => [[]]
  | c :: cs => (c :: cs) :: if c = d then [cs] else []

/-- Every rest of the characters behind a colon or an equals sign. -/
def afterAssignment : List Char → List (List Char)
  | [] => []
  | c :: cs => if c = ':' || c = '=' then [cs] else []

/-- The characters and all their ends. -/
def endsOf : List Char → List (List Char)
  | [] => [[]]
  | c :: cs => (c :: cs) :: endsOf cs

/-- Does a document give a keyword a value? Both may be quoted, white space may stand around the
colon or equals sign, and with `opensList` the value may be the first of a list. -/
def assigns (opensList : Bool) (keyword value doc : String) : Bool :=
  let afterOpening (cs : List Char) : List (List Char) :=
    if opensList then (afterOptional '[' cs).flatMap afterGap else [cs]
  let afterKeyword := (endsOf (Text.characters doc)).filterMap
    (Text.afterStart (Text.characters keyword))
  let values := ((((afterKeyword.flatMap (afterOptional '"')).flatMap afterGap).flatMap
    afterAssignment).flatMap afterGap).flatMap afterOpening
  (values.flatMap (afterOptional '"')).any (Text.beginsWith (Text.characters value))

/-- Does a document satisfy a keyword rule? -/
def matchesKeyword (rule : KeywordRule) (doc : String) : Bool :=
  assigns true (Text.lower rule.keyword) (Text.lower rule.value) doc

/-- Does a document allow something? -/
def allows (doc : String) : Bool :=
  assigns false "effect" "allow" doc

/-- The document that an attribute holds, if its name says that it holds one. -/
def documentText? (config : Config) (p : Pair) : Option String :=
  if p.value.isAbsent || !config.isPolicyKeyword p.name then none
  else some (Text.lower p.value.text)

/-- Does the text stand for more than one action? -/
def isWildAction (s : String) : Bool :=
  Text.contains s "*"

/-- Does the text stand for every resource? -/
def isWildResource (s : String) : Bool :=
  s == "*" || Text.contains s ":*"

mutual

/-- A value as data, in lower case. -/
def dataOf : Expr → Datum
  | .string _ s => .text (Text.lower s)
  | .array _ items => .list (dataItems items)
  | .hash _ entries => .table (dataEntries entries)
  | e => .text (Text.lower e.text)

/-- The items of an array as data. -/
def dataItems : List Expr → List Datum
  | [] => []
  | e :: es => dataOf e :: dataItems es

/-- The entries of a hash as members. -/
def dataEntries : List (Expr × Expr) → List (String × Datum)
  | [] => []
  | (k, v) :: es => (Text.lower k.text, dataOf v) :: dataEntries es

end

/-- The document that a value holds, written as JSON or made from another value. -/
def document? : Expr → Option Datum
  | .string _ s => do
    let d ← Datum.ofJson? (Text.lower s)
    if d.isRepresentable then some d else none
  | .call _ "jsonencode" [e] => some (dataOf e)
  | _ => none

/-- The texts of a datum: the text itself or those in a list. -/
def textsOf : Option Datum → List String
  | some (.text s) => [s]
  | some (.list items) => items.filterMap Datum.text?
  | _ => []

/-- Does a statement of a document allow a wild action or a wild resource? -/
def isWildStatement (statement : Datum) : Bool :=
  (statement.get? "effect").bind Datum.text? == some "allow" &&
    ((textsOf (statement.get? "action")).any isWildAction ||
      (textsOf (statement.get? "resource")).any isWildResource)

/-- Does a document have a statement that allows too much? -/
def isWildDocument (doc : Datum) : Bool :=
  match doc.get? "statement" with
  | some (.list statements) => statements.any isWildStatement
  | some (.table ms) => isWildStatement (.table ms)
  | _ => false

/-- The code of statements that allow too much. -/
def sensitiveCode : String := "sec_sensitive_iam_action"

/-- Reports the wild actions and resources of one statement of a document that is written out as
blocks. A statement without effect allows. -/
def statementFindings (path : String) (statement : Pair) : List Finding :=
  let report (name : String) (isWild : String → Bool) : List Finding :=
    ((valued? (statement.child? name)).filter fun p => (literals p.value).any isWild).toList.map
      fun p => Finding.of sensitiveCode (.pair p) path
  if (valued? (statement.child? "effect")).any fun p => p.value.literal != "allow" then []
  else report "actions" isWildAction ++ report "resources" isWildResource

/-- The types of resources that hold a document. -/
def documentHolders : List String := [
  "resource.aws_iam_role_policy", "resource.aws_iam_policy", "resource.aws_iam_user_policy",
  "resource.aws_iam_group_policy"]

/-- Reports documents that allow wild actions or wild resources. -/
def sensitiveAction (_ : Context) (e : Element) (path : String) : List Finding :=
  match e with
  | .resource r =>
    if r.type == "data.aws_iam_policy_document" then
      (findAll r [] "statement").flatMap (statementFindings path)
    else if documentHolders.contains r.type then
      ((valued? (attribute? r "policy")).filter fun p =>
        (document? p.value).any isWildDocument).toList.map
          fun p => Finding.of sensitiveCode (.pair p) path
    else []
  | _ => []

end InfraSmells.Policy
