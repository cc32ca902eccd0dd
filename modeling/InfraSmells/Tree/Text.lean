import InfraSmells.Tree.Basic
import InfraSmells.Decimal.Shortest
import InfraSmells.Text.Blank
import InfraSmells.Text.Case

/-!
# Elements as text

`Expr.text` writes an expression without its source text, `Expr.literal` is the form in which rules
compare a value, and `Element.summary` is the snippet by which a finding shows the element it is
about.
-/

namespace InfraSmells

namespace Expr

mutual

/-- The text of an expression. -/
def text : Expr → String
  | .absent => ""
  | .string _ s => s
  | .number _ x => x.text .plain
  | .boolean _ b => if b then "true" else "false"
  | .null _ => "null"
  | .reference _ name => name
  | .array _ items => "[" ++ Text.join ", " (textAll items) ++ "]"
  | .hash _ entries => "\x7b" ++ Text.join ", " (textEntries entries) ++ "\x7d"
  | .call _ name args => name ++ "(" ++ Text.join ", " (textAll args) ++ ")"
  | .methodCall _ receiver method args =>
    receiver.text ++ "." ++ method ++ "(" ++ Text.join ", " (textAll args) ++ ")"
  | .unary _ op operand => op ++ " " ++ operand.text
  | .binary _ op left right => left.text ++ " " ++ op ++ " " ++ right.text
  | .conditional head _ => Text.firstLine head.span.code

/-- The texts of several expressions. -/
def textAll : List Expr → List String
  | [] => []
  | e :: es => e.text :: textAll es

/-- The texts of the entries of a hash. -/
def textEntries : List (Expr × Expr) → List String
  | [] => []
  | (k, v) :: es => (k.text ++ ": " ++ v.text) :: textEntries es

end

end Expr

/-- The text of a value in lower case. -/
def Expr.literal : Expr → String
  | .number s x => (Expr.number s x).text
  | e => Text.lower e.text

/-- The snippet that shows an element. -/
def Element.summary : Element → String
  | .project p => p.name
  | .module m => m.name
  | .block b => b.name
  | .resource r => r.name.text ++ " " ++ r.type
  | .pair p => p.span.code
  | .dependency d => Text.join "," d.names
  | .comment c => c.content
  | .expr (.conditional head _) => Text.firstLine head.span.code
  | .expr e => if e.span.code = "" then e.text else e.span.code

end InfraSmells
