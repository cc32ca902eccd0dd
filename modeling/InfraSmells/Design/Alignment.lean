import InfraSmells.Checker.Basic

/-!
# Smells of layout

Checks of how attributes are laid out: their indentation, the column of the arrows between names and
values, and the order that a technology expects.
-/

namespace InfraSmells.Design

/-- A blank or a tab. -/
def isIndent (c : Char) : Bool :=
  c == ' ' || c == '\t'

/-- The indentation of the first line of a text. -/
def indentation (code : String) : Nat :=
  ((Text.before "\n" code).toList.takeWhile isIndent).length

/-- Reports a resource whose attributes are not indented alike. -/
def indentAlignment (_ : Context) (e : Element) (path : String) : List Finding :=
  match e with
  | .resource r =>
    match r.attributes with
    | [] => []
    | first :: rest =>
      if rest.all fun a => indentation a.span.code == indentation first.span.code then []
      else [Finding.of "implementation_improper_alignment" e path]
  | _ => []

/-- The text of a line before its arrow. -/
def beforeArrow (c : Context) (a : Pair) : String :=
  Text.before "=>" (c.line a.span.line)

/-- The attribute of the longest name among those written with an arrow, the first of equals. -/
def longestArrow (best : Option Pair) : List Pair → Option Pair
  | [] => best
  | a :: rest =>
    let limit := best.elim 0 fun b => Text.byteLength b.name
    if limit < Text.byteLength a.name && Text.contains a.span.code "=>" then
      longestArrow (some a) rest
    else longestArrow best rest

/-- Are the arrows of the attributes in one column, one blank behind the longest name? -/
def arrowsAligned (c : Context) (attributes : List Pair) : Bool :=
  match longestArrow none attributes with
  | none => true
  | some a =>
    let head := beforeArrow c a
    head == "" ||
      (Text.byteLength head == Text.byteLength (Text.trimEnd isIndent head) + 1 &&
        attributes.all fun b => Text.byteLength (beforeArrow c b) == Text.byteLength head)

/-- Reports a resource or block whose arrows are not aligned. -/
def arrowAlignment (c : Context) (e : Element) (path : String) : List Finding :=
  let attributes := match e with
    | .resource r => r.attributes
    | .block b => b.attributes
    | _ => []
  if c.file.isNone || arrowsAligned c attributes then []
  else [Finding.of "implementation_improper_alignment" e path]

/-- The place of an attribute in the order of a recipe. -/
def recipePlace? : String → Option Nat
  | "source" => some 1
  | "owner" | "group" => some 2
  | "mode" => some 3
  | "action" => some 4
  | _ => none

/-- Are the numbers in order? -/
def isAscending : List Nat → Bool
  | a :: b :: rest => a ≤ b && isAscending (b :: rest)
  | _ => true

/-- Reports a resource of a recipe whose attributes are out of order: source, then owner and group,
then mode, then action. -/
def recipeOrder (_ : Context) (e : Element) (path : String) : List Finding :=
  match e with
  | .resource r =>
    if isAscending (r.attributes.filterMap fun a => recipePlace? a.name) then []
    else [Finding.of "design_misplaced_attribute" e path]
  | _ => []

/-- Does a pair without a value follow one with a value? -/
def requiredAfterOptional (optional : Bool) : List Pair → Bool
  | [] => false
  | a :: rest =>
    if a.value.isAbsent then optional || requiredAfterOptional optional rest
    else requiredAfterOptional true rest

/-- Reports a resource of a manifest in which `ensure` is not first, and a class in which a required
parameter follows an optional one. -/
def manifestOrder (_ : Context) (e : Element) (path : String) : List Finding :=
  let misplaced := match e with
    | .resource r => (r.attributes.drop 1).any (·.name == "ensure")
    | .block b => requiredAfterOptional false b.attributes
    | _ => false
  if misplaced then [Finding.of "design_misplaced_attribute" e path] else []

end InfraSmells.Design
