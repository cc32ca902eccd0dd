import InfraSmells.Terraform.Syntax
import InfraSmells.Text.Blank
import InfraSmells.Text.Compose
import InfraSmells.Text.Letter
import InfraSmells.Text.Quoted

/-!
# Templates

A template is a sequence of parts: literal texts, values, and directives that begin or end a
conditional or a repetition. `flush` removes the common indentation of the lines, `meld` joins
neighbouring literals, and `terms?` nests what stands between matching directives.
-/

namespace InfraSmells.Terraform

/-- A part of a template. -/
inductive Part where
  | literal (range : Range) (text : String)
  | value (range : Range) (term : Term)
  | whether (range : Range) (condition : Term)
  | otherwise (range : Range)
  | endWhether (range : Range)
  | forEach (range : Range) (names : LoopNames) (source : Term)
  | endForEach (range : Range)

/-- The value of hexadecimal digits. -/
def hexValue? (ds : List Char) : Option Nat :=
  ds.foldlM (fun n d => (hexDigit? d).map (16 * n + ·)) 0
where
  /-- The value of one digit. -/
  hexDigit? (d : Char) : Option Nat :=
    if Text.isDigit d then some (d.toNat - '0'.toNat)
    else if 'a' ≤ d && d ≤ 'f' then some (d.toNat - 'a'.toNat + 10)
    else if 'A' ≤ d && d ≤ 'F' then some (d.toNat - 'A'.toNat + 10)
    else none

/-- The character of so many hexadecimal digits, if they name one. -/
def escapedChar? (count : Nat) (cs : List Char) : Option Char := do
  if cs.length < count then none
  let n ← hexValue? (cs.take count)
  if n.isValidChar then some (Char.ofNat n) else none

/-- The text of a literal. A doubled `$` or `%` before a brace stands for a single one; in quotes a
backslash begins an escape. -/
def unescape? (quoted : Bool) : Nat → List Char → Option (List Char)
  | 0, _ => some []
  | fuel + 1, cs =>
    match cs with
    | [] => some []
    | '$' :: '$' :: '\x7b' :: rest => (unescape? quoted fuel rest).map ('$' :: '\x7b' :: ·)
    | '%' :: '%' :: '\x7b' :: rest => (unescape? quoted fuel rest).map ('%' :: '\x7b' :: ·)
    | '\\' :: rest =>
      if !quoted then (unescape? quoted fuel rest).map ('\\' :: ·)
      else
        match rest with
        | 'n' :: rest => (unescape? quoted fuel rest).map ('\n' :: ·)
        | 'r' :: rest => (unescape? quoted fuel rest).map ('\r' :: ·)
        | 't' :: rest => (unescape? quoted fuel rest).map ('\t' :: ·)
        | '"' :: rest => (unescape? quoted fuel rest).map ('"' :: ·)
        | '\\' :: rest => (unescape? quoted fuel rest).map ('\\' :: ·)
        | 'u' :: rest => do
          let c ← escapedChar? 4 rest
          (unescape? quoted fuel (rest.drop 4)).map (Text.carry c ++ ·)
        | 'U' :: rest => do
          let c ← escapedChar? 8 rest
          (unescape? quoted fuel (rest.drop 8)).map (Text.carry c ++ ·)
        | _ => none
    | c :: rest => (unescape? quoted fuel rest).map (c :: ·)

/-- The text of a literal token. -/
def literalText? (quoted : Bool) (text : String) : Option String :=
  (unescape? quoted text.length text.toList).map String.ofList

/-- The white space at the front of a text. -/
def indentation (text : String) : List Char :=
  text.toList.takeWhile Text.isBlank

/-- Does a text end its line? -/
def endsLine (text : String) : Bool :=
  Text.endsWith text "\n"

/-- A line of white space only. -/
def isBlankLine (text : String) : Bool :=
  text.toList.all Text.isBlank && endsLine text

/-- The indentations of the lines that count: all but blank ones, and none where a value begins the
line. `lineStart` at the beginning of a line. -/
def indentations : Bool → List Part → List Nat
  | _, [] => []
  | lineStart, .literal _ text :: parts =>
    let rest := indentations (endsLine text) parts
    if lineStart && !isBlankLine text then (columns (indentation text)).length :: rest
    else rest
  | lineStart, _ :: parts =>
    let rest := indentations false parts
    if lineStart then 0 :: rest else rest

/-- A literal without the first `n` columns, its range moved with them. -/
def dropIndentation (n : Nat) (range : Range) (text : String) : Part :=
  let dropped := ((columns text.toList).take n).flatten
  let start := { range.start with
    column := range.start.column + n
    offset := range.start.offset + (dropped.flatMap Text.charBytes).length }
  .literal ⟨start, range.stop⟩ (String.ofList (text.toList.drop dropped.length))

/-- Removes `n` columns of indentation from every line that is not blank. -/
def outdent (n : Nat) : Bool → List Part → List Part
  | _, [] => []
  | lineStart, .literal range text :: parts =>
    (if lineStart && !isBlankLine text then dropIndentation n range text
      else .literal range text) :: outdent n (endsLine text) parts
  | _, part :: parts => part :: outdent n false parts

/-- The parts without the indentation that their lines have in common. -/
def flush (parts : List Part) : List Part :=
  match (indentations true parts).min? with
  | some n => outdent n true parts
  | none => parts

/-- The parts with neighbouring literals joined. -/
def meld : List Part → List Part
  | [] => []
  | .literal r s :: parts =>
    match meld parts with
    | .literal r' s' :: rest => .literal (r.to r') (s ++ s') :: rest
    | rest => .literal r s :: rest
  | part :: parts => part :: meld parts

/-- A template of terms; an empty one holds an empty literal at the given range. -/
def templateOf (empty : Range) (terms : List Term) : Term :=
  let terms := if terms.isEmpty then [.text empty ""] else terms
  let first := (terms.head?.map Term.range).getD empty
  let last := (terms.getLast?.map Term.range).getD empty
  .template (first.to last) terms

/-- The terms of parts, up to the directive that closes what is open, or the end. -/
def termsFrom? : Nat → List Part → Option (List Term × List Part)
  | 0, _ => none
  | fuel + 1, parts =>
    match parts with
    | [] => some ([], [])
    | .literal r s :: rest => do
      let (terms, rest) ← termsFrom? fuel rest
      some (.text r (Text.compose s) :: terms, rest)
    | .value _ t :: rest => do
      let (terms, rest) ← termsFrom? fuel rest
      some (t :: terms, rest)
    | .whether r condition :: rest => do
      let (yes, rest) ← termsFrom? fuel rest
      let (no, rest) ← match rest with
        | .otherwise _ :: rest => termsFrom? fuel rest
        | rest => some ([], rest)
      match rest with
      | .endWhether stop :: rest =>
        let term := Term.conditional (r.to stop) condition (templateOf r.back yes)
          (templateOf stop.front no)
        let (terms, rest) ← termsFrom? fuel rest
        some (term :: terms, rest)
      | _ => none
    | .forEach r names source :: rest => do
      let (content, rest) ← termsFrom? fuel rest
      match rest with
      | .endForEach stop :: rest =>
        let term := Term.repeated (r.to stop) names source (templateOf r.back content)
        let (terms, rest) ← termsFrom? fuel rest
        some (term :: terms, rest)
      | _ => none
    | .otherwise _ :: _ | .endWhether _ :: _ | .endForEach _ :: _ => some ([], parts)

/-- The terms of parts, if all directives match. -/
def terms? (parts : List Part) : Option (List Term) :=
  match termsFrom? (parts.length + 1) parts with
  | some (terms, []) => some terms
  | _ => none

/-- The term of a template with the given range: a single value stands for itself. -/
def template? (range : Range) (isFlush : Bool) (parts : List Part) : Option Term :=
  match meld (if isFlush then flush parts else parts) with
  | [.value _ t] => some (.wrapped range t)
  | parts => (terms? parts).map (.template range)

end InfraSmells.Terraform
