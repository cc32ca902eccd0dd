import InfraSmells.Terraform.Token
import InfraSmells.Text.Blank
import InfraSmells.Text.Letter

/-!
# From characters to tokens

A source is read in one of three modes: plain, where names, numbers and marks stand, inside a quoted
template, or inside a template over several lines. A value or directive in a template is read in plain
mode again, until the brace that closes it. The modes form a stack, the current one first.
`lexemes` cuts a source into pieces that together are the source; `tokens` gives them their places.
-/

namespace InfraSmells.Terraform

/-- How the next characters are read. -/
inductive Mode where
  /-- Names, numbers and marks. `depth` counts the braces that are open; with `nested` the brace that
  would close none of them ends a part of a template. -/
  | plain (depth : Nat) (nested : Bool)
  | quoted
  /-- A template over several lines, up to the marker; `lineStart` at the beginning of a line. -/
  | heredoc (marker : List Char) (lineStart : Bool)
  deriving DecidableEq, Repr, Inhabited

/-- Lexemes, the modes behind them and the characters that are left. -/
structure Cut where
  lexemes : List Lexeme
  modes : List Mode
  rest : List Char

/-- Cuts off the first character if it belongs to names: in ASCII by a test, beyond it by a set. -/
def nameChar? (isInAscii : Char → Bool) (beyond : Text.CharSet) :
    List Char → Option (List Char × List Char)
  | [] => none
  | c :: cs =>
    if c.toNat < 0x80 then if isInAscii c then some ([c], cs) else none
    else beyond.cut? (c :: cs)

/-- Cuts off the first character of a name. In ASCII it is a letter or an underscore. -/
def nameStart? : List Char → Option (List Char × List Char) :=
  nameChar? (fun c => Text.isWordChar c && !Text.isDigit c) Text.identifierStarts

/-- Cuts off a further character of a name. In ASCII it may be a digit or a hyphen, too. -/
def namePart? : List Char → Option (List Char × List Char) :=
  nameChar? (fun c => Text.isWordChar c || c == '-') Text.identifierParts

/-- Cuts off the further characters of a name. -/
def nameParts : Nat → List Char → List Char × List Char
  | 0, cs => ([], cs)
  | fuel + 1, cs =>
    match namePart? cs with
    | some (front, rest) =>
      let (more, rest) := nameParts fuel rest
      (front ++ more, rest)
    | none => ([], cs)

/-- Cuts off a name. -/
def name? (cs : List Char) : Option (List Char × List Char) :=
  (nameStart? cs).map fun (front, rest) =>
    let (more, rest) := nameParts (4 * rest.length) rest
    (front ++ more, rest)

/-- The characters that continue a number, and those behind it. A point belongs to the number only if
more of the number follows; an exponent needs a digit. -/
def numberTail : Nat → List Char → List Char
  | 0, _ => []
  | fuel + 1, cs =>
    match cs with
    | '.' :: rest =>
      match numberTail fuel rest with
      | [] => []
      | more => '.' :: more
    | c :: rest =>
      if Text.isDigit c then c :: numberTail fuel rest
      else if c == 'e' || c == 'E' then
        match rest with
        | d :: more =>
          if Text.isDigit d then c :: d :: numberTail fuel more
          else if d == '+' || d == '-' then
            match more with
            | x :: more =>
              if Text.isDigit x then c :: d :: x :: numberTail fuel more else []
            | [] => []
          else []
        | [] => []
      else []
    | [] => []

/-- A comment that ends with its line, the newline included. -/
def lineComment (cs : List Char) : List Char :=
  let line := cs.takeWhile (· != '\n')
  line ++ (cs.drop line.length).take 1

/-- A comment in brackets, if it is closed. -/
def bracketComment? (cs : List Char) : Option (List Char) :=
  (Text.cutAt ['*', '/'] (cs.drop 2)).map fun (body, _) => '/' :: '*' :: body ++ ['*', '/']

/-- The beginning of a text over several lines: two angle brackets, possibly a dash, the marker and a
newline. Gives the characters, whether indentation is removed, the marker and the characters behind. -/
def heredocStart? (cs : List Char) : Option (List Char × Bool × List Char × List Char) := do
  let rest ← Text.afterStart ['<', '<'] cs
  let (flush, dash, rest) := match rest with
    | '-' :: rest => (true, ['-'], rest)
    | rest => (false, [], rest)
  let (marker, rest) ← name? rest
  let opening := '<' :: '<' :: dash ++ marker
  match rest with
  | '\n' :: rest => some (opening ++ ['\n'], flush, marker, rest)
  | '\r' :: '\n' :: rest => some (opening ++ ['\r', '\n'], flush, marker, rest)
  | _ => none

/-- The marks, longer ones before their beginnings. -/
def marks : List (List Char × Mark) := [
  (['.', '.', '.'], .ellipsis), (['=', '='], .equalTo), (['!', '='], .notEqualTo),
  (['>', '='], .atLeast), (['<', '='], .atMost), (['&', '&'], .both), (['|', '|'], .either),
  ([':', ':'], .doubleColon), (['=', '>'], .arrow), (['['], .openBracket),
  ([']'], .closeBracket), (['('], .openParen), ([')'], .closeParen), (['.'], .dot), ([','], .comma),
  (['*'], .star), (['/'], .slash), (['%'], .percent), (['+'], .plus), (['-'], .minus),
  (['='], .equal), (['<'], .less), (['>'], .greater), (['!'], .bang), (['?'], .question),
  ([':'], .colon)]

/-- A cut after the first characters, with the modes unchanged. -/
def Cut.take (kind : Kind) (n : Nat) (modes : List Mode) (cs : List Char) : Cut :=
  ⟨[⟨kind, cs.take n⟩], modes, cs.drop n⟩

/-- The next piece in plain mode. -/
def cutPlain (depth : Nat) (nested : Bool) (below : List Mode) (cs : List Char) : Cut :=
  let here := Mode.plain depth nested :: below
  let closing (kind : Kind) (n : Nat) : Cut :=
    if nested && depth == 0 then Cut.take (.closeSequence (n == 2)) n below cs
    else Cut.take kind n (.plain (depth - 1) nested :: below) cs
  let other : Cut :=
    match marks.find? fun (m, _) => Text.beginsWith m cs with
    | some (m, mark) => Cut.take (.mark mark) m.length here cs
    | none => Cut.take .invalid 1 here cs
  match cs with
  | '\n' :: _ => Cut.take .newline 1 here cs
  | '\r' :: '\n' :: _ => Cut.take .newline 2 here cs
  | '#' :: _ | '/' :: '/' :: _ => Cut.take .comment (lineComment cs).length here cs
  | '/' :: '*' :: _ =>
    match bracketComment? cs with
    | some comment => Cut.take .comment comment.length here cs
    | none => Cut.take .invalid 1 here cs
  | '"' :: _ => Cut.take .openQuote 1 (.quoted :: here) cs
  | '\x7b' :: _ => Cut.take (.mark .openBrace) 1 (.plain (depth + 1) nested :: below) cs
  | '\x7d' :: _ => closing (.mark .closeBrace) 1
  | '~' :: '\x7d' :: _ => closing (.closeSequence true) 2
  | '<' :: '<' :: _ =>
    match heredocStart? cs with
    | some (opening, flush, marker, rest) =>
      ⟨[⟨.openHeredoc flush, opening⟩], .heredoc marker true :: here, rest⟩
    | none => other
  | c :: rest =>
    if c == ' ' || c == '\t' then
      Cut.take .space (cs.takeWhile fun d => d == ' ' || d == '\t').length here cs
    else if Text.isDigit c then
      Cut.take .number (numberTail rest.length rest).length.succ here cs
    else
      match name? cs with
      | some (name, rest) => ⟨[⟨.name, name⟩], here, rest⟩
      | none => other
  | [] => ⟨[], here, []⟩

/-- The beginning of a value or directive in a template. -/
def sequenceStart? : List Char → Option (Kind × Nat)
  | '$' :: '\x7b' :: '~' :: _ => some (.openValue true, 3)
  | '$' :: '\x7b' :: _ => some (.openValue false, 2)
  | '%' :: '\x7b' :: '~' :: _ => some (.openDirective true, 3)
  | '%' :: '\x7b' :: _ => some (.openDirective false, 2)
  | _ => none

/-- The length of a `$` or `%` that begins neither a value nor a directive. Before the beginning of one
it makes that literal. -/
def markLiteral : List Char → Nat
  | '$' :: '$' :: '\x7b' :: '~' :: _ | '%' :: '%' :: '\x7b' :: '~' :: _ => 4
  | '$' :: '$' :: '\x7b' :: _ | '%' :: '%' :: '\x7b' :: _ => 3
  | '$' :: _ | '%' :: _ => 1
  | _ => 0

/-- The number of characters that carry the first character, met byte by byte; zero if there is none. -/
def charLength (cs : List Char) : Nat :=
  match cs with
  | [] => 0
  | c :: _ =>
    if Text.isStray c then (Text.looseLength? ((cs.take 4).flatMap Text.charBytes)).getD 0 else 1

/-- The number of plain characters at the front of a quoted template. What follows a backslash on its
line is one of them. -/
def quotedRun : Nat → List Char → Nat
  | 0, _ => 0
  | fuel + 1, cs =>
    match cs with
    | '$' :: _ | '%' :: _ | '"' :: _ | '\n' :: _ | '\r' :: _ => 0
    | '\\' :: '\n' :: _ | '\\' :: '\r' :: _ => 0
    | '\\' :: rest =>
      match charLength rest with
      | 0 => 0
      | n => n + 1 + quotedRun fuel (rest.drop n)
    | cs =>
      match charLength cs with
      | 0 => 0
      | n => n + quotedRun fuel (cs.drop n)

/-- The length of the literal at the front of a quoted template. -/
def quotedLiteral (cs : List Char) : Nat :=
  match markLiteral cs with
  | 0 => quotedRun cs.length cs
  | n => n

/-- The number of plain characters at the front of a line of a template. -/
def lineRun : Nat → List Char → Nat
  | 0, _ => 0
  | fuel + 1, cs =>
    match cs with
    | '$' :: _ | '%' :: _ | '\n' :: _ | '\r' :: _ => 0
    | cs =>
      match charLength cs with
      | 0 => 0
      | n => n + lineRun fuel (cs.drop n)

/-- The length of the literal at the front of a template over several lines, with the newline that
ends it. -/
def lineLiteral (cs : List Char) : Nat :=
  let n := match markLiteral cs with
    | 0 => lineRun cs.length cs
    | n => n
  match cs.drop n with
  | '\n' :: _ => n + 1
  | '\r' :: '\n' :: _ => n + 2
  | _ => n

/-- The next piece of a quoted template. -/
def cutQuoted (below : List Mode) (cs : List Char) : Cut :=
  let here := Mode.quoted :: below
  match sequenceStart? cs with
  | some (kind, n) => Cut.take kind n (.plain 0 true :: here) cs
  | none =>
    if cs.head? = some '"' then Cut.take .closeQuote 1 below cs
    else
      match quotedLiteral cs with
      | 0 => Cut.take .invalid 1 here cs
      | n => Cut.take (.literal true) n here cs

/-- The next piece of a template over several lines. A line that holds only the marker ends it, and
its newline is a token of its own. -/
def cutHeredoc (marker : List Char) (lineStart : Bool) (below : List Mode) (cs : List Char) : Cut :=
  match sequenceStart? cs with
  | some (kind, n) => Cut.take kind n (.plain 0 true :: .heredoc marker false :: below) cs
  | none =>
    let line := cs.take (lineLiteral cs)
    let isWhole := line.getLast? == some '\n'
    if line.isEmpty then Cut.take .invalid 1 (.heredoc marker lineStart :: below) cs
    else if lineStart && isWhole && Text.trim (String.ofList line) == String.ofList marker then
      let content := line.takeWhile fun c => c != '\n' && c != '\r'
      ⟨[⟨.closeHeredoc, content⟩, ⟨.newline, line.drop content.length⟩], below,
        cs.drop line.length⟩
    else Cut.take (.literal false) line.length (.heredoc marker isWhole :: below) cs

/-- The next piece, by the current mode. -/
def cut (modes : List Mode) (cs : List Char) : Cut :=
  match modes with
  | .plain depth nested :: below => cutPlain depth nested below cs
  | .quoted :: below => cutQuoted below cs
  | .heredoc marker lineStart :: below => cutHeredoc marker lineStart below cs
  | [] => cutPlain 0 false [] cs

/-- The lexemes of characters. Every cut takes at least one byte. -/
def lexemesFrom : Nat → List Mode → List Char → List Lexeme
  | 0, _, _ => []
  | fuel + 1, modes, cs =>
    if cs.isEmpty then []
    else
      let c := cut modes cs
      c.lexemes ++ lexemesFrom fuel c.modes c.rest

/-- The lexemes of a source. -/
def lexemes (cs : List Char) : List Lexeme :=
  lexemesFrom (4 * cs.length) [.plain 0 false] cs

/-- The tokens of a source. A byte order mark at its beginning takes bytes, but no column. -/
def tokens (source : String) : List Token :=
  match source.toList with
  | '\ufeff' :: cs => place ⟨1, 1, 3⟩ (lexemes cs)
  | cs => place ⟨1, 1, 0⟩ (lexemes cs)

end InfraSmells.Terraform
