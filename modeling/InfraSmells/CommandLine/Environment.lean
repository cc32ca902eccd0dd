import InfraSmells.Files.System
import InfraSmells.Text.Blank
import InfraSmells.Text.Letter
import InfraSmells.Text.Quoted

/-!
# Environment files

An environment file sets variables that the environment leaves open. A line is `NAME=value`, with a
colon in place of the equality sign or `export` in front if one likes. A value may stand between
quotes and then run over several lines; between double quotes `\n` is a newline, and outside single
quotes `$NAME` stands for the value of an earlier line. Lines that begin with `#` are comments.
-/

namespace InfraSmells.CommandLine

/-- Variables and their values. -/
abbrev Variables := List (String × String)

namespace Variables

/-- The value of a variable; one that is not set is empty. -/
def value (vs : Variables) (name : String) : String :=
  ((vs.find? (·.1 == name)).map Prod.snd).getD ""

/-- Can a variable have the value? One ends at a zero character, so none holds it. -/
def canHold (value : String) : Bool :=
  !value.toList.contains '\x00'

/-- Adds the variables that are not set yet, as far as they can be set. -/
def complete (vs defaults : Variables) : Variables :=
  vs ++ defaults.filter fun (d : String × String) => !vs.any (·.1 == d.1) && canHold d.2

end Variables

/-- Why an environment file is not accepted. -/
inductive EnvironmentError where
  | file (e : FileError)
  | badName (character near : String)
  | noName
  | unterminated (text : String)
  deriving DecidableEq, Repr

/-- The message of an error. -/
def EnvironmentError.message : EnvironmentError → String
  | .file e => e.message
  | .badName character near =>
    "unexpected character " ++ Text.quote character ++ " in variable name near " ++ Text.quote near
  | .noName => "zero length string"
  | .unterminated text => "unterminated quoted value " ++ text

namespace EnvironmentFile

/-- A blank that does not end a line. -/
def isSpace (c : Char) : Bool :=
  c == '\t' || c == '\x0b' || c == '\x0c' || c == '\r' || c == ' ' || c == '\x85' || c == '\xa0'

/-- The text without the carriage returns that stand directly before a newline. -/
def joinReturns : List Char → List Char
  | [] => []
  | '\r' :: '\n' :: cs => '\n' :: joinReturns cs
  | c :: cs => c :: joinReturns cs

/-- The text from the next line on that is neither blank nor a comment. `comment` tells whether the
text begins inside a comment. -/
def skipComments (comment : Bool) : List Char → List Char
  | [] => []
  | c :: cs =>
    if comment then skipComments (c != '\n') cs
    else if Text.isBlank c then skipComments false cs
    else if c = '#' then skipComments true cs
    else c :: cs

/-- May the byte stand in a name? Bytes past ASCII are taken for the characters of their numbers. -/
def inName (b : UInt8) : Bool :=
  let c := Char.ofNat b.toNat
  isSpace c || c == '_' || c == '.' || Text.isLetter c || Text.isNumber c

/-- The name in front of the sign that ends it, and what follows the sign. Without a sign there is no
name, and all of the text follows. `name` holds the characters before in reverse, and `all` the whole
text. -/
def readName (all : List Char) (name : List Char) :
    List Char → Except EnvironmentError (List Char × List Char)
  | [] => .ok ([], all)
  | c :: cs =>
    if c = '=' || c = ':' then .ok (name.reverse, cs)
    else
      match (Text.charBytes c).find? fun b => !inName b with
      | none => readName all (c :: name) cs
      | some b =>
        .error (.badName (Char.ofNat b.toNat).toString (String.ofList all))

/-- The text behind the word `export`, if blanks follow it. -/
def dropExport (cs : List Char) : List Char :=
  match Text.afterStart "export".toList cs with
  | some (c :: rest) => if isSpace c then (c :: rest).dropWhile isSpace else cs
  | _ => cs

/-- The name of a variable, and the text from its value on. -/
def nameOf (cs : List Char) : Except EnvironmentError (String × List Char) := do
  let cs := dropExport (cs.dropWhile isSpace)
  let (name, rest) ← readName cs [] cs
  if cs.isEmpty then throw .noName
  return (Text.trimEnd Text.isBlank (String.ofList name), rest.dropWhile isSpace)

/-- May the character stand in a name that refers to a variable? -/
def inReference (c : Char) : Bool :=
  ('A' ≤ c && c ≤ 'Z') || ('0' ≤ c && c ≤ '9') || c == '_'

/-- The characters without a first one, if it is `c`. -/
def dropOne (c : Char) : List Char → List Char
  | d :: cs => if d = c then cs else d :: cs
  | [] => []

/-- What a dollar sign begins: the name of a variable, possibly in brackets, and what follows. -/
def reference (cs : List Char) : List Char × List Char :=
  let inside := dropOne '\x7b' (dropOne '(' cs)
  let name := inside.takeWhile inReference
  (name, dropOne '\x7d' (inside.drop name.length))

/-- The text with the values of the variables it refers to. A backslash in front of a dollar sign
takes its meaning away; a dollar sign without a name stays. `skip` counts the characters that a
reference has taken. -/
def expand (vs : Variables) : Nat → List Char → List Char
  | _, [] => []
  | skip + 1, _ :: cs => expand vs skip cs
  | 0, '\\' :: '$' :: cs =>
    let taken := cs.length - (reference cs).2.length
    '$' :: cs.take taken ++ expand vs (taken + 1) ('$' :: cs)
  | 0, c :: cs =>
    if c = '$' then
      let (name, rest) := reference cs
      let taken := cs.length - rest.length
      let text := if name.isEmpty then '$' :: cs.take taken
        else (vs.value (String.ofList name)).toList
      text ++ expand vs taken cs
    else c :: expand vs 0 cs

/-- The text with newlines and carriage returns for their escapes. -/
def unescapeLines : List Char → List Char
  | '\\' :: c :: cs =>
    if c = 'n' then '\n' :: unescapeLines cs
    else if c = 'r' then '\r' :: unescapeLines cs
    else if c = '\n' then '\\' :: unescapeLines (c :: cs)
    else '\\' :: c :: unescapeLines cs
  | c :: cs => c :: unescapeLines cs
  | [] => []

/-- The text without the backslashes in front of other characters than the dollar sign. -/
def dropBackslashes : List Char → List Char
  | '\\' :: c :: cs =>
    if c = '$' then '\\' :: dropBackslashes (c :: cs) else c :: dropBackslashes cs
  | c :: cs => c :: dropBackslashes cs
  | [] => []

/-- The line without a comment at its end, which begins behind a blank. -/
def dropComment (line : List Char) : List Char :=
  let rec go : List Char → List Char
    | '#' :: c :: cs => if isSpace c then c :: cs else go (c :: cs)
    | _ :: cs => go cs
    | [] => []
  let kept := (go line.reverse).reverse
  if kept.isEmpty then line else kept

/-- A value without quotes, and the text behind it. The value is read as characters: where a byte
belongs to none, the replacement character stands. -/
def plainValue (vs : Variables) (cs : List Char) : String × List Char :=
  let line := cs.takeWhile fun c => c != '\n' && c != '\r'
  let seen := Text.characters (String.ofList line)
  let text := Text.trimEndChars isSpace (Text.trimStartChars isSpace (dropComment seen))
  (String.ofList (expand vs 0 (text.flatMap Text.carry)), cs.drop line.length)

/-- The text up to a quote that no backslash precedes, and the text behind it. `previous` is the
character in front, and `before` holds the characters before in reverse. -/
def upToQuote (quote previous : Char) (before : List Char) : List Char → Option (List Char × List Char)
  | [] => none
  | c :: cs =>
    if c = quote && previous != '\\' then some (before.reverse, cs)
    else upToQuote quote c (c :: before) cs

/-- A value, and the text behind it. -/
def valueOf (vs : Variables) (cs : List Char) :
    Except EnvironmentError (String × List Char) :=
  match cs with
  | q :: rest =>
    if q = '"' || q = '\'' then
      match upToQuote q q [] rest with
      | none => .error (.unterminated (String.ofList (cs.takeWhile (· != '\n'))))
      | some (inside, rest) =>
        let text := Text.trimStartChars (· == q) (Text.trimEndChars (· == q) inside)
        let text := if q = '"' then expand vs 0 (dropBackslashes (unescapeLines text)) else text
        .ok (String.ofList text, rest)
    else .ok (plainValue vs cs)
  | [] => .ok ("", [])

/-- Reads the variables of a text, with those of earlier lines; every line takes part of the text, so
its length is fuel enough. -/
def readLines (vs : Variables) : Nat → List Char → Except EnvironmentError Variables
  | 0, _ => .ok vs
  | fuel + 1, cs =>
    match skipComments false cs with
    | [] => .ok vs
    | start => do
      let (name, rest) ← nameOf start
      let (value, rest) ← valueOf vs rest
      readLines ((name, value) :: vs.filter (·.1 != name)) fuel rest

/-- The variables of an environment file. -/
def parse (text : String) : Except EnvironmentError Variables :=
  readLines [] (text.length + 1) (joinReturns text.toList)

/-- The variables of the environment file at a path. -/
def load (fs : FileSystem) (path : String) : Except EnvironmentError Variables :=
  match fs.read path with
  | .error e => .error (.file e)
  | .ok bytes => parse (Text.ofBytes bytes)

end EnvironmentFile

end InfraSmells.CommandLine
