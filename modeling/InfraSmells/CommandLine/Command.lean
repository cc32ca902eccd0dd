import InfraSmells.CommandLine.Flag
import InfraSmells.Text.Case

/-!
# Commands

A command has a name, flags and possibly commands below it. `Command.find` follows the words among
the arguments down the tree of commands, stepping over flags and their values as far as they can be
told apart before the command is known.
-/

namespace InfraSmells.CommandLine

/-- How many arguments a command takes. -/
inductive Arity where
  | any
  | none
  | atLeast (n : Nat)
  deriving DecidableEq, Repr, Inhabited

/-- What the arguments of a command name, as a shell is told that completes them. -/
inductive ArgumentKind where
  | files
  | commands
  | nothing
  deriving DecidableEq, Repr, Inhabited

/-- A command by itself. -/
structure CommandInfo where
  name : String
  /-- How the command is used: its name and what may follow. -/
  use : String
  short : String
  long : String := ""
  flags : List Flag := []
  arity : Arity := .any
  arguments : ArgumentKind := .files
  /-- Does the command do something of its own? -/
  runs : Bool := true
  /-- Does the line on its use tell that it has flags? -/
  showsFlags : Bool := true
  /-- Is the command left out where commands are listed? -/
  hidden : Bool := false
  /-- Does the command take its arguments as they are, flags included? -/
  verbatim : Bool := false
  deriving Inhabited

/-- A command with the commands below it. -/
inductive Command where
  | mk (info : CommandInfo) (commands : List Command)
  deriving Inhabited

namespace Command

/-- The command by itself. -/
def info : Command → CommandInfo
  | mk i _ => i

/-- The commands below a command. -/
def commands : Command → List Command
  | mk _ cs => cs

/-- The name of a command. -/
def name (c : Command) : String :=
  c.info.name

end Command

/-- Does an argument stand for a flag whose value is the next argument? A flag that is not among the
known ones is taken for one. -/
def takesNext (flags : List Flag) (arg : String) : Bool :=
  let boolean (f : Option Flag) : Bool := f.any Flag.isBoolean
  match arg.toList with
  | '-' :: '-' :: name =>
    !name.contains '=' && !boolean (Flags.named? flags (String.ofList name))
  | ['-', c] =>
    c != '=' && (Text.charBytes c).length == 1 && !boolean (Flags.lettered? flags c)
  | _ => false

/-- The arguments that are no flags and no values of flags, as far as can be told. A flag that would
take one of the last two arguments ends the search. -/
def wordsOf (flags : List Flag) : List String → List String
  | [] => []
  | arg :: rest =>
    if arg = "--" then []
    else if takesNext flags arg then
      match rest with
      | _ :: b :: more => wordsOf flags (b :: more)
      | _ => []
    else if arg ≠ "" && !Text.startsWith arg "-" then arg :: wordsOf flags rest
    else wordsOf flags rest

/-- The arguments without the first one that is the word `w`. -/
def dropWord (flags : List Flag) (w : String) : List String → List String
  | [] => []
  | arg :: rest =>
    if arg = "--" then arg :: rest
    else if takesNext flags arg then
      match rest with
      | [] => [arg]
      | value :: more => arg :: value :: dropWord flags w more
    else if !Text.startsWith arg "-" && arg = w then rest
    else arg :: dropWord flags w rest

mutual

/-- The command that arguments lead to, the commands above it, and the arguments that are left. The
flags `inherited` hold for all commands. -/
def Command.find (inherited : List Flag) (above : List CommandInfo) :
    Command → List String → Command × List CommandInfo × List String
  | .mk info commands, args =>
    let flags := info.flags ++ inherited
    match wordsOf flags args with
    | [] => (.mk info commands, above, args)
    | w :: _ =>
      match findAmong inherited (info :: above) w (dropWord flags w args) commands with
      | some found => found
      | none => (.mk info commands, above, args)

/-- The command that arguments lead to from the one of a name among several. -/
def findAmong (inherited : List Flag) (above : List CommandInfo) (w : String)
    (args : List String) : List Command → Option (Command × List CommandInfo × List String)
  | [] => none
  | .mk info commands :: rest =>
    if info.name = w then some (Command.find inherited above (.mk info commands) args)
    else findAmong inherited above w args rest

end

/-- The names that lead to a command, separated by blanks. -/
def pathOf (above : List CommandInfo) (info : CommandInfo) : String :=
  Text.join " " ((info :: above).reverse.map (·.name))

/-- One row of the table of distances between two texts: `row` belongs to the characters in front of
`t`, and `left` is the entry to the left. -/
def distanceRow (t : UInt8) (left : Nat) : List UInt8 → List Nat → List Nat
  | s :: ss, diagonal :: above :: row =>
    let d := if s = t then diagonal else 1 + min (min left above) diagonal
    d :: distanceRow t d ss (above :: row)
  | _, _ => []

/-- The number of single insertions, deletions and replacements between two texts, letter case
aside. -/
def distance (a b : String) : Nat :=
  let bytes (s : String) : List UInt8 := Text.toBytes (Text.lower s)
  let step (row : List Nat) (t : UInt8) : List Nat :=
    let first := row.headD 0 + 1
    first :: distanceRow t first (bytes a) row
  ((bytes b).foldl step (List.range ((bytes a).length + 1))).getLastD 0

/-- The names that someone who wrote `word` may have meant: close ones, and ones it begins. -/
def suggestions (names : List String) (word : String) : List String :=
  names.filter fun n => distance word n ≤ 2 || Text.startsWith (Text.lower n) (Text.lower word)

/-- The message for a word that no command has. -/
def unknownCommand (word path : String) (meant : List String) : String :=
  "unknown command " ++ Text.quote word ++ " for " ++ Text.quote path ++
    if meant.isEmpty then ""
    else "\n\nDid you mean this?\n" ++ String.join (meant.map fun m => "\t" ++ m ++ "\n")

/-- The message for a number of arguments that a command does not take. -/
def arityMessage? (arity : Arity) (path : String) (args : List String) : Option String :=
  match arity, args with
  | .any, _ | .none, [] => none
  | .none, word :: _ => some (unknownCommand word path [])
  | .atLeast n, args =>
    if args.length < n then
      some ("requires at least " ++ toString n ++ " arg(s), only received " ++
        toString args.length)
    else none

end InfraSmells.CommandLine
