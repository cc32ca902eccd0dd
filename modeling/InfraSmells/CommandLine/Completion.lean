import InfraSmells.CommandLine.Commands
import InfraSmells.CommandLine.Response

/-!
# Completion of words

A shell that completes a word calls the program with one of two words of its own, `requestWord` or
`bareRequestWord`, the arguments typed so far and, last, the word to complete. The answer has a line
for each candidate and then the number of a directive, which tells what the shell may add.

`completionOf` finds the candidates: flags for a word that begins with a dash, nothing for the value
of a flag, and else the commands below the command at hand, or what that command takes.
-/

namespace InfraSmells.CommandLine

/-- What a shell may add to the candidates it gets. -/
inductive Directive where
  | files
  | nothing
  deriving DecidableEq, Repr, Inhabited

/-- The number that stands for a directive. -/
def Directive.number : Directive → Nat
  | files => 0
  | nothing => 4

/-- The name of a directive. -/
def Directive.name : Directive → String
  | files => "ShellCompDirectiveDefault"
  | nothing => "ShellCompDirectiveNoFileComp"

/-- A word that may be meant, with what it stands for. -/
structure Candidate where
  word : String
  description : String
  deriving DecidableEq, Repr, Inhabited

/-- The candidates for a word. -/
structure Completion where
  candidates : List Candidate := []
  directive : Directive := .files
  deriving DecidableEq, Repr, Inhabited

/-- The word that asks for candidates with their descriptions. -/
def requestWord : String := "__complete"

/-- The word that asks for candidates without descriptions. -/
def bareRequestWord : String := "__completeNoDesc"

/-- The command that answers a shell. -/
def requestCommand (name : String) : Command :=
  .mk
    { name := name
      use := name ++ " [command-line]"
      short := "Request shell completion choices for the specified command-line"
      arity := .atLeast 1
      showsFlags := false
      hidden := true
      verbatim := true } []

/-- The tree of commands with those that answer shells. -/
def Command.withRequests (root : Command) : Command :=
  .mk root.info (root.commands ++ [requestWord, bareRequestWord].map requestCommand)

/-- The flag that someone means by a name; a name of one letter is a flag's letter. -/
def Flags.meant? (flags : List Flag) (name : String) : Option Flag :=
  match name.toList with
  | [c] => lettered? flags c
  | _ => named? flags name

/-- Is an argument a flag that has a name or letters? -/
def isFlagArgument (arg : String) : Bool :=
  match arg.toList with
  | '-' :: '-' :: rest => !rest.isEmpty
  | '-' :: rest => !rest.isEmpty
  | _ => false

/-- The flag that an argument names, without a value: of several letters the last one counts. -/
def flagNameOf (arg : String) : String :=
  match arg.toList with
  | '-' :: '-' :: name => String.ofList name
  | letters => String.ofList letters.getLast?.toList

/-- Where a word stands that is to be completed. -/
structure WordPlace where
  /-- The arguments in front, without a flag whose value the word is. -/
  before : List String
  /-- The part that is to be completed. -/
  word : String
  /-- The flag whose value the word is. -/
  flag : Option Flag := none
  /-- Is the word the value of a flag that the command does not have? -/
  unknown : Bool := false

/-- Where a word stands behind arguments. It is the value of a flag if the flag stands in front of
it, or in it in front of an equality sign. -/
def WordPlace.of (flags : List Flag) (before : List String) (word : String) : WordPlace :=
  let dashed := Text.startsWith word "-"
  let value? := if dashed then Text.after? "=" word else none
  if dashed && value?.isNone then { before := before, word := word }
  else
    let value := value?.getD word
    let inside := if dashed then flagNameOf (Text.before "=" word) else ""
    let previous := before.getLastD ""
    let (name, rest) :=
      if inside = "" && isFlagArgument previous && !Text.contains previous "=" then
        (flagNameOf previous, before.dropLast)
      else (inside, before)
    if name = "" then { before := before, word := value }
    else
      match Flags.meant? flags name with
      | none => { before := before, word := word, unknown := true }
      | some f =>
        if !dashed && f.isBoolean then { before := before, word := value }
        else { before := rest, word := value, flag := some f }

/-- The candidates among flags that are given already or not. A flag that was given is one again only
if it can be given more than once. -/
def flagCandidates (g : Given) (word : String) (flags : List Flag) : List Candidate :=
  (sortFlags flags).flatMap fun f =>
    let again := match f.initial with
      | .texts _ => true
      | _ => false
    let forms := ("--" ++ f.name) :: (f.letter.map fun c => "-" ++ c.toString).toList
    if g.has f.name && !again then []
    else (forms.filter (Text.startsWith · word)).map fun form => ⟨form, f.usage⟩

/-- The candidates among commands. -/
def commandCandidates (word : String) (commands : List Command) : List Candidate :=
  let fitting (c : Command) : Bool := !c.info.hidden && Text.startsWith c.name word
  ((sortCommands commands).filter fitting).map fun c => ⟨c.name, c.info.short⟩

/-- The candidates for a word that is neither a flag nor one's value, behind arguments `before`. With
`atCommand` it may be the name of a command below. -/
def argumentCompletion (root c : Command) (atCommand : Bool) (before : List String) (word : String) :
    Completion :=
  let below := if atCommand && before.isEmpty then c.commands.filter (!·.info.hidden) else []
  let found := commandCandidates word below
  match c.info.arguments with
  | .files => ⟨found, if below.isEmpty then .files else .nothing⟩
  | .nothing => ⟨found, .nothing⟩
  | .commands =>
    let (d, above, rest) := root.find globalFlags [] before
    let topics := if (strayWord? root d above rest).isSome then [] else d.commands
    ⟨found ++ commandCandidates word topics, .nothing⟩

/-- The candidates for a word behind arguments of a command. There are none where the arguments cannot
be read, or where they ask for help. -/
def completionOf (root c : Command) (above : List CommandInfo) (before : List String)
    (word : String) : Completion :=
  let flags := ownFlags above c ++ inheritedFlags above
  let parse (args : List String) : Except FlagError Given :=
    if c.info.verbatim then .ok { arguments := before } else Flags.parse flags {} args
  let place := if c.info.verbatim then { before := before, word := word }
    else WordPlace.of flags before word
  match strayWord? root c above before, parse place.before, parse (place.before ++ ["--"]) with
  | none, .ok g, .ok further =>
    -- Two more dashes are an argument if two dashes stand in front of them.
    let flagsHold := further.arguments.length ≤ g.arguments.length
    if place.unknown && flagsHold then {}
    else if g.has "help" || g.has "version" then { directive := .nothing }
    else if place.flag.isSome && flagsHold then {}
    else if place.flag.isNone && flagsHold && Text.startsWith place.word "-" &&
        !Text.contains place.word "=" then
      { candidates := flagCandidates g place.word (inheritedFlags above) ++
          flagCandidates g place.word (ownFlags above c)
        directive := .nothing }
    else argumentCompletion root c place.flag.isNone g.arguments place.word
  | _, _, _ => {}

/-- The variables that tell whether candidates are described. The first that is not empty counts. -/
def descriptionVariables : List String :=
  ["IACSMELL_COMPLETION_DESCRIPTIONS", "COBRA_COMPLETION_DESCRIPTIONS"]

/-- Are the candidates described, if `called` asks for them? -/
def isDescribed (vs : Variables) (called : String) : Bool :=
  let setting := ((descriptionVariables.map vs.value).find? (· ≠ "")).getD ""
  called != bareRequestWord && (truthOf? setting).getD true

/-- The line of a candidate. -/
def Candidate.line (described : Bool) (c : Candidate) : String :=
  (if described then c.word ++ "\t" ++ c.description else c.word) ++ "\n"

/-- The answer to a shell. The command at hand, if it answers shells too, decides whether candidates
are described. -/
def respondRequest (vs : Variables) (root : Command) (called : String) (before : List String)
    (word : String) : Response :=
  let (c, above, rest) := root.find globalFlags [] before
  let described := isDescribed vs (if c.info.verbatim then c.name else called)
  let found := completionOf root c above rest word
  { output := String.join (found.candidates.map (Candidate.line described)) ++ ":" ++
      toString found.directive.number ++ "\n"
    errors := "Completion ended with directive: " ++ found.directive.name ++ "\n" }

/-- The answer to a call that asks for candidates. -/
def answerRequest? (vs : Variables) (root : Command) (arguments : List String) : Option Response :=
  let root := root.withRequests
  let (c, above, args) := root.find globalFlags [] arguments
  if !c.info.verbatim then none
  else
    match arityMessage? c.info.arity (pathOf above c.info) args, args.getLast? with
    | none, some word => some (respondRequest vs root c.name args.dropLast word)
    | some message, _ => some (.fatal message)
    | none, none => none

end InfraSmells.CommandLine
