import InfraSmells.CommandLine.Listings
import InfraSmells.CommandLine.Script
import InfraSmells.Logging

/-!
# The command line

`CommandLine.respond` carries out a call of the program. Faults are looked for in a fixed order: the
environment file, the command, its flags, the number of its arguments, the flags of the whole program,
and last what the command itself asks for.
-/

namespace InfraSmells.CommandLine

/-- The environment file that is read without being asked for. -/
def defaultFile : String := ".env"

/-- The variables of a call, completed from the environment file. A file that nobody asked for need
not exist. -/
def variablesOf (call : Call) : Except String Variables :=
  let asked := call.vars.value fileVariable
  let path := if asked = "" then defaultFile else asked
  match EnvironmentFile.load call.files path with
  | .ok vs => .ok (call.vars.complete vs)
  | .error e =>
    match asked, e with
    | "", .file ⟨_, _, .notFound⟩ => .ok call.vars
    | _, _ => .error ("failed to load env file " ++ path ++ ": " ++ e.message)

/-- Checks the flags of the whole program and tells whether output is coloured. -/
def setUp (call : Call) (g : Given) : Except String Bool := do
  let level := g.text globalFlags "log-level"
  let _ ← orMessage (LogLevel.ofName? level) (LogLevel.unknownMessage level)
  let format := g.text globalFlags "log-format"
  let _ ← orMessage (LogFormat.ofName? format) (LogFormat.unknownMessage format)
  let color := g.text globalFlags "color"
  match Text.lower color with
  | "on" => return true
  | "off" => return false
  | "auto" => return call.terminal
  | _ => throw ("unknown color mode " ++ Text.quote color ++ " (expected: auto|on|off)")

/-- A word between back quotes where it can stand there, else between quotes. -/
def backQuoted (s : String) : String :=
  let fits : Text.Glyph → Bool
    | .char c => c != '\x60' && c != '\x7f' && c != '\ufeff' && (' ' ≤ c || c == '\t')
    | .byte _ => false
  if (Text.glyphs s).all fits then "\x60" ++ s ++ "\x60" else Text.quote s

/-- Carries `help` out. -/
def respondHelp (root : Command) (topics : List String) : String :=
  let (c, above, args) := root.find globalFlags [] topics
  match strayWord? root c above args with
  | none => helpOf above c
  | some _ =>
    "Unknown help topic [" ++ Text.join " " (topics.map backQuoted) ++ "]\n" ++
      usageText root.name root globalFlags []

/-- The answer of a command that writes or has a fault. -/
def answerOf : Except String String → Response
  | .ok text => .text text
  | .error message => .fatal message

/-- Carries a command out whose flags have been read and found right. -/
def perform {m : Type → Type} [Monad m] (watch : Stopwatch m) (call : Call) (root : Command)
    (info : CommandInfo) (color : Bool) (g : Given) : m (Option Response) :=
  match info.name, Shell.ofName? info.name with
  | _, some shell => pure (some (.text (shell.script !(g.flag info.flags "no-descriptions"))))
  | "check", none =>
    match CheckJob.ofGiven call info.flags color g with
    | .error message => pure (some (.fatal message))
    | .ok job => job.respond watch call
  | "codes", none => pure (some (answerOf (respondCodes g)))
  | "version", none => pure (some (answerOf (respondVersion color g)))
  | _, none => pure (some (.text (respondHelp root g.arguments)))

/-- Carries a call out. There is no answer when a document breaks the parser down. -/
def respondWith {m : Type → Type} [Monad m] (watch : Stopwatch m) (call : Call) :
    m (Option Response) :=
  match variablesOf call with
  | .error message => pure (some (.fatal message))
  | .ok vs =>
    let root := rootCommand vs
    let (c, above, args) := root.find globalFlags [] call.arguments
    let flags := ownFlags above c ++ inheritedFlags above
    match answerRequest? vs root call.arguments, strayWord? root c above args,
      Flags.parse flags {} args with
    | some response, _, _ => pure (some response)
    | none, some message, _ => pure (some (.fatal message))
    | none, none, .error e => pure (some (.fatal e.message))
    | none, none, .ok g =>
      if g.flag flags "help" then pure (some (.text (helpOf above c)))
      else if above.isEmpty && g.flag flags "version" then
        pure (some (.text (Version.tool ++ " version " ++ Version.current ++ "\n")))
      else if !c.info.runs then pure (some (.text (helpOf above c)))
      else
        match arityMessage? c.info.arity (pathOf above c.info) g.arguments, setUp call g with
        | some message, _ => pure (some (.fatal message))
        | none, .error message => pure (some (.fatal message))
        | none, .ok color => perform watch call root c.info color g

/-- The answer to a call, apart from the times it shows. -/
def respond (call : Call) : Option Response :=
  respondWith (m := Id) Stopwatch.still call

end InfraSmells.CommandLine
