import InfraSmells.CommandLine.Command
import InfraSmells.Text.Blank

/-!
# Help

The text that explains a command: what it is for, how it is used, the commands below it and its
flags with their initial values.
-/

namespace InfraSmells.CommandLine

/-- What a flag's value is called. -/
def Flag.valueName (f : Flag) : String :=
  match f.initial with
  | .text _ => " string"
  | .flag _ => ""
  | .integer _ => " int"
  | .texts _ => " strings"

/-- The initial value as the help shows it; one that is empty is not shown. -/
def Flag.initialNote (f : Flag) : String :=
  match f.initial with
  | .text s => if s = "" then "" else " (default " ++ Text.quote s ++ ")"
  | .integer n => if n = 0 then "" else " (default " ++ toString n ++ ")"
  | _ => ""

/-- How a flag is written. -/
def Flag.written (f : Flag) : String :=
  (match f.letter with
    | some c => "  -" ++ c.toString ++ ", --"
    | none => "      --") ++ f.name ++ f.valueName

/-- Flags in the order of their names. -/
def sortFlags (flags : List Flag) : List Flag :=
  flags.mergeSort fun a b => Text.le a.name b.name

/-- Commands in the order of their names. -/
def sortCommands (commands : List Command) : List Command :=
  commands.mergeSort fun a b => Text.le a.name b.name

/-- The lines about flags, in the order of their names. -/
def flagLines (flags : List Flag) : String :=
  let sorted := sortFlags flags
  let width := (sorted.map fun f => Text.byteLength f.written).foldl max 0
  String.join (sorted.map fun f =>
    f.written ++ String.ofList (List.replicate (width - Text.byteLength f.written) ' ') ++ "   " ++
      f.usage ++ f.initialNote ++ "\n")

/-- The flag that asks for the help of a command. -/
def helpFlag (name : String) : Flag :=
  { name := "help", initial := .flag false, usage := "help for " ++ name, letter := some 'h' }

/-- A headed part of a help text; an empty one is left out. -/
def helpPart (heading body : String) : String :=
  if body = "" then "" else "\n\n" ++ heading ++ body

/-- The lines about the commands below a command, in the order of their names. -/
def commandLines (commands : List Command) : String :=
  String.join ((sortCommands commands).map fun c => "\n  " ++ Text.padRight 11 c.name ++ " " ++ c.info.short)

/-- How a command is used: the lines on its use, on the commands below it and on its flags, of which
`inherited` hold for all commands. -/
def usageText (path : String) (c : Command) (flags inherited : List Flag) : String :=
  let i := c.info
  let useLine := Text.dropEnd i.name path ++ i.use
  let useLine := if i.showsFlags && !Text.contains useLine "[flags]" then useLine ++ " [flags]"
    else useLine
  let lines (fs : List Flag) : String := Text.trimEnd Text.isBlank (flagLines fs)
  "Usage:" ++ (if i.runs then "\n  " ++ useLine else "") ++
    (if c.commands.isEmpty then "" else "\n  " ++ path ++ " [command]") ++
    helpPart "Available Commands:" (commandLines c.commands) ++
    helpPart "Flags:\n" (lines flags) ++ helpPart "Global Flags:\n" (lines inherited) ++
    (if c.commands.isEmpty then ""
      else "\n\nUse \"" ++ path ++ " [command] --help\" for more information about a command.") ++
    "\n"

/-- The help of a command. -/
def helpText (path : String) (c : Command) (flags inherited : List Flag) : String :=
  let i := c.info
  let about := Text.trimEnd Text.isBlank (if i.long = "" then i.short else i.long)
  (if about = "" then "" else about ++ "\n\n") ++ usageText path c flags inherited

end InfraSmells.CommandLine
