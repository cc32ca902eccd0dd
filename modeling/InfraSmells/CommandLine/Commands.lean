import InfraSmells.CommandLine.Environment
import InfraSmells.CommandLine.Help
import InfraSmells.CommandLine.Shell
import InfraSmells.Report.Options
import InfraSmells.Technology
import InfraSmells.Version

/-!
# The commands of the program

The tree of commands with their flags. Variables of the environment give the initial values of some
flags of `check`.
-/

namespace InfraSmells.CommandLine

/-- The flags that all commands have. -/
def globalFlags : List Flag := [
  { name := "color", initial := .text "auto", usage := "colorize output (auto|on|off)" },
  { name := "log-level", initial := .text "warn", usage := "log level (debug|info|warn|error)" },
  { name := "log-format", initial := .text "text", usage := "log format (text|json)" }]

/-- The variable that names the technology. -/
def technologyVariable : String := "IACSMELL_TECH"

/-- The variable that names the configuration. -/
def configVariable : String := "IACSMELL_CONFIG"

/-- The variable that names the format. -/
def formatVariable : String := "IACSMELL_FORMAT"

/-- The variable that names the environment file. -/
def fileVariable : String := "IACSMELL_ENV_FILE"

/-- The flags of `check`. -/
def checkFlags (vs : Variables) : List Flag :=
  let format := vs.value formatVariable
  [{ name := "tech", initial := .text (vs.value technologyVariable)
     usage := "technology of the scripts (" ++
       Text.join "|" (Technology.all.map Technology.name) ++ ")" },
   { name := "config", initial := .text (vs.value configVariable)
     usage := "configuration file (TOML); embedded defaults when empty" },
   { name := "smells", initial := .texts []
     usage := "smell families to check (design,security); all when empty" },
   { name := "format", initial := .text (if format = "" then "pretty" else format)
     usage := "output format (" ++
       Text.join "|" (Report.Format.all.map Report.Format.name) ++ ")" },
   { name := "jobs", initial := .integer 0, usage := "max parallel workers (0=auto)" },
   { name := "input", initial := .text ""
     usage := "front-end (ir|terraform); terraform for --tech terraform, ir otherwise" },
   { name := "type", initial := .text "script"
     usage := "unit block type for inputs that carry none " ++
       "(script|tasks|vars|block|function|definition)" },
   { name := "module", initial := .flag false
     usage := "treat each directory argument as one module" },
   { name := "timings", initial := .flag false, usage := "print phase timings to stderr" },
   { name := "fullpath", initial := .flag false, usage := "emit absolute file paths in output" },
   { name := "width", initial := .integer 0
     usage := "truncate pretty snippets to this many columns (0=unlimited)" },
   { name := "cpu-profile", initial := .text ""
     usage := "write a CPU profile of the analysis to this file" },
   { name := "mem-profile", initial := .text ""
     usage := "write a heap profile after the analysis to this file" },
   { name := "runtime-trace", initial := .text ""
     usage := "write a runtime trace of the analysis to this file" }]

/-- The command that finds smells. -/
def checkCommand (vs : Variables) : Command :=
  .mk
    { name := "check"
      use := "check [flags] <path>..."
      short := "Detect smells in IaC scripts"
      long := "Check analyses files or directories. Inputs are read by a front-end:\n" ++
        "\"ir\" reads IR documents (*.ir.json, *.ir.msgpack) written by external parsers,\n" ++
        "\"terraform\" parses *.tf files directly."
      flags := checkFlags vs
      arity := .atLeast 1 } []

/-- The flags of `codes`. -/
def codesFlags : List Flag := [
  { name := "tech", initial := .text "", usage := "only codes checked for this technology" },
  { name := "smells", initial := .texts []
    usage := "only codes of these families (design,security); needs --tech" },
  { name := "format", initial := .text "pretty", usage := "output format (pretty|json)" },
  { name := "describe", initial := .flag false, usage := "include the full description" }]

/-- The command that lists the catalog. -/
def codesCommand : Command :=
  .mk
    { name := "codes"
      use := "codes"
      short := "List the smell catalog"
      long := "List every smell code, or only those checked for one technology and smell family"
      flags := codesFlags
      arity := .none } []

/-- The flags of `version`. -/
def versionFlags : List Flag := [
  { name := "hash", initial := .flag false, usage := "include git commit hash" },
  { name := "message", initial := .flag false, usage := "include git commit message" },
  { name := "date", initial := .flag false, usage := "include build timestamp" },
  { name := "full", initial := .flag false
    usage := "show every recorded bit of build metadata" },
  { name := "format", initial := .text "pretty", usage := "output format (pretty|json)" }]

/-- The command that tells the version. -/
def versionCommand : Command :=
  .mk
    { name := "version"
      use := "version"
      short := "Show " ++ Version.tool ++ " build fingerprints"
      flags := versionFlags
      arity := .none } []

/-- The command that explains commands. -/
def helpCommand : Command :=
  .mk
    { name := "help"
      use := "help [command]"
      short := "Help about any command"
      long := "Help provides help for any command in the application.\nSimply type " ++
        Version.tool ++ " help [path to command] for full details."
      arguments := .commands } []

/-- The flags of the commands that write completion scripts. -/
def shellFlags : List Flag := [
  { name := "no-descriptions", initial := .flag false
    usage := "disable completion descriptions" }]

/-- The command that writes the completion script for a shell. -/
def shellCommand (s : Shell) : Command :=
  .mk
    { name := s.name
      use := s.name
      short := "Generate the autocompletion script for " ++ s.name
      long := s.guide
      flags := shellFlags
      arity := .none
      arguments := .nothing
      showsFlags := s != .bash } []

/-- The command above those that write completion scripts. -/
def completionCommand : Command :=
  .mk
    { name := "completion"
      use := "completion"
      short := "Generate the autocompletion script for the specified shell"
      long := "Generate the autocompletion script for " ++ Version.tool ++
        " for the specified shell.\n" ++
        "See each sub-command's help for details on how to use the generated script.\n"
      arity := .none
      arguments := .nothing
      runs := false } (Shell.all.map shellCommand)

/-- The whole tree of commands. -/
def rootCommand (vs : Variables) : Command :=
  .mk
    { name := Version.tool
      use := Version.tool
      short := "Static analysis of infrastructure-as-code scripts"
      long := Version.tool ++ " detects security and design smells in Ansible, Chef, Puppet, " ++
        "Terraform, Docker, GitHub Actions, Nomad and Swarm scripts"
      runs := false }
    [checkCommand vs, codesCommand, versionCommand, helpCommand, completionCommand]

/-- The flag that asks for the version of the program. -/
def versionFlag : Flag :=
  { name := "version", initial := .flag false, usage := "version for " ++ Version.tool
    letter := some 'v' }

/-- The flags of a command itself; those of the whole program are its own at the top only. -/
def ownFlags (above : List CommandInfo) (c : Command) : List Flag :=
  c.info.flags ++ [helpFlag c.name] ++ if above.isEmpty then versionFlag :: globalFlags else []

/-- The flags that a command has from above. -/
def inheritedFlags (above : List CommandInfo) : List Flag :=
  if above.isEmpty then [] else globalFlags

/-- The message for a word at the top that no command has. -/
def strayWord? (root : Command) (c : Command) (above : List CommandInfo) (args : List String) :
    Option String :=
  if !above.isEmpty then none
  else
    match wordsOf globalFlags args with
    | [] => none
    | word :: _ =>
      let names := (root.commands.map Command.name).filter (· != helpCommand.name)
      some (unknownCommand word c.name (suggestions names word))

/-- The help of a command. -/
def helpOf (above : List CommandInfo) (c : Command) : String :=
  helpText (pathOf above c.info) c (ownFlags above c) (inheritedFlags above)

end InfraSmells.CommandLine
