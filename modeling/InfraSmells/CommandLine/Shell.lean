import InfraSmells.Version

/-!
# Shells

The shells whose users can have the program's commands and flags completed while they type, and what
they are told about setting that up.
-/

namespace InfraSmells.CommandLine

/-- A shell that completes words. -/
inductive Shell where
  | bash
  | zsh
  | fish
  | powershell
  deriving DecidableEq, Repr, Inhabited

namespace Shell

/-- All shells. -/
def all : List Shell := [bash, zsh, fish, powershell]

/-- The name of a shell. -/
def name : Shell → String
  | bash => "bash"
  | zsh => "zsh"
  | fish => "fish"
  | powershell => "powershell"

/-- The shell of a name. -/
def ofName? (name : String) : Option Shell :=
  all.find? (·.name == name)

/-- The call that writes the script for a shell. -/
def scriptCall (s : Shell) : String :=
  Version.tool ++ " completion " ++ s.name

/-- How the script for a shell is loaded for the current session. -/
def loadNow (line : String) : String :=
  "To load completions in your current shell session:\n\n\t" ++ line ++ "\n\n"

/-- What precedes the ways to load a script for good. -/
def loadAlways : String := "To load completions for every new session, execute once:\n\n"

/-- A way to load a script on one operating system. -/
def onSystem (system line : String) : String :=
  "#### " ++ system ++ ":\n\n\t" ++ line ++ "\n\n"

/-- When a script is first at work. -/
def takesEffect : String := "You will need to start a new shell for this setup to take effect.\n"

/-- How the script for a shell is set up. -/
def guide (s : Shell) : String :=
  let call := s.scriptCall
  match s with
  | bash =>
    "Generate the autocompletion script for the bash shell.\n\n" ++
      "This script depends on the 'bash-completion' package.\n" ++
      "If it is not installed already, you can install it via your OS's package manager.\n\n" ++
      loadNow ("source <(" ++ call ++ ")") ++ loadAlways ++
      onSystem "Linux" (call ++ " > /etc/bash_completion.d/" ++ Version.tool) ++
      onSystem "macOS" (call ++ " > $(brew --prefix)/etc/bash_completion.d/" ++ Version.tool) ++
      takesEffect
  | zsh =>
    "Generate the autocompletion script for the zsh shell.\n\n" ++
      "If shell completion is not already enabled in your environment you will need\n" ++
      "to enable it.  You can execute the following once:\n\n" ++
      "\techo \"autoload -U compinit; compinit\" >> ~/.zshrc\n\n" ++
      loadNow ("source <(" ++ call ++ ")") ++ loadAlways ++
      onSystem "Linux" (call ++ " > \"$\x7bfpath[1]\x7d/_" ++ Version.tool ++ "\"") ++
      onSystem "macOS"
        (call ++ " > $(brew --prefix)/share/zsh/site-functions/_" ++ Version.tool) ++
      takesEffect
  | fish =>
    "Generate the autocompletion script for the fish shell.\n\n" ++
      loadNow (call ++ " | source") ++ loadAlways ++
      "\t" ++ call ++ " > ~/.config/fish/completions/" ++ Version.tool ++ ".fish\n\n" ++
      takesEffect
  | powershell =>
    "Generate the autocompletion script for powershell.\n\n" ++
      loadNow (call ++ " | Out-String | Invoke-Expression") ++
      "To load completions for every new session, add the output of the above command\n" ++
      "to your powershell profile.\n"

end Shell

end InfraSmells.CommandLine
