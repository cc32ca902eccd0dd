import InfraSmells.CommandLine.Completion

/-!
# Completion scripts

The script that makes a shell ask the program for candidates. Each one calls the program with the
word that asks for them and the words typed so far, offers the candidates, and leaves the names of
files to the shell unless the directive forbids it.
-/

namespace InfraSmells.CommandLine

namespace Shell

/-- The lines of the script for bash. -/
def bashLines (tool request : String) : List String := [
  "# bash completion for " ++ tool,
  "",
  "__start_" ++ tool ++ "()",
  "\x7b",
  "    local line",
  "    COMPREPLY=()",
  "    while IFS='' read -r line; do",
  "        case $line in",
  "            :*) if (( $\x7bline#:\x7d & 4 )); then compopt +o default; fi ;;",
  "            *) COMPREPLY+=(\"$\x7bline%%$'\\t'*\x7d\") ;;",
  "        esac",
  "    done < <(\"$\x7bCOMP_WORDS[0]\x7d\" " ++ request ++
    " \"$\x7bCOMP_WORDS[@]:1:COMP_CWORD\x7d\" 2>/dev/null)",
  "\x7d",
  "",
  "complete -o default -F __start_" ++ tool ++ " " ++ tool]

/-- The lines of the script for zsh. -/
def zshLines (tool request : String) : List String := [
  "#compdef " ++ tool,
  "",
  "_" ++ tool ++ "()",
  "\x7b",
  "    local line directive=0",
  "    local -a candidates",
  "    for line in \"$\x7b(@f)$($\x7bwords[1]\x7d " ++ request ++
    " \"$\x7b(@)words[2,CURRENT]\x7d\" 2>/dev/null)\x7d\"; do",
  "        if [[ $line == :* ]]; then",
  "            directive=$\x7bline#:\x7d",
  "        else",
  "            line=$\x7bline//:/\\\\:\x7d",
  "            candidates+=(\"$\x7bline/$'\\t'/:\x7d\")",
  "        fi",
  "    done",
  "    _describe 'completions' candidates && return",
  "    (( directive & 4 )) || _files",
  "\x7d",
  "",
  "compdef _" ++ tool ++ " " ++ tool]

/-- The lines of the script for fish. -/
def fishLines (tool request : String) : List String := [
  "# fish completion for " ++ tool,
  "",
  "function __" ++ tool ++ "_answer",
  "    set -l words (commandline -opc)",
  "    $words[1] " ++ request ++ " $words[2..-1] (commandline -ct | string collect -a) 2>/dev/null",
  "end",
  "",
  "function __" ++ tool ++ "_candidates",
  "    __" ++ tool ++ "_answer | string match -rv '^:'",
  "end",
  "",
  "function __" ++ tool ++ "_takes_no_files",
  "    __" ++ tool ++ "_answer | string match -qr '^:4'",
  "end",
  "",
  "complete -c " ++ tool ++ " -n __" ++ tool ++ "_takes_no_files -f",
  "complete -c " ++ tool ++ " -a '(__" ++ tool ++ "_candidates)'"]

/-- The lines of the script for powershell. -/
def powershellLines (tool request : String) : List String := [
  "# powershell completion for " ++ tool,
  "",
  "Register-ArgumentCompleter -Native -CommandName '" ++ tool ++ "' -ScriptBlock \x7b",
  "    param($word, $command, $position)",
  "    $typed = @($command.CommandElements | Select-Object -Skip 1 |",
  "        ForEach-Object \x7b \"$_\" \x7d)",
  "    if ($word -eq '') \x7b $typed += '' \x7d",
  "    & '" ++ tool ++ "' " ++ request ++ " @typed 2>$null |",
  "        Where-Object \x7b $_ -notlike ':*' \x7d | ForEach-Object \x7b",
  "        $name, $description = $_.Split(\"\x60t\", 2)",
  "        if (-not $description) \x7b $description = $name \x7d",
  "        [System.Management.Automation.CompletionResult]::new(",
  "            $name, $name, 'ParameterValue', $description)",
  "    \x7d",
  "\x7d"]

/-- The script for a shell. With `described` candidates are shown with their descriptions. -/
def script (s : Shell) (described : Bool) : String :=
  let request := if described then requestWord else bareRequestWord
  let lines := match s with
    | bash => bashLines Version.tool request
    | zsh => zshLines Version.tool request
    | fish => fishLines Version.tool request
    | powershell => powershellLines Version.tool request
  String.join (lines.map (· ++ "\n"))

end Shell

end InfraSmells.CommandLine
