import InfraSmells.Checker.Basic

/-!
# Smells of comments and conditionals

Comments that hint at unfinished work, and switches that leave cases out.
-/

namespace InfraSmells.Security

/-- The classes into which a comment is cut. -/
inductive TokenClass where
  | word | mark | space
  deriving DecidableEq, Repr

/-- The class of a character: letters, numbers and underscores make words, ASCII white space divides,
and all else are marks. -/
def tokenClass (c : Char) : TokenClass :=
  if c == '_' || Text.isLetter c || Text.isNumber c then .word
  else if c == ' ' || c == '\t' || c == '\n' || c == '\r' || c.toNat == 12 then .space
  else .mark

/-- Puts one more character in front of the runs of equal class. -/
def addToRuns (c : Char) (runs : List (TokenClass × List Char)) : List (TokenClass × List Char) :=
  match runs with
  | (k, cs) :: rest => if k = tokenClass c then (k, c :: cs) :: rest else (tokenClass c, [c]) :: runs
  | [] => [(tokenClass c, [c])]

/-- The words and runs of marks of a line. -/
def tokens (line : String) : List String :=
  let runs := line.toList.foldr addToRuns []
  (runs.filter (·.1 != .space)).map fun (_, cs) => String.ofList cs

/-- Reports the lines of a comment that hold a suspicious word; only the first word found counts. -/
def suspiciousComment (config : Config) (_ : Context) (e : Element) (path : String) : List Finding :=
  match e with
  | .comment m =>
    let lines := (Text.split '\n' m.content).map fun line => (line, tokens (Text.lower line))
    let hits (word : String) : List Finding :=
      lines.filterMap fun (line, ts) =>
        if ts.contains word then some (Finding.about "sec_susp_comm" e path line) else none
    ((config.security.suspiciousWords.map hits).find? (!·.isEmpty)).getD []
  | _ => []

/-- Reports a switch without a default branch. -/
def noDefaultSwitch (_ : Context) (e : Element) (path : String) : List Finding :=
  match e with
  | .expr (.conditional head rest) =>
    if head.kind = .switch && !hasDefault head rest then
      [Finding.of "sec_no_default_switch" e path]
    else []
  | _ => []

end InfraSmells.Security
