import InfraSmells.Checker.Basic
import Std.Data.HashMap

/-!
# Smells of source lines

Checks of the source text of a file: long lines, repeated spans, tabs, and string literals that hold
a bare variable. Spans are compared by a rolling hash: windows of equal hash count as repetitions,
and a window that begins inside a reported one is not reported again.
-/

namespace InfraSmells.Design

/-- The block through which the lines of a file are checked: the first one, unless it is only a part
of a script. -/
def fileBlock? (c : Context) : Element → Option Block
  | .block b => if b.type != .block && c.file.isSome && c.newFile then some b else none
  | _ => none

/-- A finding about a line of the file. -/
def lineFinding (code : String) (b : Block) (path context : String) (line : Nat) : Finding :=
  (Finding.about code (.block b) path context).atLine line

/-- The lines with their numbers, counted from one. -/
def numbered (lines : List String) : List (String × Nat) :=
  lines.zipIdx 1

/-- The longest line, in characters, that is not reported. -/
def maxStatementLength : Nat := 140

/-- Reports lines of more than `max` characters. -/
def longStatement (max : Int) (c : Context) (e : Element) (path : String) : List Finding :=
  match fileBlock? c e with
  | none => []
  | some b =>
    (numbered c.lines).filterMap fun (line, n) =>
      if max < (Text.characters line).length then some (lineFinding "implementation_long_statement" b path line n)
      else none

/-- The size of the compared windows, white space apart. -/
def duplicateWindow : Nat := 150

/-- The base of the rolling hash. -/
def rollBase : UInt64 := 1000003

/-- One character of a hash. -/
def charHash (c : Char) : UInt64 :=
  UInt64.ofNat c.toNat

/-- The characters that are no white space, each with the number of its line. -/
def codeChars (lines : List String) : List (Char × Nat) :=
  (numbered lines).flatMap fun (line, n) =>
    ((Text.characters line).filter (!Text.isBlank ·)).map fun c => (c, n)

/-- The hash of a window. -/
def windowHash (cs : List Char) : UInt64 :=
  cs.foldl (fun h c => h * rollBase + charHash c) 0

/-- The hashes of the windows that follow one of hash `h`: each step drops the first character of
the window and takes the next one behind it. `power` is the weight of the first character. -/
def rollFrom (power h : UInt64) : List (Char × Char) → List UInt64
  | [] => []
  | (old, new) :: rest =>
    let next := (h - charHash old * power) * rollBase + charHash new
    next :: rollFrom power next rest

/-- The hashes of all windows of `w` characters, by their starts. -/
def windowHashes (w : Nat) (cs : List Char) : List UInt64 :=
  let first := windowHash (cs.take w)
  let power := (List.range (w - 1)).foldl (fun p _ => p * rollBase) 1
  first :: rollFrom power first (cs.zip (cs.drop w))

/-- The starts of the windows of each hash, in increasing order. -/
def startsByHash (hashes : List UInt64) : Std.HashMap UInt64 (List Nat) :=
  hashes.zipIdx.foldr (fun (h, i) m => m.insert h (i :: m.getD h [])) ∅

/-- The starts of repeated windows: all starts of the hash seen first, then those of the next. -/
def repeatedStarts (hashes : List UInt64) : List Nat :=
  let groups := startsByHash hashes
  hashes.zipIdx.flatMap fun (h, i) =>
    match groups.getD h [] with
    | first :: second :: rest => if first = i then first :: second :: rest else []
    | _ => []

/-- Keeps the starts that lie in no window kept before. -/
def uncovered (w : Nat) (kept : List Nat) : List Nat → List Nat
  | [] => []
  | s :: rest =>
    if kept.any fun f => f ≤ s && s < f + w then uncovered w kept rest
    else s :: uncovered w (s :: kept) rest

/-- The starts of the windows to report. -/
def duplicateStarts (w : Nat) (cs : List Char) : List Nat :=
  if w = 0 || cs.length < w then [] else uncovered w [] (repeatedStarts (windowHashes w cs))

/-- Reports spans of `window` characters that occur more than once in the file. -/
def duplicateBlock (window : Int) (c : Context) (e : Element) (path : String) : List Finding :=
  match fileBlock? c e with
  | none => []
  | some b =>
    let lines := c.lines.toArray
    let code := (codeChars c.lines).toArray
    (duplicateStarts window.toNat (code.toList.map Prod.fst)).filterMap fun s =>
      code[s]?.map fun (_, n) =>
        lineFinding "design_duplicate_block" b path (lines[n - 1]?.getD "") n

/-- Reports lines with a tab. -/
def tabAlignment (c : Context) (e : Element) (path : String) : List Finding :=
  match fileBlock? c e with
  | none => []
  | some b =>
    (numbered c.lines).filterMap fun (line, n) =>
      if line.toList.contains '\t' then
        some (lineFinding "implementation_improper_alignment" b path (Element.block b).summary n)
      else none

/-- The characters of a literal up to the quote that closes it, which no backslash escapes, and the
rest. -/
def closeQuote (quote : Char) : List Char → Option (List Char × List Char)
  | [] => none
  | '\\' :: c :: cs => (closeQuote quote cs).map fun (s, rest) => ('\\' :: c :: s, rest)
  | c :: cs =>
    if c = quote then some ([], cs)
    else if c = '\\' then none
    else (closeQuote quote cs).map fun (s, rest) => (c :: s, rest)

/-- The string literals of a line, each with its quotes. -/
def literals : Nat → List Char → List (List Char)
  | 0, _ => []
  | _, [] => []
  | fuel + 1, c :: cs =>
    if c = '\'' || c = '"' then
      match closeQuote c cs with
      | some (s, rest) => (c :: s ++ [c]) :: literals fuel rest
      | none => literals fuel cs
    else literals fuel cs

/-- Reports string literals in which a known variable follows the reference symbol directly. -/
def unguardedVariable (design : DesignConfig) (c : Context) (e : Element) (path : String) :
    List Finding :=
  match e with
  | .block b =>
    if design.referenceSymbol = "" || c.file.isNone then []
    else
      let names := (c.vars ++ design.defaultVariables).filter (· != "")
      (numbered c.lines).flatMap fun (line, n) =>
        (literals line.length line.toList).filterMap fun lit =>
          let inner := (lit.drop 1).dropLast
          if names.any fun x => Text.occursIn (design.referenceSymbol ++ x).toList inner then
            some (lineFinding "implementation_unguarded_variable" b path (String.ofList lit) n)
          else none
  | _ => []

end InfraSmells.Design
