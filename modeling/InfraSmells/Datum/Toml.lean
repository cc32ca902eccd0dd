import InfraSmells.Datum.Instant
import InfraSmells.Datum.Json
import InfraSmells.Decimal.Integer

/-!
# TOML

`Datum.ofToml?` reads a TOML document. `Toml.Tables` holds what has been read so far: every line adds
to it, and a line that defines a key twice is refused. A table that was only implied by a longer key
may still be opened by a header of its own, and a key whose value is written as a list may be given a
value again.
-/

namespace InfraSmells.Toml

/-- The members of a table. -/
abbrev Members := List (String × Datum)

/-- The value of a name. -/
def find? (name : String) (ms : Members) : Option Datum :=
  (ms.find? (·.1 == name)).map Prod.snd

/-- Sets the value of a name, in its place or at the end. -/
def set (name : String) (d : Datum) : Members → Members
  | [] => [(name, d)]
  | m :: ms => if m.1 = name then (name, d) :: ms else m :: set name d ms

/-- The members of the table that a value leads to: its own, or those of the last table of a list of
tables. -/
def tableOf? : Datum → Option Members
  | .table ms => some ms
  | .tables xs => xs.getLast?.map Datum.members
  | _ => none

/-- The value with new members for the table it leads to. -/
def withTable (ms : Members) : Datum → Datum
  | .tables xs => .tables (xs.dropLast ++ [.table ms])
  | _ => .table ms

/-- Changes the table at the end of a path. -/
def change (f : Members → Option Members) : List String → Members → Option Members
  | [], ms => f ms
  | name :: path, ms => do
    let d ← find? name ms
    let inner ← tableOf? d
    return set name (withTable (← change f path inner) d) ms

/-- The members of the table at the end of a path. -/
def membersAt? (ms : Members) (path : List String) : Option Members :=
  path.foldlM (fun ms name => (find? name ms).bind tableOf?) ms

/-- The tables read so far. -/
structure Tables where
  root : Members := []
  /-- Tables that a longer key implied and no line has opened. -/
  implied : List (List String) := []
  /-- Keys whose value is written as a list. -/
  lists : List (List String) := []
  deriving Inhabited

namespace Tables

/-- Notes a table as implied. -/
def imply (t : Tables) (path : List String) : Tables :=
  { t with implied := path :: t.implied }

/-- Notes whether the value of a key is written as a list. -/
def note (t : Tables) (path : List String) (isList : Bool) : Tables :=
  let others := t.lists.filter (· != path)
  { t with lists := if isList then path :: others else others }

/-- The path of a key in the table `context`; a key without a name stands for the table. -/
def keyPath (context : List String) (key : String) : List String :=
  if key = "" then context else context ++ [key]

/-- Defines a key of the table at `context`. -/
def define (t : Tables) (context : List String) (key : String) (d : Datum) : Option Tables := do
  let path := context ++ [key]
  let opened := { t with implied := t.implied.filter (· != path) }
  let put (ms : Members) : Option Members := some (set key d ms)
  let members ← membersAt? t.root context
  if (find? key members).isNone then return { t with root := ← change put context t.root }
  else if t.lists.contains path then return { opened with root := ← change put context t.root }
  else if t.implied.contains path then return opened
  else failure

/-- Makes the tables on the way to the end of `path`, `before` being the part already there. -/
def makeParents (t : Tables) (before : List String) : List String → Option Tables
  | [] => some t
  | [_] => some t
  | name :: path => do
    let inner ← membersAt? t.root before
    let here := before ++ [name]
    match find? name inner with
    | some d =>
      let _ ← tableOf? d
      t.makeParents here path
    | none =>
      let root ← change (fun ms => some (set name (.table []) ms)) before t.root
      ({ t with root := root }.imply here).makeParents here path

/-- Opens a table, or adds one to a list of tables. -/
def enter (t : Tables) (path : List String) (asItem : Bool) : Option Tables := do
  let key ← path.getLast?
  let t ← t.makeParents [] path
  let context := path.dropLast
  if asItem then
    let add (ms : Members) : Option Members :=
      match find? key ms with
      | none => some (set key (.tables [.table []]) ms)
      | some (.tables xs) => some (set key (.tables (xs ++ [.table []])) ms)
      | some _ => none
    return { t with root := ← change add context t.root }
  else t.define context key (.table [])

end Tables

/-- A blank or a tab. -/
def isGap (c : Char) : Bool :=
  c == ' ' || c == '\t'

/-- A blank, a tab or the end of a line. -/
def isSpace (c : Char) : Bool :=
  isGap c || c == '\n' || c == '\r'

/-- A character of a key without quotes. -/
def isBareChar (c : Char) : Bool :=
  Text.isWordChar c || c == '-'

/-- May the text be part of a document? It holds no control character but tabs and the ends of lines,
and no carriage return that ends no line. -/
def isClean : List Char → Bool
  | [] => true
  | '\r' :: cs => cs.head? == some '\n' && isClean cs
  | c :: cs =>
    (c == '\t' || c == '\n' || (0x20 ≤ c.toNat && c.toNat != 0x7F)) && isClean cs

/-- The value of `n` hexadecimal digits at the head of `cs`, and the rest. -/
def hexDigits? (n : Nat) (cs : List Char) : Option (Nat × List Char) :=
  let ds := cs.take n
  if ds.length = n && ds.all (fun c => (Json.hex? c).isSome) then
    some (Text.hexValue ds, cs.drop n)
  else none

/-- The character behind a backslash, and the rest. -/
def readEscape : List Char → Option (Char × List Char)
  | [] => none
  | c :: cs =>
    let code (n : Nat) : Option (Char × List Char) := do
      let (v, rest) ← hexDigits? n cs
      guard (v < 0xD800 || (0xDFFF < v && v < 0x110000))
      return (Char.ofNat v, rest)
    match c with
    | 'u' => code 4
    | 'U' => code 8
    | '/' => none
    | c => (Json.escape? c).map fun e => (e, cs)

/-- The rest of `cs` behind a line that ends here and the white space after it. -/
def afterLineEnd? (cs : List Char) : Option (List Char) :=
  let gap := cs.takeWhile isSpace
  if gap.contains '\n' then some (cs.dropWhile isSpace) else none

/-- The characters of a string up to its closing quote. -/
def readBasic : Nat → List Char → Option (List Char × List Char)
  | 0, _ => none
  | _, [] => none
  | _, '"' :: rest => some ([], rest)
  | fuel + 1, '\\' :: cs => do
    let (c, cs) ← readEscape cs
    let (s, rest) ← readBasic fuel cs
    return (c :: s, rest)
  | fuel + 1, c :: cs => do
    guard (c != '\n' && c != '\r')
    let (s, rest) ← readBasic fuel cs
    return (c :: s, rest)

/-- The characters of a string over several lines. Up to two quotes may stand before the closing
three. -/
def readLong (quote : Char) (escapes : Bool) : Nat → List Char → Option (List Char × List Char)
  | 0, _ => none
  | _, [] => none
  | fuel + 1, c :: cs =>
    if c = quote then
      let run := (c :: cs).takeWhile (· == quote)
      let rest := (c :: cs).dropWhile (· == quote)
      if run.length < 3 then do
        let (s, rest) ← readLong quote escapes fuel cs
        return (c :: s, rest)
      else if run.length ≤ 5 then some (List.replicate (run.length - 3) quote, rest)
      else none
    else if c = '\\' && escapes then
      match afterLineEnd? cs with
      | some cs => readLong quote escapes fuel cs
      | none => do
        let (e, cs) ← readEscape cs
        let (s, rest) ← readLong quote escapes fuel cs
        return (e :: s, rest)
    else do
      let (s, rest) ← readLong quote escapes fuel cs
      return (c :: s, rest)

/-- The characters of a string without escapes. -/
def readLiteral (cs : List Char) : Option (List Char × List Char) :=
  match cs.dropWhile (fun c => c != '\'' && c != '\n' && c != '\r') with
  | '\'' :: rest => some (cs.takeWhile (· != '\''), rest)
  | _ => none

/-- The text behind a line end at its very beginning. -/
def dropFirstLineEnd : List Char → List Char
  | '\n' :: cs => cs
  | '\r' :: '\n' :: cs => cs
  | cs => cs

/-- A string of any form. -/
def readString (cs : List Char) : Option (List Char × List Char) :=
  match cs with
  | '"' :: '"' :: '"' :: cs => readLong '"' true (cs.length + 1) (dropFirstLineEnd cs)
  | '\'' :: '\'' :: '\'' :: cs => readLong '\'' false (cs.length + 1) (dropFirstLineEnd cs)
  | '"' :: cs => readBasic (cs.length + 1) cs
  | '\'' :: cs => readLiteral cs
  | _ => none

/-- One part of a key. -/
def readName (cs : List Char) : Option (String × List Char) :=
  match cs.dropWhile isGap with
  | '"' :: cs => (readBasic (cs.length + 1) cs).map fun (s, rest) => (Text.ofCharacters s, rest)
  | '\'' :: cs => (readLiteral cs).map fun (s, rest) => (Text.ofCharacters s, rest)
  | cs =>
    let name := cs.takeWhile isBareChar
    if name.isEmpty then none else some (Text.ofCharacters name, cs.dropWhile isBareChar)

/-- The parts of a key up to the mark that ends it. -/
def readKey (mark : Char) : Nat → List Char → Option (List String × List Char)
  | 0, _ => none
  | fuel + 1, cs => do
    let (name, cs) ← readName cs
    match cs.dropWhile isGap with
    | '.' :: cs =>
      let (names, rest) ← readKey mark fuel cs
      return (name :: names, rest)
    | c :: rest => if c = mark then return ([name], rest) else none
    | [] => none

/-- Does every underscore stand behind a digit, and is the last character one? -/
def underscoresOk (token : List Char) : Bool :=
  let step (state : Bool × Bool) (c : Char) : Bool × Bool :=
    (state.1 && (c != '_' || state.2), (Json.hex? c).isSome)
  let (ok, last) := token.foldl step (true, false)
  ok && last

/-- Does the number begin with a zero that says nothing? -/
def hasLeadingZero : List Char → Bool
  | '0' :: c :: _ => !(c == 'b' || c == 'o' || c == 'x')
  | '-' :: '0' :: _ :: _ => true
  | '+' :: '0' :: _ :: _ => true
  | _ => false

/-- The value of digits of a base. -/
def digitsIn (base : Nat) (ds : List Char) : Nat :=
  ds.foldl (fun n c => base * n + Text.hexDigitValue c) 0

/-- An integer: decimal, or with a mark for its base. -/
def integer? (token : List Char) : Option Datum := do
  guard (underscoresOk token && !hasLeadingZero token)
  let ds := token.filter (· != '_')
  let n : Int := match ds with
    | '0' :: 'x' :: ds => digitsIn 16 ds
    | '0' :: 'o' :: ds => digitsIn 8 ds
    | '0' :: 'b' :: ds => digitsIn 2 ds
    | '-' :: ds => -(digitsIn 10 ds : Int)
    | '+' :: ds => digitsIn 10 ds
    | ds => digitsIn 10 ds
  guard (fitsInt64 n)
  return .number (.integer n)

/-- The parts of a number between points and exponent marks. -/
def floatParts (token : List Char) : List (List Char) :=
  (Text.splitChars '.' (token.map fun c => if c == 'e' || c == 'E' then '.' else c)).filter
    (!·.isEmpty)

/-- Is every point followed by a digit? -/
def pointsOk : List Char → Bool
  | [] => true
  | ['.'] => false
  | '.' :: c :: cs => Text.isDigit c && pointsOk (c :: cs)
  | _ :: cs => pointsOk cs

/-- A number with a fraction or an exponent. -/
def float? (token : List Char) : Option Datum := do
  let parts := floatParts token
  guard (parts.all underscoresOk && !(parts.head?.any hasLeadingZero) && pointsOk token)
  let ds := token.filter (· != '_')
  let (negative, ds) := match ds with
    | '-' :: r => (true, r)
    | '+' :: r => (false, r)
    | r => (false, r)
  let whole := ds.takeWhile Text.isDigit
  guard (!whole.isEmpty)
  let (fraction, ds) ← Json.readFraction (ds.dropWhile Text.isDigit)
  let (_, e, rest) ← Json.readExponent ds
  guard rest.isEmpty
  let x := Binary64.ofDecimal negative (Json.digitsValue (whole ++ fraction)) (e - fraction.length)
  guard x.isFinite
  return .number (.float x)

/-- A date or time. -/
def instant? (token : List Char) : Option Datum :=
  let spelled := (token.reverse.dropWhile (· == ' ')).reverse.map fun c =>
    if c == 'z' then 'Z' else if c == 't' || c == ' ' then 'T' else c
  (Instant.read? spelled).map fun t => .instant t.text

/-- A character of a date or time. -/
def isInstantChar (c : Char) : Bool :=
  Text.isDigit c || "-:Tt .Zz+".toList.contains c

/-- A character of a number with a fraction or an exponent. -/
def isFloatChar (c : Char) : Bool :=
  Text.isDigit c || "_.-+eE".toList.contains c

/-- A decimal number behind its `sign`. -/
def readDecimal (sign cs : List Char) : Option (Datum × List Char) :=
  let isPart (c : Char) : Bool := Text.isDigit c || c == '_'
  let ds := cs.takeWhile isPart
  match cs.dropWhile isPart with
  | c :: rest =>
    if c == '.' || c == 'e' || c == 'E' then
      (float? (sign ++ cs.takeWhile isFloatChar)).map fun d => (d, cs.dropWhile isFloatChar)
    else (integer? (sign ++ ds)).map fun d => (d, c :: rest)
  | [] => (integer? (sign ++ ds)).map fun d => (d, [])

/-- An integer of another base, behind its mark. -/
def readBased (base : Char) (isPart : Char → Bool) (cs : List Char) : Option (Datum × List Char) := do
  let isAny (c : Char) : Bool := isPart c || c == '_'
  guard (cs.head?.any isPart)
  let d ← integer? ('0' :: base :: cs.takeWhile isAny)
  return (d, cs.dropWhile isAny)

/-- A number, a date or a time that begins with a digit. -/
def readDigit (cs : List Char) : Option (Datum × List Char) :=
  let ds := cs.takeWhile Text.isDigit
  match ds, cs.dropWhile Text.isDigit with
  | ['0'], 'x' :: rest => readBased 'x' (fun c => (Json.hex? c).isSome) rest
  | ['0'], 'o' :: rest => readBased 'o' (fun c => '0' ≤ c && c ≤ '7') rest
  | ['0'], 'b' :: rest => readBased 'b' (fun c => c == '0' || c == '1') rest
  | ['0'], _ => readDecimal [] cs
  | _, c :: _ =>
    if c == '-' || c == ':' then
      (instant? (cs.takeWhile isInstantChar)).map fun d => (d, cs.dropWhile isInstantChar)
    else readDecimal [] cs
  | _, [] => readDecimal [] cs

/-- A number behind a sign. -/
def readSigned (sign : Char) (cs : List Char) : Option (Datum × List Char) :=
  match cs with
  | 'i' :: 'n' :: 'f' :: rest => some (.number (.float (.infinity (sign == '-'))), rest)
  | 'n' :: 'a' :: 'n' :: rest => some (.number (.float ⟨0x7FF8000000000001⟩), rest)
  | '0' :: c :: _ =>
    if c == 'b' || c == 'o' || c == 'x' then none else readDecimal [sign] cs
  | c :: _ => if Text.isDigit c then readDecimal [sign] cs else none
  | [] => none

/-- A value that is neither a list nor a table. -/
def readScalar (cs : List Char) : Option (Datum × List Char) :=
  match cs with
  | 't' :: 'r' :: 'u' :: 'e' :: rest =>
    if rest.head?.any Text.isLetter then none else some (.flag true, rest)
  | 'f' :: 'a' :: 'l' :: 's' :: 'e' :: rest =>
    if rest.head?.any Text.isLetter then none else some (.flag false, rest)
  | 'i' :: 'n' :: 'f' :: rest => some (.number (.float (.infinity false)), rest)
  | 'n' :: 'a' :: 'n' :: rest => some (.number (.float ⟨0x7FF8000000000001⟩), rest)
  | '+' :: rest => readSigned '+' rest
  | '-' :: rest => readSigned '-' rest
  | c :: _ =>
    if c == '"' || c == '\'' then
      (readString cs).map fun (s, rest) => (.text (Text.ofCharacters s), rest)
    else if Text.isDigit c then readDigit cs
    else none
  | [] => none

/-- The rest behind white space, ends of lines and comments. -/
def skipLines : Nat → List Char → List Char
  | 0, cs => cs
  | fuel + 1, cs =>
    match cs.dropWhile isSpace with
    | '#' :: cs => skipLines fuel (cs.dropWhile (· != '\n'))
    | cs => cs

/-- Puts a value at the end of a path of names, making the tables on the way. -/
def putAt (d : Datum) : List String → Members → Option Members
  | [], ms => some ms
  | [name], ms => some (set name d ms)
  | name :: path, ms =>
    match find? name ms with
    | none => do return set name (.table (← putAt d path [])) ms
    | some (.table inner) => do return set name (.table (← putAt d path inner)) ms
    | some _ => none

mutual

/-- The value of the key `key` of the table at `context`. -/
def readValue (context : List String) (key : String) (inList : Bool) :
    Nat → Tables → List Char → Option (Datum × Tables × List Char)
  | 0, _, _ => none
  | fuel + 1, t, cs =>
    match cs.dropWhile isGap with
    | '[' :: cs => do
      let (xs, t, rest) ← readItems context key fuel (t.note (Tables.keyPath context key) true) cs
      return (.list xs, t, rest)
    | '{' :: cs => do
      let inner := context ++ [key]
      let t ← (t.imply inner).enter inner inList
      match cs.dropWhile isGap with
      | '}' :: rest => return (.table [], t, rest)
      | cs =>
        let (ms, t, rest) ← readPairs inner fuel [] t cs
        return (.table ms, t, rest)
    | cs => do
      let (d, rest) ← readScalar cs
      return (d, t, rest)

/-- The items of a list up to its closing bracket. -/
def readItems (context : List String) (key : String) :
    Nat → Tables → List Char → Option (List Datum × Tables × List Char)
  | 0, _, _ => none
  | fuel + 1, t, cs =>
    match skipLines (cs.length + 1) cs with
    | ']' :: rest => some ([], t, rest)
    | cs => do
      let (d, t, cs) ← readValue context key true fuel t cs
      match skipLines (cs.length + 1) cs with
      | ']' :: rest => return ([d], t, rest)
      | ',' :: cs =>
        let (ds, t, rest) ← readItems context key fuel t cs
        return (d :: ds, t, rest)
      | _ => none

/-- The pairs of a table between braces, `ms` being those already read. -/
def readPairs (context : List String) :
    Nat → Members → Tables → List Char → Option (Members × Tables × List Char)
  | 0, _, _, _ => none
  | fuel + 1, ms, t, cs => do
    let (path, d, t, cs) ← readPair context fuel t cs
    let ms ← putAt d path ms
    match cs.dropWhile isGap with
    | '}' :: rest => return (ms, t, rest)
    | ',' :: cs => readPairs context fuel ms t cs
    | _ => none

/-- A key and its value, defined in the table at `context`. -/
def readPair (context : List String) :
    Nat → Tables → List Char → Option (List String × Datum × Tables × List Char)
  | 0, _, _ => none
  | fuel + 1, t, cs => do
    let (path, cs) ← readKey '=' (cs.length + 1) cs
    let key ← path.getLast?
    let open? (state : List String × Tables) (name : String) : Option (List String × Tables) := do
      let here := state.1 ++ [name]
      return (here, ← (state.2.imply here).enter here false)
    let (inner, t) ← path.dropLast.foldlM open? (context, t)
    let (d, t, rest) ← readValue inner key false fuel t cs
    let t ← t.define inner key d
    let isList := match d with
      | .list _ => true
      | _ => false
    return (path, d, t.note (Tables.keyPath inner key) isList, rest)

end

/-- The rest behind the end of a line, which may hold a comment. -/
def lineEnd? (cs : List Char) : Option (List Char) :=
  match cs.dropWhile isGap with
  | [] => some []
  | '\n' :: rest => some rest
  | '\r' :: '\n' :: rest => some rest
  | '#' :: rest => some (rest.dropWhile (· != '\n'))
  | _ => none

/-- Reads the lines of a document; `context` is the table that the last header opened. -/
def readLines : Nat → Tables → List String → List Char → Option Tables
  | 0, _, _, _ => none
  | fuel + 1, t, context, cs =>
    match skipLines (cs.length + 1) cs with
    | [] => some t
    | '[' :: '[' :: cs => do
      let (path, cs) ← readKey ']' (cs.length + 1) cs
      match cs with
      | ']' :: cs =>
        let t ← t.enter path true
        readLines fuel (t.note path false) path (← lineEnd? cs)
      | _ => none
    | '[' :: cs => do
      let (path, cs) ← readKey ']' (cs.length + 1) cs
      let t ← t.enter path false
      readLines fuel (t.note path false) path (← lineEnd? cs)
    | cs => do
      let (_, _, t, cs) ← readPair context (2 * cs.length + 2) t cs
      readLines fuel t context (← lineEnd? cs)

/-- The glyphs behind a byte order mark. -/
def dropMark : List Text.Glyph → List Text.Glyph
  | .char c :: gs => if c.toNat = 0xFEFF then gs else .char c :: gs
  | .byte 0xFF :: .byte 0xFE :: gs | .byte 0xFE :: .byte 0xFF :: gs => gs
  | gs => gs

/-- The characters of glyphs, if none is an unreadable byte. -/
def characters? (gs : List Text.Glyph) : Option (List Char) :=
  gs.mapM fun
    | .char c => some c
    | .byte _ => none

end InfraSmells.Toml

namespace InfraSmells

/-- Reads a TOML document, as the table of its keys. -/
def Datum.ofToml? (s : String) : Option Datum := do
  let cs ← Toml.characters? (Toml.dropMark (Text.glyphs s))
  guard (Toml.isClean cs)
  let t ← Toml.readLines (cs.length + 1) {} [] cs
  return .table t.root

end InfraSmells
