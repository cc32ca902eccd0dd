import InfraSmells.Datum.Basic
import InfraSmells.Text.Case
import InfraSmells.Text.Quoted

/-!
# JSON

`Datum.ofJson?` reads a JSON text: exactly one value between white space, strings without raw
control characters, numbers without leading zeros, at most ten thousand levels of nesting. A lone
surrogate escape and an unreadable byte become U+FFFD. `Datum.toJson` writes a value on one line
and `Datum.toJsonIndented` with an indentation of two blanks; both escape the characters `<`, `>`
and `&` and the line separators.
-/

namespace InfraSmells.Json

/-- White space between tokens. -/
def isSpace (c : Char) : Bool :=
  c == ' ' || c == '\t' || c == '\n' || c == '\r'

/-- The value of a hexadecimal digit. -/
def hex? (c : Char) : Option Nat :=
  if Text.isDigit c || ('a' ≤ c && c ≤ 'f') || ('A' ≤ c && c ≤ 'F') then
    some (Text.hexDigitValue c)
  else none

/-- Four hexadecimal digits and the rest. -/
def hex4? : List Char → Option (Nat × List Char)
  | a :: b :: c :: d :: rest => do
    let a ← hex? a
    let b ← hex? b
    let c ← hex? c
    let d ← hex? d
    return (((a * 16 + b) * 16 + c) * 16 + d, rest)
  | _ => none

/-- The character of an escape of one letter. -/
def escape? : Char → Option Char
  | '"' => some '"'
  | '\\' => some '\\'
  | '/' => some '/'
  | 'b' => some (Char.ofNat 8)
  | 'f' => some (Char.ofNat 12)
  | 'n' => some '\n'
  | 'r' => some '\r'
  | 't' => some '\t'
  | _ => none

/-- Is the number a high half of a surrogate pair? -/
def isHigh (n : Nat) : Bool :=
  0xD800 ≤ n && n ≤ 0xDBFF

/-- Is the number a low half of a surrogate pair? -/
def isLow (n : Nat) : Bool :=
  0xDC00 ≤ n && n ≤ 0xDFFF

/-- The characters of a string after its opening quote, and the rest after its closing quote. -/
def readString : Nat → List Char → Option (List Char × List Char)
  | 0, _ => none
  | _, [] => none
  | fuel + 1, c :: cs =>
    if c == '"' then some ([], cs)
    else if c.toNat < 0x20 then none
    else if c == '\\' then
      match cs with
      | 'u' :: cs => do
        let (n, rest) ← hex4? cs
        match isHigh n, rest with
        | true, '\\' :: 'u' :: cs =>
          let (m, rest') ← hex4? cs
          if isLow m then
            let (s, rest) ← readString fuel rest'
            return (Char.ofNat (0x10000 + (n - 0xD800) * 0x400 + (m - 0xDC00)) :: s, rest)
          else
            let (s, rest) ← readString fuel rest
            return (Text.replacement :: s, rest)
        | high, rest =>
          let (s, rest) ← readString fuel rest
          return ((if high || isLow n then Text.replacement else Char.ofNat n) :: s, rest)
      | e :: cs => do
        let c ← escape? e
        let (s, rest) ← readString fuel cs
        return (c :: s, rest)
      | [] => none
    else do
      let (s, rest) ← readString fuel cs
      return (c :: s, rest)

/-- The value of decimal digits. -/
def digitsValue (ds : List Char) : Nat :=
  ds.foldl (fun n c => 10 * n + (c.toNat - '0'.toNat)) 0

/-- A fraction: the digits after a point, at least one. -/
def readFraction : List Char → Option (List Char × List Char)
  | '.' :: cs =>
    let ds := cs.takeWhile Text.isDigit
    if ds.isEmpty then none else some (ds, cs.dropWhile Text.isDigit)
  | cs => some ([], cs)

/-- An exponent, with whether one was written. -/
def readExponent : List Char → Option (Bool × Int × List Char)
  | c :: cs =>
    if c == 'e' || c == 'E' then
      let (negative, cs) := match cs with
        | '-' :: r => (true, r)
        | '+' :: r => (false, r)
        | r => (false, r)
      let ds := cs.takeWhile Text.isDigit
      if ds.isEmpty then none
      else
        let e : Int := digitsValue ds
        some (true, if negative then -e else e, cs.dropWhile Text.isDigit)
    else some (false, 0, c :: cs)
  | [] => some (false, 0, [])

/-- Is there a minus sign, and what stands behind it? -/
def readMinus : List Char → Bool × List Char
  | '-' :: cs => (true, cs)
  | cs => (false, cs)

/-- A number. -/
def readNumber (cs : List Char) : Option (Numeral × List Char) := do
  let (negative, cs) := readMinus cs
  let whole := cs.takeWhile Text.isDigit
  guard (!whole.isEmpty && (whole.length == 1 || whole.head? != some '0'))
  let (fraction, cs) ← readFraction (cs.dropWhile Text.isDigit)
  let (scaled, e, cs) ← readExponent cs
  let n := Numeral.decimal negative (digitsValue (whole ++ fraction)) (e - fraction.length)
    (fraction.isEmpty && !scaled)
  return (n, cs)

mutual

/-- A value, at most `depth` levels of lists and tables deep. -/
def readValue : Nat → Nat → List Char → Option (Datum × List Char)
  | 0, _, _ => none
  | fuel + 1, depth, cs =>
    match cs.dropWhile isSpace with
    | '"' :: cs => (readString (cs.length + 1) cs).map fun (s, rest) => (.text (Text.ofCharacters s), rest)
    | '{' :: cs =>
      if depth = 0 then none
      else
        match cs.dropWhile isSpace with
        | '}' :: rest => some (.table [], rest)
        | cs => (readMembers fuel (depth - 1) cs).map fun (ms, rest) => (.table ms, rest)
    | '[' :: cs =>
      if depth = 0 then none
      else
        match cs.dropWhile isSpace with
        | ']' :: rest => some (.list [], rest)
        | cs => (readItems fuel (depth - 1) cs).map fun (xs, rest) => (.list xs, rest)
    | 't' :: 'r' :: 'u' :: 'e' :: rest => some (.flag true, rest)
    | 'f' :: 'a' :: 'l' :: 's' :: 'e' :: rest => some (.flag false, rest)
    | 'n' :: 'u' :: 'l' :: 'l' :: rest => some (.null, rest)
    | cs => (readNumber cs).map fun (n, rest) => (.number n, rest)

/-- The items of a list, and the rest after the closing bracket. -/
def readItems : Nat → Nat → List Char → Option (List Datum × List Char)
  | 0, _, _ => none
  | fuel + 1, depth, cs => do
    let (d, cs) ← readValue fuel depth cs
    match cs.dropWhile isSpace with
    | ',' :: cs =>
      let (ds, rest) ← readItems fuel depth cs
      return (d :: ds, rest)
    | ']' :: rest => return ([d], rest)
    | _ => none

/-- The members of a table, and the rest after the closing brace. -/
def readMembers : Nat → Nat → List Char → Option (List (String × Datum) × List Char)
  | 0, _, _ => none
  | fuel + 1, depth, cs =>
    match cs.dropWhile isSpace with
    | '"' :: cs => do
      let (name, cs) ← readString (cs.length + 1) cs
      match cs.dropWhile isSpace with
      | ':' :: cs =>
        let (d, cs) ← readValue fuel depth cs
        match cs.dropWhile isSpace with
        | ',' :: cs =>
          let (ms, rest) ← readMembers fuel depth cs
          return ((Text.ofCharacters name, d) :: ms, rest)
        | '}' :: rest => return ([(Text.ofCharacters name, d)], rest)
        | _ => none
      | _ => none
    | _ => none

end

/-- The deepest nesting a JSON text may have. -/
def maxDepth : Nat := 10000

/-- One character of a written string. -/
def writeChar (c : Char) : List Char :=
  match c with
  | '"' => ['\\', '"']
  | '\\' => ['\\', '\\']
  | '\n' => ['\\', 'n']
  | '\r' => ['\\', 'r']
  | '\t' => ['\\', 't']
  | c =>
    if c.toNat == 8 then ['\\', 'b']
    else if c.toNat == 12 then ['\\', 'f']
    else if c.toNat < 0x20 || c == '<' || c == '>' || c == '&' || c.toNat == 0x2028 ||
        c.toNat == 0x2029 then
      '\\' :: 'u' :: Text.hexDigits 4 c.toNat
    else [c]

/-- A written string. -/
def writeString (s : String) : String :=
  Text.ofCharacters ('"' :: (Text.characters s).flatMap writeChar ++ ['"'])

/-- A written number. -/
def writeNumber : Numeral → String
  | .integer n => toString n
  | .float x => x.text .document
  | .single x => x.toBinary64.text .document
  | .decimal negative mantissa exponent _ =>
    (Binary64.ofDecimal negative mantissa exponent).text .document

/-- A line break and the indentation of a level. -/
def newline (level : Nat) : String :=
  String.ofList ('\n' :: List.replicate (2 * level) ' ')

/-- The written items between brackets; `level` is the indentation inside, if lines are broken. -/
def bracket (op cl : String) (level : Option Nat) (written : List String) : String :=
  match written, level with
  | [], _ => op ++ cl
  | ws, none => op ++ Text.join "," ws ++ cl
  | ws, some n => op ++ newline (n + 1) ++ Text.join ("," ++ newline (n + 1)) ws ++ newline n ++ cl

mutual

/-- Writes a value; `level` is the indentation it starts at, if lines are broken. -/
def write (level : Option Nat) : Datum → String
  | .null | .other => "null"
  | .flag b => if b then "true" else "false"
  | .number n => writeNumber n
  | .text s => writeString s
  | .instant s => writeString s
  | .bytes bs => writeString (Text.ofBytes bs)
  | .list xs => bracket "[" "]" level (writeItems (level.map (· + 1)) xs)
  | .tables xs => bracket "[" "]" level (writeItems (level.map (· + 1)) xs)
  | .table ms => bracket "\x7b" "\x7d" level (writeMembers (level.map (· + 1)) ms)

/-- Writes the items of a list. -/
def writeItems (level : Option Nat) : List Datum → List String
  | [] => []
  | d :: ds => write level d :: writeItems level ds

/-- Writes the members of a table. -/
def writeMembers (level : Option Nat) : List (String × Datum) → List String
  | [] => []
  | (k, d) :: ms =>
    (writeString k ++ (if level.isSome then ": " else ":") ++ write level d) ::
      writeMembers level ms

end

end InfraSmells.Json

namespace InfraSmells.Datum

/-- The value of a JSON text. -/
def ofJson? (s : String) : Option Datum := do
  let cs := Text.characters s
  let (d, rest) ← Json.readValue (cs.length + 1) Json.maxDepth cs
  guard (rest.all Json.isSpace)
  return d

/-- The JSON text of a datum, on one line. -/
def toJson (d : Datum) : String :=
  Json.write none d

/-- The JSON text of a datum, broken into lines. -/
def toJsonIndented (d : Datum) : String :=
  Json.write (some 0) d

end InfraSmells.Datum
