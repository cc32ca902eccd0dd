import InfraSmells.Csv.Basic

/-!
# Reading comma-separated values

`Csv.readRow` reads the first row of a text and says where a quote stands that may not stand there.
Empty lines in front are passed over, a carriage return counts as part of the newline behind it, and
one at the very end is dropped. A quoted field may hold newlines.
-/

namespace InfraSmells.Csv

/-- A place in a text. Lines and columns count from one, columns in bytes. -/
structure Position where
  line : Nat
  column : Nat
  deriving DecidableEq, Repr

/-- Why no row can be read. -/
inductive Fault where
  /-- There is no row. -/
  | noRow
  /-- A quote stands in a field that does not begin with one. -/
  | bareQuote (first : Nat) (at_ : Position)
  /-- A quoted field goes on behind its end, or has none. -/
  | strayQuote (first : Nat) (at_ : Position)
  deriving DecidableEq, Repr

/-- The message about a place in a row that begins on the line `first`. -/
def placeMessage (first : Nat) (p : Position) (text : String) : String :=
  (if first = p.line then "" else "record on line " ++ toString first ++ "; ") ++
    "parse error on line " ++ toString p.line ++ ", column " ++ toString p.column ++ ": " ++ text

/-- The message of a fault. -/
def Fault.message : Fault → String
  | .noRow => "EOF"
  | .bareQuote first p => placeMessage first p "bare \" in non-quoted-field"
  | .strayQuote first p => placeMessage first p "extraneous or missing \" in quoted-field"

/-- Where the reader of a row stands. -/
inductive Mode where
  | opening | bare | quoted
  /-- Behind a quote in a quoted field. -/
  | closed
  deriving DecidableEq, Repr

/-- The place behind a character. -/
def Position.after (p : Position) (c : Char) : Position :=
  { p with column := p.column + (Text.charBytes c).length }

/-- Reads the fields of a row that begins on the line `first`. `field` holds the characters of the
current field in reverse. -/
def readFields (first : Nat) :
    Position → Mode → List Char → List Char → Except Fault (List (List Char))
  | p, mode, field, [] =>
    if mode = .quoted then .error (.strayQuote first p) else .ok [field.reverse]
  | p, mode, field, c :: cs =>
    match mode with
    | .opening | .bare =>
      if c = ',' then do
        return field.reverse :: (← readFields first (p.after c) .opening [] cs)
      else if c = '\n' then .ok [field.reverse]
      else if c = '"' then
        if mode = .opening then readFields first (p.after c) .quoted [] cs
        else .error (.bareQuote first p)
      else readFields first (p.after c) .bare (c :: field) cs
    | .quoted =>
      if c = '"' then readFields first (p.after c) .closed field cs
      else if c = '\n' && !cs.isEmpty then
        readFields first ⟨p.line + 1, 1⟩ .quoted (c :: field) cs
      else readFields first (p.after c) .quoted (c :: field) cs
    | .closed =>
      if c = '"' then readFields first (p.after c) .quoted (c :: field) cs
      else if c = ',' then do
        return field.reverse :: (← readFields first (p.after c) .opening [] cs)
      else if c = '\n' then .ok [field.reverse]
      else .error (.strayQuote first { p with column := p.column - 1 })

/-- A line without the carriage return that belongs to its end. -/
def dropReturn (line : List Char) : List Char :=
  match line.reverse with
  | '\n' :: '\r' :: rest => ('\n' :: rest).reverse
  | '\r' :: rest => rest.reverse
  | _ => line

/-- The fields of the first row of a text. -/
def readRow (s : String) : Except Fault (List String) :=
  let lines := (Text.linesOf s.toList).map dropReturn
  let isEmpty (line : List Char) : Bool := line.isEmpty || line == ['\n']
  let skipped := (lines.takeWhile isEmpty).length
  match lines.drop skipped with
  | [] => .error .noRow
  | rest => (readFields (skipped + 1) ⟨skipped + 1, 1⟩ .opening [] rest.flatten).map
      (List.map String.ofList)

end InfraSmells.Csv
