import InfraSmells.Text.Blank

/-!
# Comma-separated values

A row is a list of fields between commas, ended by a newline. A field is written between quotes when
it holds a comma, a quote, a carriage return or a newline, begins with a blank, or is the mark `\.`
of an end of data; a quote inside quotes is written twice.
-/

namespace InfraSmells.Csv

/-- Must the field stand between quotes? -/
def needsQuotes (field : List Char) : Bool :=
  field.any (fun c => c == ',' || c == '"' || c == '\r' || c == '\n') ||
    field.head?.any Text.isBlank || field == ['\\', '.']

/-- A field whose quotes are written twice. -/
def doubled : List Char → List Char
  | [] => []
  | c :: cs => if c = '"' then '"' :: '"' :: doubled cs else c :: doubled cs

/-- A written field. -/
def writeField (field : List Char) : List Char :=
  if needsQuotes field then '"' :: doubled field ++ ['"'] else field

/-- Written fields with commas between them. -/
def writeFields : List (List Char) → List Char
  | [] => []
  | [f] => writeField f
  | f :: fs => writeField f ++ ',' :: writeFields fs

/-- A written row. -/
def row (fields : List String) : String :=
  String.ofList (writeFields (fields.map String.toList) ++ ['\n'])

end InfraSmells.Csv
