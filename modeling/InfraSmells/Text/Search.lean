import InfraSmells.Text.Bytes

/-!
# Finding and cutting

Substring search, cutting at a separator and splitting, on the characters of a text. Each function
is stated on `List Char`; the forms on `String` apply it to the characters.
-/

namespace InfraSmells.Text

/-- The rest of `cs` after the beginning `p`, if `cs` begins with `p`. -/
def afterStart : List Char → List Char → Option (List Char)
  | [], cs => some cs
  | _ :: _, [] => none
  | p :: ps, c :: cs => if p = c then afterStart ps cs else none

/-- Does `cs` begin with `p`? -/
def beginsWith (p cs : List Char) : Bool :=
  (afterStart p cs).isSome

/-- The part of `cs` before the first occurrence of `needle`, and the part after it. -/
def cutAt (needle : List Char) : List Char → Option (List Char × List Char)
  | [] => if needle.isEmpty then some ([], []) else none
  | c :: cs =>
    match afterStart needle (c :: cs) with
    | some rest => some ([], rest)
    | none => (cutAt needle cs).map fun (before, rest) => (c :: before, rest)

/-- Does `needle` occur in `cs`? -/
def occursIn (needle cs : List Char) : Bool :=
  (cutAt needle cs).isSome

/-- The pieces of `cs` between the separators `sep`: always one more than there are separators. -/
def splitChars (sep : Char) : List Char → List (List Char)
  | [] => [[]]
  | c :: cs =>
    if c = sep then [] :: splitChars sep cs
    else
      match splitChars sep cs with
      | [] => [[c]]
      | piece :: pieces => (c :: piece) :: pieces

/-- The pieces of `cs` between blanks and newlines, without empty ones. -/
def words (cs : List Char) : List (List Char) :=
  ((splitChars '\n' cs).flatMap (splitChars ' ')).filter (!·.isEmpty)

/-- Does the text begin with `p`? -/
def startsWith (s p : String) : Bool :=
  beginsWith p.toList s.toList

/-- Does the text end with `p`? -/
def endsWith (s p : String) : Bool :=
  beginsWith p.toList.reverse s.toList.reverse

/-- Does `needle` occur in the text? -/
def contains (s needle : String) : Bool :=
  occursIn needle.toList s.toList

/-- The text before the first `sep`, or the whole text. -/
def before (sep s : String) : String :=
  match cutAt sep.toList s.toList with
  | some (head, _) => String.ofList head
  | none => s

/-- The text after the first `sep`, if there is one. -/
def after? (sep s : String) : Option String :=
  (cutAt sep.toList s.toList).map fun (_, rest) => String.ofList rest

/-- The text without the beginning `p`, if it has it. -/
def dropStart? (p s : String) : Option String :=
  (afterStart p.toList s.toList).map String.ofList

/-- The text without the beginning `p`, or the text itself. -/
def dropStart (p s : String) : String :=
  (dropStart? p s).getD s

/-- The text without the end `p`, or the text itself. -/
def dropEnd (p s : String) : String :=
  match afterStart p.toList.reverse s.toList.reverse with
  | some rest => String.ofList rest.reverse
  | none => s

/-- The pieces of a text between the separators. -/
def split (sep : Char) (s : String) : List String :=
  (splitChars sep s.toList).map String.ofList

/-- The texts with `sep` between neighbours. -/
def join (sep : String) : List String → String
  | [] => ""
  | [s] => s
  | s :: rest => s ++ sep ++ join sep rest

/-- The lines of a text, each with the newline that ends it; only the last may lack one. -/
def linesOf : List Char → List (List Char)
  | [] => []
  | c :: cs =>
    if c = '\n' then ['\n'] :: linesOf cs
    else
      match linesOf cs with
      | [] => [[c]]
      | line :: lines => (c :: line) :: lines

/-- Pads a text with blanks on the left to a width in characters. -/
def padLeft (width : Nat) (s : String) : String :=
  String.ofList (List.replicate (width - (characters s).length) ' ') ++ s

/-- Pads a text with blanks on the right to a width in characters. -/
def padRight (width : Nat) (s : String) : String :=
  s ++ String.ofList (List.replicate (width - (characters s).length) ' ')

end InfraSmells.Text
