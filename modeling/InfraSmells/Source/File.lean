import InfraSmells.Text.Bytes
import InfraSmells.Text.Search

/-!
# Source files

A source file is UTF-8 text. One byte order mark at its beginning is dropped, and a carriage return
directly before a newline is dropped with it, so that lines end in a single newline. Lines keep
their newline; `SourceFile.line` gives a line by its number, counted from one, without it.
-/

namespace InfraSmells

/-- The text of a source file. -/
structure SourceFile where
  path : String
  text : String
  /-- The lines, each with the newline that ends it. -/
  lines : List String
  /-- Did a byte order mark stand at the beginning? -/
  hadMark : Bool
  /-- Was a carriage return dropped? -/
  hadReturns : Bool
  deriving DecidableEq, Repr, Inhabited

namespace SourceFile

/-- The bytes behind a byte order mark, if there is one at the beginning. -/
def afterMark? : List UInt8 → Option (List UInt8)
  | 0xEF :: 0xBB :: 0xBF :: rest => some rest
  | _ => none

/-- The characters without the carriage returns that stand directly before a newline. -/
def dropReturns : List Char → List Char
  | [] => []
  | '\r' :: '\n' :: cs => '\n' :: dropReturns cs
  | c :: cs => c :: dropReturns cs

/-- The source file of a byte sequence; there is none if the bytes are no text. -/
def ofBytes? (path : String) (bytes : List UInt8) : Option SourceFile :=
  let content := (afterMark? bytes).getD bytes
  if Text.isUtf8 content then
    let raw := (Text.ofBytes content).toList
    let text := dropReturns raw
    some
      { path := path
        text := String.ofList text
        lines := (Text.linesOf text).map String.ofList
        hadMark := (afterMark? bytes).isSome
        hadReturns := text.length != raw.length }
  else none

/-- The message for a file that is no text. -/
def notTextMessage (path : String) : String :=
  path ++ ": file is not valid UTF-8 text"

/-- The line of a number, counted from one, without its newline; empty if there is none. -/
def line (f : SourceFile) (n : Int) : String :=
  if n < 1 then "" else Text.dropEnd "\n" (f.lines[n.toNat - 1]?.getD "")

end SourceFile

end InfraSmells
