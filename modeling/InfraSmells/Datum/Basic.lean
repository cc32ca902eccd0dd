import InfraSmells.Decimal.Binary32
import InfraSmells.Text.Bytes
import InfraSmells.Text.Search

/-!
# Data of documents and configurations

`Datum` is what a data format can write: the readers of the formats produce it and the writers
consume it. Members of a table keep the order in which they stand. A number keeps what its format
fixed of it: a decimal text has a value only once a use asks for an integer or for a
floating-point number.
-/

namespace InfraSmells

/-- A number as a format writes it. -/
inductive Numeral where
  /-- A decimal text `± mantissa * 10 ^ exponent`; it is `whole` when it has neither a fraction
  nor an exponent. -/
  | decimal (negative : Bool) (mantissa : Nat) (exponent : Int) (whole : Bool)
  /-- A binary integer. -/
  | integer (n : Int)
  /-- A binary floating-point number. -/
  | float (x : Binary64)
  /-- A binary floating-point number of 32 bits. -/
  | single (x : Binary32)
  deriving DecidableEq, Repr

/-- Data that a format can write. -/
inductive Datum where
  | null
  | flag (b : Bool)
  | number (n : Numeral)
  | text (s : String)
  | bytes (bs : List UInt8)
  /-- A date or time, with its text. -/
  | instant (s : String)
  | list (items : List Datum)
  /-- A list of tables that the format writes as such, one header per table. -/
  | tables (items : List Datum)
  | table (members : List (String × Datum))
  /-- Data a format can write but no use accepts. -/
  | other
  deriving Repr, Inhabited

namespace Numeral

/-- The 64-bit integer a number stands for: a decimal text must be whole, and a binary integer
wraps around. -/
def toInt64? : Numeral → Option Int
  | .decimal negative mantissa _ whole =>
    let n : Int := if negative then -(mantissa : Int) else mantissa
    if whole && -twoPow 63 ≤ n && n < twoPow 63 then some n else none
  | .integer n => some (n.bmod (twoPow 64))
  | .float _ | .single _ => none

/-- The floating-point number nearest to a number; a decimal text past the largest has none. -/
def toBinary64? : Numeral → Option Binary64
  | .decimal negative mantissa exponent _ =>
    let x := Binary64.ofDecimal negative mantissa exponent
    if x.isFinite then some x else none
  | .integer n => some (.ofInt n)
  | .float x => some x
  | .single x => some x.toBinary64

/-- The number as a message shows it. -/
def message : Numeral → String
  | .decimal negative mantissa exponent _ =>
    (Binary64.ofDecimal negative mantissa exponent).text .message
  | .integer n => toString n
  | .float x => x.text .message
  | .single x => x.text .message

end Numeral

namespace Datum

/-- The members of a table, no others. -/
def members : Datum → List (String × Datum)
  | .table ms => ms
  | _ => []

/-- The items of a list, no others. -/
def items : Datum → List Datum
  | .list xs => xs
  | .tables xs => xs
  | _ => []

/-- The last member of a given name. -/
def get? (d : Datum) (name : String) : Option Datum :=
  (d.members.reverse.find? (·.1 == name)).map Prod.snd

/-- The text of a datum that is one. -/
def text? : Datum → Option String
  | .text s => some s
  | _ => none

/-- Inserts a member into members sorted by name, replacing one of the same name. -/
def insertMember (m : String × Datum) : List (String × Datum) → List (String × Datum)
  | [] => [m]
  | x :: xs =>
    match Text.compareText m.1 x.1 with
    | .lt => m :: x :: xs
    | .eq => m :: xs
    | .gt => x :: insertMember m xs

/-- Members sorted by name, the last of each name. -/
def sortMembers (ms : List (String × Datum)) : List (String × Datum) :=
  ms.foldl (fun sorted m => insertMember m sorted) []

mutual

/-- The datum with the members of every table sorted by name, the last of each name. -/
def normalize : Datum → Datum
  | .list xs => .list (normalizeItems xs)
  | .tables xs => .tables (normalizeItems xs)
  | .table ms => .table (sortMembers (normalizeMembers ms))
  | d => d

/-- `normalize` on the items of a list. -/
def normalizeItems : List Datum → List Datum
  | [] => []
  | d :: ds => d.normalize :: normalizeItems ds

/-- `normalize` on the values of members. -/
def normalizeMembers : List (String × Datum) → List (String × Datum)
  | [] => []
  | (k, d) :: ms => (k, d.normalize) :: normalizeMembers ms

end

mutual

/-- Does the datum hold only numbers that a decimal text can write? -/
def isWritable : Datum → Bool
  | .number (.float x) => x.isFinite
  | .number (.single x) => x.toBinary64.isFinite
  | .list xs => allWritable xs
  | .tables xs => allWritable xs
  | .table ms => membersWritable ms
  | _ => true

/-- `isWritable` of every item. -/
def allWritable : List Datum → Bool
  | [] => true
  | d :: ds => d.isWritable && allWritable ds

/-- `isWritable` of every member. -/
def membersWritable : List (String × Datum) → Bool
  | [] => true
  | (_, d) :: ms => d.isWritable && membersWritable ms

end

mutual

/-- The datum as a message shows it: lists between brackets, tables as `map[name:value …]`. -/
def message : Datum → String
  | .null => "<nil>"
  | .flag b => if b then "true" else "false"
  | .number n => n.message
  | .text s => s
  | .bytes bs => "[" ++ Text.join " " (bs.map fun b => toString b.toNat) ++ "]"
  | .instant s => s
  | .list xs => "[" ++ Text.join " " (messageItems xs) ++ "]"
  | .tables xs => "[" ++ Text.join " " (messageItems xs) ++ "]"
  | .table ms => "map[" ++ Text.join " " (messageMembers ms) ++ "]"
  | .other => "<nil>"

/-- `message` of every item. -/
def messageItems : List Datum → List String
  | [] => []
  | d :: ds => d.message :: messageItems ds

/-- `message` of every member. -/
def messageMembers : List (String × Datum) → List String
  | [] => []
  | (k, d) :: ms => (k ++ ":" ++ d.message) :: messageMembers ms

end

/-- The name a message gives to the type of a datum. -/
def typeName : Datum → String
  | .null | .other => "<nil>"
  | .flag _ => "bool"
  | .number (.integer _) => "int64"
  | .number _ => "float64"
  | .text _ => "string"
  | .bytes _ => "[]uint8"
  | .instant _ => "time.Time"
  | .list _ => "[]interface \x7b\x7d"
  | .tables _ => "[]map[string]interface \x7b\x7d"
  | .table _ => "map[string]interface \x7b\x7d"

end Datum

end InfraSmells
