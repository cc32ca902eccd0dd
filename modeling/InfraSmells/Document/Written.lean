import InfraSmells.Document.Record

/-!
# Written form of a record

`Record.toDatum` gives the table that stands for a record. The member `ir_type` is always written,
every other member only when it is not empty; the member `value` counts as empty in JSON when it
is null and in MessagePack also when it is the empty text, false or zero. The two members of an
entry of a hash are always written, as null when they hold no record.
-/

namespace InfraSmells

/-- Is the datum null, the empty text, false or zero? -/
def Datum.isEmptyValue : Datum → Bool
  | .null => true
  | .text s => s = ""
  | .flag b => !b
  | .number (.float x) => x.isZero
  | .number (.single x) => x.toBinary64.isZero
  | .number (.integer n) => n = 0
  | .number (.decimal _ mantissa _ _) => mantissa = 0
  | .list xs => xs.isEmpty
  | .table ms => ms.isEmpty
  | .bytes bs => bs.isEmpty
  | _ => false

namespace Record

/-- An integer member, unless it is zero. -/
def intMember (name : String) (n : Int) : List (String × Datum) :=
  if n = 0 then [] else [(name, .number (.integer n))]

/-- A text member, unless it is empty. -/
def textMember (name : String) (s : String) : List (String × Datum) :=
  if s = "" then [] else [(name, .text s)]

/-- A Boolean member, unless it is false. -/
def flagMember (name : String) (b : Bool) : List (String × Datum) :=
  if b then [(name, .flag true)] else []

/-- The member `value`. -/
def valueMember (enc : Encoding) (d : Datum) : List (String × Datum) :=
  let empty :=
    match enc, d with
    | .json, .null => true
    | .json, _ => false
    | .pack, d => d.isEmptyValue
  if empty then [] else [("value", d)]

/-- A member that holds a record, unless it holds none. -/
def linkMember (name : String) (d : Option Datum) : List (String × Datum) :=
  d.toList.map (name, ·)

/-- A member that holds a list, unless it is empty. -/
def listMember (name : String) (ds : List Datum) : List (String × Datum) :=
  if ds.isEmpty then [] else [(name, .list ds)]

variable (enc : Encoding)

mutual

/-- The table of a record. -/
def toDatum : Record → Datum
  | .mk
      kind line column endLine endColumn code name path type value expr nameExpr content
      names hasVariable isDefault items entries args receiver method operand left right
      condition otherwise pairs resources vars attributes dependencies statements
      comments unitBlocks modules blocks =>
    .table <|
      ("ir_type", .text kind) ::
      (intMember "line" line ++
      intMember "column" column ++
      intMember "end_line" endLine ++
      intMember "end_column" endColumn ++
      textMember "code" code ++
      textMember "name" name ++
      textMember "path" path ++
      textMember "type" type ++
      valueMember enc value ++
      linkMember "expr" (linkDatum expr) ++
      linkMember "name_expr" (linkDatum nameExpr) ++
      textMember "content" content ++
      listMember "names" (names.map .text) ++
      flagMember "has_variable" hasVariable ++
      flagMember "is_default" isDefault ++
      listMember "items" (listData items) ++
      listMember "entries" (entryData entries) ++
      listMember "args" (listData args) ++
      linkMember "receiver" (linkDatum receiver) ++
      textMember "method" method ++
      linkMember "operand" (linkDatum operand) ++
      linkMember "left" (linkDatum left) ++
      linkMember "right" (linkDatum right) ++
      linkMember "condition" (linkDatum condition) ++
      linkMember "else_statement" (linkDatum otherwise) ++
      listMember "keyvalues" (listData pairs) ++
      listMember "atomic_units" (listData resources) ++
      listMember "variables" (listData vars) ++
      listMember "attributes" (listData attributes) ++
      listMember "dependencies" (listData dependencies) ++
      listMember "statements" (listData statements) ++
      listMember "comments" (listData comments) ++
      listMember "unit_blocks" (listData unitBlocks) ++
      listMember "modules" (listData modules) ++
      listMember "blocks" (listData blocks))

/-- The table of a record, if there is one. -/
def linkDatum : Option Record → Option Datum
  | none => none
  | some r => some (toDatum r)

/-- The tables of a list of records. -/
def listData : List (Option Record) → List Datum
  | [] => []
  | none :: rs => .null :: listData rs
  | some r :: rs => toDatum r :: listData rs

/-- The tables of the entries of a hash. -/
def entryData : List (Option Record × Option Record) → List Datum
  | [] => []
  | (k, v) :: es =>
    .table [("key", (linkDatum k).getD .null), ("value", (linkDatum v).getD .null)] ::
      entryData es

end

end Record

end InfraSmells
