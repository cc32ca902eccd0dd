import InfraSmells.Datum.Basic
import InfraSmells.Text.Case

/-!
# Records of a document

A document writes every element of a tree as one kind of record: a table with a member `ir_type`
that names the kind of element and members that hold its parts. `Record.ofDatum` reads a record
and the records nested in it, checking the type of every known member whether the kind of element
uses it or not; `Record.toDatum` writes a record, leaving out the members that are empty.

The two document formats differ in a few rules, which `Encoding` selects. In JSON the names of
members are compared ignoring case; in MessagePack they are compared as they are, raw bytes serve
as text, and a list of all members in order serves as a record. A repeated member is read on top
of what the earlier one gave; in MessagePack a value cannot be read on top of another, and reading
breaks down where it would have to be.
-/

namespace InfraSmells

/-- The two encodings of a document. -/
inductive Encoding where
  | json | pack
  deriving DecidableEq, Repr

/-- Why a record cannot be read. -/
inductive RecordFault where
  /-- A member has the wrong type. -/
  | refused
  /-- A value would have to be read on top of another. -/
  | breakdown
  deriving DecidableEq, Repr

/-- The value of an option, or the refusal of a member. -/
def RecordFault.orRefuse {α : Type} : Option α → Except RecordFault α
  | some x => .ok x
  | none => .error .refused

/-- One element of a document as it is written. -/
structure Record where
  kind : String := ""
  line : Int := 0
  column : Int := 0
  endLine : Int := 0
  endColumn : Int := 0
  code : String := ""
  name : String := ""
  path : String := ""
  type : String := ""
  value : Datum := .null
  expr : Option Record := none
  nameExpr : Option Record := none
  content : String := ""
  names : List String := []
  hasVariable : Bool := false
  isDefault : Bool := false
  items : List (Option Record) := []
  entries : List (Option Record × Option Record) := []
  args : List (Option Record) := []
  receiver : Option Record := none
  method : String := ""
  operand : Option Record := none
  left : Option Record := none
  right : Option Record := none
  condition : Option Record := none
  otherwise : Option Record := none
  pairs : List (Option Record) := []
  resources : List (Option Record) := []
  vars : List (Option Record) := []
  attributes : List (Option Record) := []
  dependencies : List (Option Record) := []
  statements : List (Option Record) := []
  comments : List (Option Record) := []
  unitBlocks : List (Option Record) := []
  modules : List (Option Record) := []
  blocks : List (Option Record) := []

instance : Inhabited Record := ⟨{}⟩

/-- The members that hold no record. -/
inductive ScalarField where
  | kind | line | column | endLine | endColumn | code | name | path | type | value | content
  | names | hasVariable | isDefault | method
  deriving DecidableEq, Repr

/-- The members that hold one record. -/
inductive LinkField where
  | expr | nameExpr | receiver | operand | left | right | condition | otherwise
  deriving DecidableEq, Repr

/-- The members that hold a list of records. -/
inductive ListField where
  | items | args | pairs | resources | vars | attributes | dependencies | statements
  | comments | unitBlocks | modules | blocks
  deriving DecidableEq, Repr

/-- The members of a record. -/
inductive Field where
  | scalar (f : ScalarField)
  | link (f : LinkField)
  | list (f : ListField)
  | entries
  deriving DecidableEq, Repr

/-- The members with their written names, in the order in which they are written. -/
def Field.table : List (String × Field) :=
  [("ir_type", .scalar .kind), ("line", .scalar .line), ("column", .scalar .column),
    ("end_line", .scalar .endLine), ("end_column", .scalar .endColumn), ("code", .scalar .code),
    ("name", .scalar .name), ("path", .scalar .path), ("type", .scalar .type),
    ("value", .scalar .value), ("expr", .link .expr), ("name_expr", .link .nameExpr),
    ("content", .scalar .content), ("names", .scalar .names),
    ("has_variable", .scalar .hasVariable), ("is_default", .scalar .isDefault),
    ("items", .list .items), ("entries", .entries), ("args", .list .args),
    ("receiver", .link .receiver), ("method", .scalar .method), ("operand", .link .operand),
    ("left", .link .left), ("right", .link .right), ("condition", .link .condition),
    ("else_statement", .link .otherwise), ("keyvalues", .list .pairs),
    ("atomic_units", .list .resources), ("variables", .list .vars),
    ("attributes", .list .attributes), ("dependencies", .list .dependencies),
    ("statements", .list .statements), ("comments", .list .comments),
    ("unit_blocks", .list .unitBlocks), ("modules", .list .modules), ("blocks", .list .blocks)]

/-- The member of a name, if the encoding knows one. -/
def Field.ofName? (enc : Encoding) (name : String) : Option Field :=
  match Field.table.find? (·.1 == name), enc with
  | some (_, f), _ => some f
  | none, .json => (Field.table.find? (Text.equalFold name ·.1)).map Prod.snd
  | none, .pack => none

/-- An integer member; null leaves the value it had. -/
def Encoding.int? (enc : Encoding) (old : Int) : Datum → Option Int
  | .null => some (if enc = .json then old else 0)
  | .number n => n.toInt64?
  | _ => none

/-- A text member; null leaves the value it had. -/
def Encoding.text? (enc : Encoding) (old : String) : Datum → Option String
  | .null => some (if enc = .json then old else "")
  | .text s => some s
  | .bytes bs => if enc = .pack then some (Text.ofBytes bs) else none
  | _ => none

/-- A Boolean member; null leaves the value it had. -/
def Encoding.flag? (enc : Encoding) (old : Bool) : Datum → Option Bool
  | .null => some (if enc = .json then old else false)
  | .flag b => some b
  | _ => none

/-- A list of texts; a null item is the empty text. -/
def Encoding.texts? (enc : Encoding) : Datum → Option (List String)
  | .null => some []
  | .list xs => xs.mapM (enc.text? "")
  | _ => none

mutual

/-- Can every number and every part of a datum of any type be represented? -/
def Datum.isRepresentable : Datum → Bool
  | .number n => n.toBinary64?.isSome
  | .list xs => Datum.allRepresentable xs
  | .table ms => Datum.membersRepresentable ms
  | .other => false
  | _ => true

/-- `isRepresentable` of every item. -/
def Datum.allRepresentable : List Datum → Bool
  | [] => true
  | d :: ds => d.isRepresentable && Datum.allRepresentable ds

/-- `isRepresentable` of every member. -/
def Datum.membersRepresentable : List (String × Datum) → Bool
  | [] => true
  | (_, d) :: ms => d.isRepresentable && Datum.membersRepresentable ms

end

/-- Could another datum be read where this one stands? -/
def Datum.fitsOnto : Datum → Datum → Bool
  | .text _, d | .bytes _, d =>
    match d with
    | .null | .text _ | .bytes _ => true
    | _ => false
  | .flag _, d =>
    match d with
    | .null | .flag _ => true
    | _ => false
  | .number old, d =>
    match old, d with
    | _, .null | _, .number (.integer _) => true
    | .float _, .number (.float _) | .float _, .number (.single _) => true
    | .single _, .number (.single _) => true
    | _, _ => false
  | .list _, d =>
    match d with
    | .null | .list _ => true
    | _ => false
  | .instant _, d =>
    match d with
    | .null | .instant _ => true
    | _ => false
  | _, _ => true

/-- Reads a value of any type where `old` stands. -/
def Encoding.value (enc : Encoding) (old d : Datum) : Except RecordFault Datum :=
  match enc, old with
  | .json, _ | .pack, .null => if d.isRepresentable then .ok d.normalize else .error .refused
  | .pack, old => .error (if old.fitsOnto d then .breakdown else .refused)

/-- Does a name mean the key of an entry, its value, or neither? -/
def Encoding.entryName (enc : Encoding) (name : String) : Option Bool :=
  let same (word : String) : Bool :=
    match enc with
    | .json => Text.equalFold name word
    | .pack => name == word
  if same "key" then some true else if same "value" then some false else none

namespace Record

/-- The record a member holds. -/
def link (r : Record) : LinkField → Option Record
  | .expr => r.expr
  | .nameExpr => r.nameExpr
  | .receiver => r.receiver
  | .operand => r.operand
  | .left => r.left
  | .right => r.right
  | .condition => r.condition
  | .otherwise => r.otherwise

/-- The record with one member changed. -/
def setLink (r : Record) (x : Option Record) : LinkField → Record
  | .expr => { r with expr := x }
  | .nameExpr => { r with nameExpr := x }
  | .receiver => { r with receiver := x }
  | .operand => { r with operand := x }
  | .left => { r with left := x }
  | .right => { r with right := x }
  | .condition => { r with condition := x }
  | .otherwise => { r with otherwise := x }

/-- The records a member holds. -/
def list (r : Record) : ListField → List (Option Record)
  | .items => r.items
  | .args => r.args
  | .pairs => r.pairs
  | .resources => r.resources
  | .vars => r.vars
  | .attributes => r.attributes
  | .dependencies => r.dependencies
  | .statements => r.statements
  | .comments => r.comments
  | .unitBlocks => r.unitBlocks
  | .modules => r.modules
  | .blocks => r.blocks

/-- The record with one member changed. -/
def setList (r : Record) (xs : List (Option Record)) : ListField → Record
  | .items => { r with items := xs }
  | .args => { r with args := xs }
  | .pairs => { r with pairs := xs }
  | .resources => { r with resources := xs }
  | .vars => { r with vars := xs }
  | .attributes => { r with attributes := xs }
  | .dependencies => { r with dependencies := xs }
  | .statements => { r with statements := xs }
  | .comments => { r with comments := xs }
  | .unitBlocks => { r with unitBlocks := xs }
  | .modules => { r with modules := xs }
  | .blocks => { r with blocks := xs }

variable (enc : Encoding)

/-- Reads a member that holds no record. -/
def readScalar (r : Record) (d : Datum) (f : ScalarField) : Except RecordFault Record := do
  let text (old : String) : Except RecordFault String := RecordFault.orRefuse (enc.text? old d)
  let int (old : Int) : Except RecordFault Int := RecordFault.orRefuse (enc.int? old d)
  let flag (old : Bool) : Except RecordFault Bool := RecordFault.orRefuse (enc.flag? old d)
  match f with
  | .kind => return { r with kind := ← text r.kind }
  | .line => return { r with line := ← int r.line }
  | .column => return { r with column := ← int r.column }
  | .endLine => return { r with endLine := ← int r.endLine }
  | .endColumn => return { r with endColumn := ← int r.endColumn }
  | .code => return { r with code := ← text r.code }
  | .name => return { r with name := ← text r.name }
  | .path => return { r with path := ← text r.path }
  | .type => return { r with type := ← text r.type }
  | .value => return { r with value := ← enc.value r.value d }
  | .content => return { r with content := ← text r.content }
  | .names => return { r with names := ← RecordFault.orRefuse (enc.texts? d) }
  | .hasVariable => return { r with hasVariable := ← flag r.hasVariable }
  | .isDefault => return { r with isDefault := ← flag r.isDefault }
  | .method => return { r with method := ← text r.method }

mutual

/-- Reads members one after the other; unknown ones are passed over. -/
def readMembers (old : Record) : List (String × Datum) → Except RecordFault Record
  | [] => .ok old
  | (name, d) :: ms => do
    match Field.ofName? enc name with
    | none => readMembers old ms
    | some (.scalar f) => readMembers (← readScalar enc old d f) ms
    | some (.link f) => readMembers (old.setLink (← readLink (old.link f) d) f) ms
    | some (.list f) => readMembers (old.setList (← readList (old.list f) d) f) ms
    | some .entries => readMembers { old with entries := ← readEntries old.entries d } ms

/-- Reads all members from a list, in the order in which they are written. -/
def readFields (old : Record) (fields : List (String × Field)) :
    List Datum → Except RecordFault Record
  | [] => if fields.isEmpty then .ok old else .error .refused
  | d :: ds => do
    match fields with
    | [] => .error .refused
    | (_, .scalar f) :: fs => readFields (← readScalar enc old d f) fs ds
    | (_, .link f) :: fs => readFields (old.setLink (← readLink (old.link f) d) f) fs ds
    | (_, .list f) :: fs => readFields (old.setList (← readList (old.list f) d) f) fs ds
    | (_, .entries) :: fs => readFields { old with entries := ← readEntries old.entries d } fs ds

/-- Reads a nested record, which null leaves out. -/
def readLink (old : Option Record) : Datum → Except RecordFault (Option Record)
  | .null => .ok none
  | .table ms => do return some (← readMembers (old.getD {}) ms)
  | .list xs => do
    if enc = .json then .error .refused
    else if xs.isEmpty then .ok (some {})
    else if xs.length ≠ Field.table.length then .error .refused
    else return some (← readFields (old.getD {}) Field.table xs)
  | _ => .error .refused

/-- Reads a list of nested records. -/
def readList (old : List (Option Record)) : Datum → Except RecordFault (List (Option Record))
  | .null => .ok []
  | .list xs => readItems old xs
  | _ => .error .refused

/-- Reads the items of a list of nested records. -/
def readItems (old : List (Option Record)) :
    List Datum → Except RecordFault (List (Option Record))
  | [] => .ok []
  | d :: ds => do
    let r ← readLink (old.head?.getD none) d
    let rs ← readItems old.tail ds
    return r :: rs

/-- Reads the entries of a hash. -/
def readEntries (old : List (Option Record × Option Record)) :
    Datum → Except RecordFault (List (Option Record × Option Record))
  | .null => .ok []
  | .list xs => readEntryItems old xs
  | _ => .error .refused

/-- Reads the entries of a hash one by one. -/
def readEntryItems (old : List (Option Record × Option Record)) :
    List Datum → Except RecordFault (List (Option Record × Option Record))
  | [] => .ok []
  | d :: ds => do
    let r ← readEntry (old.head?.getD (none, none)) d
    let rs ← readEntryItems old.tail ds
    return r :: rs

/-- Reads one entry of a hash. -/
def readEntry (old : Option Record × Option Record) :
    Datum → Except RecordFault (Option Record × Option Record)
  | .null => .ok (if enc = .json then old else (none, none))
  | .table ms => readEntryMembers old ms
  | .list xs => if enc = .json then .error .refused else readEntryFields old xs
  | _ => .error .refused

/-- Reads the members of an entry; unknown ones are passed over. -/
def readEntryMembers (old : Option Record × Option Record) :
    List (String × Datum) → Except RecordFault (Option Record × Option Record)
  | [] => .ok old
  | (name, d) :: ms => do
    match enc.entryName name with
    | some true => readEntryMembers (← readLink old.1 d, old.2) ms
    | some false => readEntryMembers (old.1, ← readLink old.2 d) ms
    | none => readEntryMembers old ms

/-- Reads an entry written as the list of its key and value. -/
def readEntryFields (old : Option Record × Option Record) :
    List Datum → Except RecordFault (Option Record × Option Record)
  | [] => .ok (none, none)
  | [k, v] => do
    let k ← readLink old.1 k
    let v ← readLink old.2 v
    return (k, v)
  | _ => .error .refused

end

/-- Reads a record; null is the empty record. -/
def ofDatum : Datum → Except RecordFault Record
  | .null => .ok {}
  | d => (readLink enc none d).map (·.getD {})

end Record

end InfraSmells
