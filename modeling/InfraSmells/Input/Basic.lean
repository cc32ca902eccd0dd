import InfraSmells.Document.Basic
import InfraSmells.Files.System
import InfraSmells.Technology
import InfraSmells.Terraform.Tree

/-!
# Inputs

An input is a kind of file that becomes a tree: documents, which other parsers have written, and
Terraform sources. `Input.parseFile` gives the tree of one file, and `Input.parseDirectory` makes a
module of all the files in a directory that the input accepts, with a module for each directory
inside. Hidden directories are left out.
-/

namespace InfraSmells

/-- A kind of file that becomes a tree. -/
inductive Input where
  | documents | terraform
  deriving DecidableEq, Repr, Inhabited

/-- Why an input cannot be used. -/
inductive InputError where
  | needsTerraform (name : String) (technology : Technology)
  | unknown (name : String)
  deriving DecidableEq, Repr

/-- The message of a failure. -/
def InputError.message : InputError → String
  | .needsTerraform name technology =>
    "unsupported input: input " ++ Text.quote name ++ " needs --tech terraform, got " ++
      technology.name
  | .unknown name => "unsupported input: input " ++ Text.quote name ++ " (expected: ir|terraform)"

/-- Why a file or a directory gives no tree. -/
inductive ParseError where
  | file (e : FileError)
  | document (path : String) (e : DocumentError)
  /-- The root of a document is no project, module or block. -/
  | root (path typeName : String)
  /-- A document among the files of a module is no module and no block. -/
  | member (path typeName : String)
  | source (e : Terraform.SyntaxError)
  deriving DecidableEq, Repr

/-- The message of a failure, if it has a text of its own. -/
def ParseError.message? : ParseError → Option String
  | .file e => some e.message
  | .document path e => e.message?.map fun m => path ++ ": " ++ m
  | .root path typeName => some (path ++ ": ir: malformed document: root is " ++ typeName)
  | .member path typeName =>
    some (path ++ ": ir: malformed document: " ++ typeName ++ " inside a module")
  | .source e => e.message?

namespace Input

/-- The name of an input. -/
def name : Input → String
  | documents => "ir"
  | terraform => "terraform"

/-- The input of a name, whatever its letter case and the blanks around it. Terraform sources are
read for their own technology only. -/
def ofName (s : String) (t : Technology) : Except InputError Input :=
  match Text.lower (Text.trim s) with
  | "" | "ir" => .ok documents
  | "terraform" | "hcl" => if t = .terraform then .ok terraform else .error (.needsTerraform s t)
  | _ => .error (.unknown s)

/-- The endings of the names of documents. -/
def documentEndings : List String := [".ir.json", ".ir.msgpack", ".ir.mp"]

/-- The ending of a document's name that a path has. -/
def documentEnding? (path : String) : Option String :=
  documentEndings.find? (Text.endsWith (Text.lower path))

/-- Is the file one of this input? -/
def accepts (input : Input) (path : String) : Bool :=
  match input with
  | documents => (documentEnding? path).isSome
  | terraform => Text.equalFold (Path.extension path) ".tf"

/-- The path of the source a document was made from. -/
def sourceOf (path : String) : String :=
  ((documentEnding? path).map fun e => Text.dropLastBytes e.length path).getD path

/-- The tree of a document. A block without a path stands for the source the document was made from,
and `type` is the type of a block that has none. -/
def parseDocument (path : String) (type : BlockType) (bytes : List UInt8) :
    Except ParseError Element :=
  match Document.decode (.ofPath path) bytes with
  | .error e => .error (.document path e)
  | .ok (.block b) =>
    .ok (.block { b with
      path := if b.path = "" then sourceOf path else b.path
      type := if b.type = .unknown then type else b.type })
  | .ok (.module m) => .ok (.module m)
  | .ok (.project p) => .ok (.project p)
  | .ok e => .error (.root path e.typeName)

/-- The tree of a file with the given content. -/
def parse (input : Input) (path : String) (type : BlockType) (bytes : List UInt8) :
    Except ParseError Element :=
  match input with
  | documents => parseDocument path type bytes
  | terraform =>
    match Terraform.parse path (Text.ofBytes bytes) type with
    | .ok b => .ok (.block b)
    | .error e => .error (.source e)

/-- The tree of a file. -/
def parseFile (fs : FileSystem) (input : Input) (path : String) (type : BlockType) :
    Except ParseError Element :=
  match fs.read path with
  | .ok bytes => input.parse path type bytes
  | .error e => .error (.file e)

/-- A member of a module: a block, or a module inside. -/
abbrev Member := Block ⊕ Module

/-- The member an element is. -/
def memberOf (path : String) : Element → Except ParseError Member
  | .block b => .ok (.inl b)
  | .module m => .ok (.inr m)
  | e => .error (.member path e.typeName)

/-- The type of the blocks of a module, where `type` is the one asked for. -/
def memberType (input : Input) (type : BlockType) : BlockType :=
  match input with
  | documents => type
  | terraform => .unknown

/-- The module of a directory. -/
def moduleOf (dir : String) (members : List Member) : Module where
  name := Path.base (Path.clean dir)
  path := dir
  blocks := members.filterMap Sum.getLeft?
  modules := members.filterMap Sum.getRight?

/-- The member a directory inside becomes; one without members becomes none. -/
def submodule (dir : String) (members : List Member) : List Member :=
  if members.isEmpty then [] else [.inr (moduleOf dir members)]

mutual

/-- The members an entry of a directory gives. -/
def entryMembers (input : Input) (type : BlockType) (path : String) (hidden : Bool) :
    Entry → Except ParseError (List Member)
  | .file bytes => do
    if !input.accepts path then return []
    let e ← input.parse path (input.memberType type) bytes
    return [← memberOf path e]
  | .directory entries => do
    if hidden then return []
    return submodule path (← input.members type path entries)

/-- The members of a directory, in the order of its entries. -/
def members (input : Input) (type : BlockType) (dir : String) :
    List (String × Entry) → Except ParseError (List Member)
  | [] => .ok []
  | (name, e) :: entries => do
    let first ← input.entryMembers type (Path.join dir name) (Text.startsWith name ".") e
    return first ++ (← input.members type dir entries)

end

/-- The module of all files in a directory. A directory without documents gives nothing. -/
def parseDirectory (fs : FileSystem) (input : Input) (dir : String) (type : BlockType) :
    Except ParseError (Option Element) := do
  let entries ← (fs.list dir).mapError .file
  let members ← input.members type dir entries
  if input = .documents && members.isEmpty then return none
  return some (.module (moduleOf dir members))

/-- The tree of a file, or of a directory as one module. -/
def parsePath (fs : FileSystem) (input : Input) (path : String) (type : BlockType)
    (asModule : Bool) : Except ParseError (Option Element) :=
  if asModule then input.parseDirectory fs path type
  else (input.parseFile fs path type).map some

end Input

end InfraSmells
