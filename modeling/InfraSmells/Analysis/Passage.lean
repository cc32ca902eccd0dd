import InfraSmells.Analysis.State

/-!
# The way through a tree

A tree is gone through from its root down, in a fixed order, and every element that a checker may look
at is visited on the way. A block is entered with the file of its path, or of the path around it when it
has none: what is not text is passed over. The names of its attributes are in scope from the beginning,
those of its variables from their own visit on, and all of them until the block ends.
-/

namespace InfraSmells.Action

mutual

/-- Visits a pair and its children. -/
def pair (path : String) : Pair → Action
  | ⟨span, kind, name, value, hasVariable, children⟩ =>
    (visit (.pair ⟨span, kind, name, value, hasVariable, children⟩) path).andThen
      (pairs path children)

/-- Visits pairs and their children. -/
def pairs (path : String) : List Pair → Action
  | [] => done
  | x :: xs => (pair path x).andThen (pairs path xs)

end

/-- Visits the variables of a block, each in scope from its own visit on. -/
def variableList (path : String) : List Pair → Action
  | [] => done
  | x :: xs => ((change (·.declare [x.name])).andThen (pair path x)).andThen (variableList path xs)

/-- An action in a block whose file has been entered: whether the file is new is shown to no one before
the block itself is visited. -/
def inside (newFile : Bool) (before after : Action) (e : Element) (path : String) : Action :=
  (change ({ · with newFile := false })).andThen <|
  before.andThen <|
  (change ({ · with newFile := newFile })).andThen <|
  (visit e path).andThen <|
  (change ({ · with newFile := false })).andThen after

/-- Goes through a block at a path, once its file can be entered. -/
def entering (fs : FileSystem) (path : String) (body : Bool → Action) : Action :=
  keepingFile fun a =>
    match a.enterFile fs path with
    | (a, .error e) => (a, some e)
    | (a, .ok false) => (a, none)
    | (a, .ok true) => body a.newFile a

mutual

/-- Goes through a block: its resources, variables, attributes, dependencies, statements and comments,
then the block itself, and last the blocks nested in it. -/
def block (fs : FileSystem) (around : String) : Block → Action
  | ⟨span, name, type, own, resources, vars, attributes, dependencies, statements, comments,
      blocks⟩ =>
    let path := if own = "" then around else own
    let b : Block := ⟨span, name, type, own, resources, vars, attributes, dependencies,
      statements, comments, blocks⟩
    let parts : Action :=
      (resourceList fs path resources).andThen <|
      (variableList path vars).andThen <|
      (pairs path attributes).andThen <|
      (each (fun d => visit (.dependency d) path) dependencies).andThen <|
      (statementList fs path statements).andThen <|
      (each (fun c => visit (.comment c) path) comments)
    entering fs path fun newFile =>
      (change (·.openScope)).andThen <|
      (change (·.declare (attributes.map (·.name)))).andThen <|
      (inside newFile parts (blockList fs path blocks) (.block b) path).andThen <|
      change (·.closeScope)

/-- Goes through blocks. -/
def blockList (fs : FileSystem) (around : String) : List Block → Action
  | [] => done
  | b :: bs => (block fs around b).andThen (blockList fs around bs)

/-- Visits a resource, then goes through its attributes and statements. -/
def resource (fs : FileSystem) (path : String) : Resource → Action
  | ⟨span, name, type, attributes, statements⟩ =>
    (visit (.resource ⟨span, name, type, attributes, statements⟩) path).andThen <|
      (pairs path attributes).andThen (statementList fs path statements)

/-- Goes through resources. -/
def resourceList (fs : FileSystem) (path : String) : List Resource → Action
  | [] => done
  | r :: rs => (resource fs path r).andThen (resourceList fs path rs)

/-- Goes through a statement. A variable is in scope until the block ends; a plain value is no
statement to look at. -/
def statement (fs : FileSystem) (path : String) : Element → Action
  | .resource r => resource fs path r
  | .pair x =>
    (change (·.declare (if x.kind = .var then [x.name] else []))).andThen (pair path x)
  | .block b => block fs path b
  | .dependency d => visit (.dependency d) path
  | .comment c => visit (.comment c) path
  | .expr (.conditional head rest) =>
    (visit (.expr (.conditional head rest)) path).andThen <|
      (branch fs path head).andThen (branchList fs path rest)
  | .expr _ | .project _ | .module _ => done

/-- Goes through statements. -/
def statementList (fs : FileSystem) (path : String) : List Element → Action
  | [] => done
  | s :: ss => (statement fs path s).andThen (statementList fs path ss)

/-- Goes through the statements of a branch. -/
def branch (fs : FileSystem) (path : String) : Branch → Action
  | ⟨_, _, _, _, statements⟩ => statementList fs path statements

/-- Goes through the statements of several branches. -/
def branchList (fs : FileSystem) (path : String) : List Branch → Action
  | [] => done
  | b :: bs => (branch fs path b).andThen (branchList fs path bs)

end

/-- Goes through a block that sees the given blocks. -/
def blockAmong (fs : FileSystem) (scope : List Block) (around : String) (b : Block) : Action :=
  (change ({ · with scope := scope })).andThen (block fs around b)

mutual

/-- Goes through a module: its blocks, which see each other, then the modules in it. -/
def module (fs : FileSystem) : Module → Action
  | ⟨_, path, blocks, modules⟩ =>
    (each (blockAmong fs blocks path) blocks).andThen (moduleList fs modules)

/-- Goes through modules. -/
def moduleList (fs : FileSystem) : List Module → Action
  | [] => done
  | m :: ms => (module fs m).andThen (moduleList fs ms)

end

/-- Goes through a tree; only projects, modules and blocks are roots of trees. -/
def root? (fs : FileSystem) : Element → Option Action
  | .project x =>
    some ((moduleList fs x.modules).andThen (each (fun b => blockAmong fs [b] "" b) x.blocks))
  | .module m => some (module fs m)
  | .block b => some (blockAmong fs [b] "" b)
  | _ => none

end InfraSmells.Action
