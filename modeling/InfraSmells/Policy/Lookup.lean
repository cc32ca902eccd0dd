import InfraSmells.Tree.Text

/-!
# Attributes of a resource

Finding the attributes of a resource by the names of the blocks around them. `findAll` lists every
attribute of a name below a path of blocks, `find?` gives the first of them, and `within` lists all
attributes, depth first, each with the name of the block around it.
-/

namespace InfraSmells.Policy

/-- The name of a block, whether it is written out or generated. -/
def blockName (p : Pair) : String :=
  Text.dropStart "dynamic." p.name

/-- The path of blocks that a list of parents stands for: a single empty name is the top level. -/
def blockPath (parents : List String) : List String :=
  if parents = [""] then [] else parents

/-- The first attribute of a name below a path of blocks. Where a block occurs several times, each
occurrence is searched. -/
def firstIn (name : String) : List String → List Pair → Option Pair
  | [], attributes => attributes.find? (·.name == name)
  | block :: path, attributes =>
    attributes.findSome? fun p =>
      if blockName p == block then firstIn name path p.children else none

/-- All attributes of a name below a path of blocks. -/
def allIn (name : String) : List String → List Pair → List Pair
  | [], attributes => attributes.filter (·.name == name)
  | block :: path, attributes =>
    attributes.flatMap fun p => if blockName p == block then allIn name path p.children else []

/-- The first attribute of a resource with a name and parents. -/
def find? (r : Resource) (parents : List String) (name : String) : Option Pair :=
  firstIn name (blockPath parents) r.attributes

/-- All attributes of a resource with a name and parents. -/
def findAll (r : Resource) (parents : List String) (name : String) : List Pair :=
  allIn name (blockPath parents) r.attributes

/-- The first attribute of a resource with a name, outside blocks. -/
def attribute? (r : Resource) (name : String) : Option Pair :=
  find? r [] name

mutual

/-- An attribute and those below it, each with the name of the block around it. -/
def pairWithin (parent : String) : Pair → List (Pair × String)
  | ⟨span, kind, name, value, hasVariable, children⟩ =>
    (⟨span, kind, name, value, hasVariable, children⟩, parent) :: within name children

/-- All attributes, depth first, each with the name of the block around it. -/
def within (parent : String) : List Pair → List (Pair × String)
  | [] => []
  | p :: ps => pairWithin parent p ++ within parent ps

end

/-- All attributes of a resource; those outside blocks have an empty name around them. -/
def attributesOf (r : Resource) : List (Pair × String) :=
  within "" r.attributes

/-- The attribute, if it has a value. -/
def valued? (p : Option Pair) : Option Pair :=
  p.filter fun q => !q.value.isAbsent

/-- The texts of the items of a list, or the text of any other value. -/
def literals : Expr → List String
  | .array _ items => items.map Expr.literal
  | e => [e.literal]

end InfraSmells.Policy
