import InfraSmells.Tree.Basic

/-!
# The scopes of variables

What is in scope where, told from the tree alone. `declared` lists the names that an element
declares in the block it stands in: those of the variables among its statements, through resources
and the branches of conditionals, but not those of a block, which has a scope of its own. `scopes`
lists the blocks of an element, in the order in which they are met, each with the names in scope
when the block itself is looked at: the names in scope where it is entered and those declared in
it.
-/

namespace InfraSmells

/-! ## Names that are declared -/

mutual

/-- The names that a statement declares. -/
def Element.declared : Element → List String
  | .resource r => r.declared
  | .pair x => if x.kind = .var then [x.name] else []
  | .expr (.conditional head rest) => head.declared ++ declaredInBranches rest
  | .expr _ | .block _ | .dependency _ | .comment _ | .project _ | .module _ => []

/-- The names that statements declare. -/
def declaredIn : List Element → List String
  | [] => []
  | s :: ss => s.declared ++ declaredIn ss

/-- The names that the statements of a resource declare. -/
def Resource.declared : Resource → List String
  | ⟨_, _, _, _, statements⟩ => declaredIn statements

/-- The names that the statements of a branch declare. -/
def Branch.declared : Branch → List String
  | ⟨_, _, _, _, statements⟩ => declaredIn statements

/-- The names that the statements of branches declare. -/
def declaredInBranches : List Branch → List String
  | [] => []
  | b :: bs => b.declared ++ declaredInBranches bs

end

/-- The names that a block declares: those of its attributes, those declared by its resources,
those of its variables and those declared by its statements. -/
def Block.declared (b : Block) : List String :=
  b.attributes.map (·.name) ++ b.resources.flatMap (·.declared) ++ b.vars.map (·.name) ++
    declaredIn b.statements

/-! ## Blocks and the names in scope -/

mutual

/-- A block and the blocks in it, where `outer` are the names in scope around it. The blocks below
it see all that it declares, those among its statements what has been declared so far. -/
def Block.scopes (outer : List String) : Block → List (Block × List String)
  | ⟨span, name, type, path, resources, vars, attributes, dependencies, statements, comments,
      blocks⟩ =>
    let b : Block := ⟨span, name, type, path, resources, vars, attributes, dependencies,
      statements, comments, blocks⟩
    let first := outer ++ attributes.map (·.name)
    scopesInResources first resources ++
      scopesIn (first ++ resources.flatMap (·.declared) ++ vars.map (·.name)) statements ++
      (b, outer ++ b.declared) :: scopesInBlocks (outer ++ b.declared) blocks

/-- The blocks in blocks that stand next to each other. -/
def scopesInBlocks (outer : List String) : List Block → List (Block × List String)
  | [] => []
  | b :: bs => b.scopes outer ++ scopesInBlocks outer bs

/-- The blocks among the statements of a resource. -/
def Resource.scopes (outer : List String) : Resource → List (Block × List String)
  | ⟨_, _, _, _, statements⟩ => scopesIn outer statements

/-- The blocks among the statements of resources; each resource sees what those before it declare.
-/
def scopesInResources (outer : List String) : List Resource → List (Block × List String)
  | [] => []
  | r :: rs => r.scopes outer ++ scopesInResources (outer ++ r.declared) rs

/-- The blocks in a statement. -/
def Element.scopes (outer : List String) : Element → List (Block × List String)
  | .resource r => r.scopes outer
  | .block b => b.scopes outer
  | .expr (.conditional head rest) =>
    head.scopes outer ++ scopesInBranches (outer ++ head.declared) rest
  | .expr _ | .pair _ | .dependency _ | .comment _ | .project _ | .module _ => []

/-- The blocks in statements; each statement sees what those before it declare. -/
def scopesIn (outer : List String) : List Element → List (Block × List String)
  | [] => []
  | s :: ss => s.scopes outer ++ scopesIn (outer ++ s.declared) ss

/-- The blocks among the statements of a branch. -/
def Branch.scopes (outer : List String) : Branch → List (Block × List String)
  | ⟨_, _, _, _, statements⟩ => scopesIn outer statements

/-- The blocks among the statements of branches; each branch sees what those before it declare. -/
def scopesInBranches (outer : List String) : List Branch → List (Block × List String)
  | [] => []
  | b :: bs => b.scopes outer ++ scopesInBranches (outer ++ b.declared) bs

end

mutual

/-- The blocks of a module and of the modules in it; nothing is in scope around them. -/
def Module.scopes : Module → List (Block × List String)
  | ⟨_, _, blocks, modules⟩ => scopesInBlocks [] blocks ++ scopesInModules modules

/-- The blocks of modules. -/
def scopesInModules : List Module → List (Block × List String)
  | [] => []
  | m :: ms => m.scopes ++ scopesInModules ms

end

/-- The blocks of a tree. -/
def Element.rootScopes : Element → List (Block × List String)
  | .project p => scopesInModules p.modules ++ scopesInBlocks [] p.blocks
  | .module m => m.scopes
  | .block b => b.scopes []
  | .resource _ | .pair _ | .dependency _ | .comment _ | .expr _ => []

end InfraSmells
