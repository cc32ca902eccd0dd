import InfraSmells.Tree.Basic

/-!
# The numbers in a tree

`Element.numbers` lists the number expressions that occur anywhere in an element, each with its
span: in values and names, in the operands and arguments of expressions, in the conditions and
statements of conditionals, and in whatever stands below.
-/

namespace InfraSmells

mutual

/-- The numbers in an expression. -/
def Expr.numbers : Expr → List (Span × Binary64)
  | .absent | .string _ _ | .boolean _ _ | .null _ | .reference _ _ => []
  | .number s x => [(s, x)]
  | .array _ items => exprsNumbers items
  | .hash _ entries => entriesNumbers entries
  | .call _ _ args => exprsNumbers args
  | .methodCall _ receiver _ args => receiver.numbers ++ exprsNumbers args
  | .unary _ _ operand => operand.numbers
  | .binary _ _ left right => left.numbers ++ right.numbers
  | .conditional head rest => head.numbers ++ chainNumbers rest

/-- The numbers in several expressions. -/
def exprsNumbers : List Expr → List (Span × Binary64)
  | [] => []
  | e :: es => e.numbers ++ exprsNumbers es

/-- The numbers in the entries of a hash. -/
def entriesNumbers : List (Expr × Expr) → List (Span × Binary64)
  | [] => []
  | (k, v) :: es => k.numbers ++ v.numbers ++ entriesNumbers es

/-- The numbers in a branch of a conditional. -/
def Branch.numbers : Branch → List (Span × Binary64)
  | ⟨_, condition, _, _, statements⟩ => condition.numbers ++ elementsNumbers statements

/-- The numbers in an else chain. -/
def chainNumbers : List Branch → List (Span × Binary64)
  | [] => []
  | b :: bs => b.numbers ++ chainNumbers bs

/-- The numbers in a pair. -/
def Pair.numbers : Pair → List (Span × Binary64)
  | ⟨_, _, _, value, _, children⟩ => value.numbers ++ pairsNumbers children

/-- The numbers in several pairs. -/
def pairsNumbers : List Pair → List (Span × Binary64)
  | [] => []
  | p :: ps => p.numbers ++ pairsNumbers ps

/-- The numbers in a resource. -/
def Resource.numbers : Resource → List (Span × Binary64)
  | ⟨_, name, _, attributes, statements⟩ =>
    name.numbers ++ pairsNumbers attributes ++ elementsNumbers statements

/-- The numbers in several resources. -/
def resourcesNumbers : List Resource → List (Span × Binary64)
  | [] => []
  | r :: rs => r.numbers ++ resourcesNumbers rs

/-- The numbers in a block. -/
def Block.numbers : Block → List (Span × Binary64)
  | ⟨_, _, _, _, resources, vars, attributes, _, statements, _, blocks⟩ =>
    resourcesNumbers resources ++ pairsNumbers vars ++ pairsNumbers attributes ++
      elementsNumbers statements ++ blocksNumbers blocks

/-- The numbers in several blocks. -/
def blocksNumbers : List Block → List (Span × Binary64)
  | [] => []
  | b :: bs => b.numbers ++ blocksNumbers bs

/-- The numbers in a module. -/
def Module.numbers : Module → List (Span × Binary64)
  | ⟨_, _, blocks, modules⟩ => blocksNumbers blocks ++ modulesNumbers modules

/-- The numbers in several modules. -/
def modulesNumbers : List Module → List (Span × Binary64)
  | [] => []
  | m :: ms => m.numbers ++ modulesNumbers ms

/-- The numbers in a project. -/
def Project.numbers : Project → List (Span × Binary64)
  | ⟨_, modules, blocks⟩ => modulesNumbers modules ++ blocksNumbers blocks

/-- The numbers in an element. -/
def Element.numbers : Element → List (Span × Binary64)
  | .project p => p.numbers
  | .module m => m.numbers
  | .block b => b.numbers
  | .resource r => r.numbers
  | .pair p => p.numbers
  | .dependency _ | .comment _ => []
  | .expr e => e.numbers

/-- The numbers in several elements. -/
def elementsNumbers : List Element → List (Span × Binary64)
  | [] => []
  | e :: es => e.numbers ++ elementsNumbers es

end

end InfraSmells
