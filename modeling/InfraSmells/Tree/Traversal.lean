import InfraSmells.Tree.Basic

/-!
# The leaves of an expression

An expression is traversed through the items of arrays, the keys and values of hashes, receivers
and arguments of calls, operands, and the conditions along an else chain; the statements of a
branch are not part of it. `Expr.strings` lists the string literals met, from left to right,
`Expr.matchesString` asks whether one of them satisfies a predicate, and `Expr.containsReference`
whether a variable is met.
-/

namespace InfraSmells

namespace Expr

mutual

/-- The string literals of an expression, from left to right. -/
def strings : Expr → List String
  | .string _ s => [s]
  | .array _ items => stringsAll items
  | .hash _ entries => stringsEntries entries
  | .call _ _ args => stringsAll args
  | .methodCall _ receiver _ args => receiver.strings ++ stringsAll args
  | .unary _ _ operand => operand.strings
  | .binary _ _ left right => left.strings ++ right.strings
  | .conditional head rest => stringsBranch head ++ stringsBranches rest
  | .absent | .number _ _ | .boolean _ _ | .null _ | .reference _ _ => []

/-- The string literals of several expressions. -/
def stringsAll : List Expr → List String
  | [] => []
  | e :: es => e.strings ++ stringsAll es

/-- The string literals of the entries of a hash. -/
def stringsEntries : List (Expr × Expr) → List String
  | [] => []
  | (k, v) :: es => k.strings ++ v.strings ++ stringsEntries es

/-- The string literals of the condition of a branch. -/
def stringsBranch : Branch → List String
  | ⟨_, condition, _, _, _⟩ => condition.strings

/-- The string literals of the conditions of several branches. -/
def stringsBranches : List Branch → List String
  | [] => []
  | b :: bs => stringsBranch b ++ stringsBranches bs

end

mutual

/-- Does some string literal of the expression satisfy `p`? -/
def matchesString (p : String → Bool) : Expr → Bool
  | .string _ s => p s
  | .array _ items => matchesAny p items
  | .hash _ entries => matchesEntries p entries
  | .call _ _ args => matchesAny p args
  | .methodCall _ receiver _ args => receiver.matchesString p || matchesAny p args
  | .unary _ _ operand => operand.matchesString p
  | .binary _ _ left right => left.matchesString p || right.matchesString p
  | .conditional head rest => matchesBranch p head || matchesBranches p rest
  | .absent | .number _ _ | .boolean _ _ | .null _ | .reference _ _ => false

/-- `matchesString` of some expression of a list. -/
def matchesAny (p : String → Bool) : List Expr → Bool
  | [] => false
  | e :: es => e.matchesString p || matchesAny p es

/-- `matchesString` of some key or value. -/
def matchesEntries (p : String → Bool) : List (Expr × Expr) → Bool
  | [] => false
  | (k, v) :: es => k.matchesString p || v.matchesString p || matchesEntries p es

/-- `matchesString` of the condition of a branch. -/
def matchesBranch (p : String → Bool) : Branch → Bool
  | ⟨_, condition, _, _, _⟩ => condition.matchesString p

/-- `matchesString` of the condition of some branch. -/
def matchesBranches (p : String → Bool) : List Branch → Bool
  | [] => false
  | b :: bs => matchesBranch p b || matchesBranches p bs

end

mutual

/-- Does the expression refer to a variable? -/
def containsReference : Expr → Bool
  | .reference _ _ => true
  | .array _ items => anyReference items
  | .hash _ entries => entriesReference entries
  | .call _ _ args => anyReference args
  | .methodCall _ receiver _ args => receiver.containsReference || anyReference args
  | .unary _ _ operand => operand.containsReference
  | .binary _ _ left right => left.containsReference || right.containsReference
  | .conditional head rest => branchReference head || branchesReference rest
  | .absent | .number _ _ | .boolean _ _ | .null _ | .string _ _ => false

/-- `containsReference` of some expression of a list. -/
def anyReference : List Expr → Bool
  | [] => false
  | e :: es => e.containsReference || anyReference es

/-- `containsReference` of some key or value. -/
def entriesReference : List (Expr × Expr) → Bool
  | [] => false
  | (k, v) :: es => k.containsReference || v.containsReference || entriesReference es

/-- `containsReference` of the condition of a branch. -/
def branchReference : Branch → Bool
  | ⟨_, condition, _, _, _⟩ => condition.containsReference

/-- `containsReference` of the condition of some branch. -/
def branchesReference : List Branch → Bool
  | [] => false
  | b :: bs => branchReference b || branchesReference bs

end

end Expr

/-- A pair with a value, dynamic exactly when the value refers to a variable. -/
def Pair.ofValue (kind : PairKind) (name : String) (value : Expr) (span : Span) : Pair where
  span := span
  kind := kind
  name := name
  value := value
  hasVariable := value.containsReference
  children := []

end InfraSmells
