import InfraSmells.Tree.Traversal

/-!
# The literals that decide a match

A predicate is lifted to an expression by a traversal that stops at the first literal with it. The
verdict is that of the list of all literals (`Expr.matchesString_eq_any`): no literal is passed over, and
none is looked at that is not in the list.
-/

namespace InfraSmells.Expr

mutual

/-- An expression matches if one of its string literals does. -/
theorem matchesString_eq_any (p : String → Bool) : ∀ e : Expr, e.matchesString p = e.strings.any p
  | .string _ s => by rw [matchesString, strings, List.any_cons, List.any_nil, Bool.or_false]
  | .array _ items => by rw [matchesString, strings, matchesAny_eq_any p items]
  | .hash _ entries => by rw [matchesString, strings, matchesEntries_eq_any p entries]
  | .call _ _ args => by rw [matchesString, strings, matchesAny_eq_any p args]
  | .methodCall _ receiver _ args => by
    rw [matchesString, strings, List.any_append, matchesString_eq_any p receiver,
      matchesAny_eq_any p args]
  | .unary _ _ operand => by rw [matchesString, strings, matchesString_eq_any p operand]
  | .binary _ _ left right => by
    rw [matchesString, strings, List.any_append, matchesString_eq_any p left,
      matchesString_eq_any p right]
  | .conditional head rest => by
    rw [matchesString, strings, List.any_append, matchesBranch_eq_any p head,
      matchesBranches_eq_any p rest]
  | .absent | .number _ _ | .boolean _ _ | .null _ | .reference _ _ => by
    rw [matchesString, strings, List.any_nil]

/-- Some expression of a list matches if one of their string literals does. -/
theorem matchesAny_eq_any (p : String → Bool) :
    ∀ es : List Expr, matchesAny p es = (stringsAll es).any p
  | [] => rfl
  | e :: es => by
    rw [matchesAny, stringsAll, List.any_append, matchesString_eq_any p e, matchesAny_eq_any p es]

/-- Some entry matches if a string literal of a key or a value does. -/
theorem matchesEntries_eq_any (p : String → Bool) :
    ∀ es : List (Expr × Expr), matchesEntries p es = (stringsEntries es).any p
  | [] => rfl
  | (k, v) :: es => by
    rw [matchesEntries, stringsEntries, List.any_append, List.any_append, matchesString_eq_any p k,
      matchesString_eq_any p v, matchesEntries_eq_any p es]

/-- The condition of a branch matches if one of its string literals does. -/
theorem matchesBranch_eq_any (p : String → Bool) :
    ∀ b : Branch, matchesBranch p b = (stringsBranch b).any p
  | ⟨_, condition, _, _, _⟩ => by
    rw [matchesBranch, stringsBranch, matchesString_eq_any p condition]

/-- The condition of some branch matches if one of their string literals does. -/
theorem matchesBranches_eq_any (p : String → Bool) :
    ∀ bs : List Branch, matchesBranches p bs = (stringsBranches bs).any p
  | [] => rfl
  | b :: bs => by
    rw [matchesBranches, stringsBranches, List.any_append, matchesBranch_eq_any p b,
      matchesBranches_eq_any p bs]

end

/-- An expression matches exactly if some string literal of it does. -/
theorem matchesString_iff {p : String → Bool} {e : Expr} :
    e.matchesString p = true ↔ ∃ s ∈ e.strings, p s = true := by
  rw [matchesString_eq_any, List.any_eq_true]

/-- The string literals of a list of expressions are those of its members. -/
theorem stringsAll_eq_flatMap : ∀ es : List Expr, stringsAll es = es.flatMap strings
  | [] => rfl
  | e :: es => by rw [stringsAll, stringsAll_eq_flatMap es, List.flatMap_cons]

end InfraSmells.Expr
