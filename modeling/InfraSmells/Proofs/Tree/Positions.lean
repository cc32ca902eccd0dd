import InfraSmells.Tree.Positions

/-!
# What a sound position is

`Placement.IsSound` says of an element, apart from the check, that it has a line of the source and ends
behind its beginning, within the source and within the lines of what holds it. The check is silent about
such an element, and of the elements that have a line it is silent about no other
(`Placement.isSound_iff`).
-/

namespace InfraSmells

variable {lines : Nat} {x : Placement} {holder : Span}

/-- The element begins on a line of the source and in a column, does not end before it begins, ends in the
source or where its last line ends, and lies within the lines of what holds it, if that has lines. -/
structure Placement.IsSound (lines : Nat) (x : Placement) : Prop where
  line_pos : 1 ≤ x.span.line
  line_le : x.span.line ≤ lines
  column_pos : 1 ≤ x.span.column
  ordered : x.span.line < x.span.endLine ∨
    x.span.line = x.span.endLine ∧ x.span.column ≤ x.span.endColumn
  ends : x.span.endLine ≤ lines ∨ x.span.endLine = lines + 1 ∧ x.span.endColumn ≤ 1
  within : 1 ≤ x.holder.line → x.holder.line ≤ x.span.line ∧ x.span.endLine ≤ x.holder.endLine

/-- An element is placed soundly if it has a line and the check finds no fault. -/
theorem Placement.isSound_iff : x.IsSound lines ↔ 1 ≤ x.span.line ∧ x.faults lines = [] := by
  have hcheck (h : 1 ≤ x.span.line) : x.faults lines = [] ↔
      ¬(lines : Int) < x.span.line ∧ ¬x.span.endLine < x.span.line ∧
      ¬((lines : Int) + 1 < x.span.endLine ∨
        x.span.endLine = (lines : Int) + 1 ∧ 1 < x.span.endColumn) ∧
      ¬x.span.column < 1 ∧ ¬(x.span.line = x.span.endLine ∧ x.span.endColumn < x.span.column) ∧
      ¬(0 < x.holder.line ∧
        (x.span.line < x.holder.line ∨ x.holder.endLine < x.span.endLine)) := by
    rw [faults, List.map_eq_nil_iff, Span.misplacements, if_neg (by omega)]
    simp only [List.append_eq_nil_iff, ite_eq_right_iff, reduceCtorEq, imp_false, and_assoc]
  constructor
  · rintro ⟨hline, hle, hcolumn, hordered, hends, hwithin⟩
    exact ⟨hline, (hcheck hline).2 (by omega)⟩
  · rintro ⟨hline, hfaults⟩
    obtain ⟨hle, horder, hends, hcolumn, hcolumns, hwithin⟩ := (hcheck hline).1 hfaults
    exact ⟨hline, by omega, by omega, by omega, by omega, by omega⟩

/-- All the elements are placed soundly. -/
def AllSound (lines : Nat) (xs : List Placement) : Prop :=
  ∀ x ∈ xs, x.IsSound lines

theorem allSound_nil : AllSound lines [] :=
  List.forall_mem_nil _

theorem allSound_cons {xs : List Placement} :
    AllSound lines (x :: xs) ↔ x.IsSound lines ∧ AllSound lines xs :=
  List.forall_mem_cons

theorem allSound_append {xs ys : List Placement} :
    AllSound lines (xs ++ ys) ↔ AllSound lines xs ∧ AllSound lines ys :=
  List.forall_mem_append

/-- Several pairs are placed soundly one by one. -/
theorem allSound_pairs {ps : List Pair} : AllSound lines (pairsPlacements holder ps) ↔
    ∀ p ∈ ps, AllSound lines (p.placements holder) := by
  induction ps with
  | nil => exact iff_of_true allSound_nil (List.forall_mem_nil _)
  | cons p ps ih => rw [pairsPlacements, allSound_append, List.forall_mem_cons, ih]

/-- Several resources are placed soundly one by one. -/
theorem allSound_resources {rs : List Resource} : AllSound lines (resourcesPlacements rs) ↔
    ∀ r ∈ rs, AllSound lines (resourcePlacements r) := by
  induction rs with
  | nil => exact iff_of_true allSound_nil (List.forall_mem_nil _)
  | cons r rs ih => rw [resourcesPlacements, allSound_append, List.forall_mem_cons, ih]

/-- The check finds no fault in a block all of whose elements are placed soundly. -/
theorem Block.misplaced_eq_nil {b : Block} {f : SourceFile}
    (h : AllSound f.lines.length b.placements) : b.misplaced f = [] :=
  List.flatMap_eq_nil_iff.2 fun x hx => (Placement.isSound_iff.1 (h x hx)).2

end InfraSmells
