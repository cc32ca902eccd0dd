import InfraSmells.Proofs.Tree.Literals
import Mathlib.Data.List.Basic

/-!
# The literals of an expression by their places

What stands directly below an expression are its operands, from left to right (`Expr.operands`), and
indices lead on from there to everything in it (`Expr.at?`). The string literals of an expression are
those to which indices lead, each once, in the order of the indices (`Expr.mem_literals`,
`Expr.literals_increasing`), and a predicate is found in an expression exactly if one of them
satisfies it (`Expr.literals_in_order`).
-/

namespace InfraSmells.Expr

/-! ## Operands -/

/-- The expressions directly below an expression, from left to right: items, the key and the value of
each entry, a receiver and the arguments, operands, and the conditions along an else chain. -/
def operands : Expr → List Expr
  | .array _ items => items
  | .hash _ entries => entries.flatMap fun (k, v) => [k, v]
  | .call _ _ args => args
  | .methodCall _ receiver _ args => receiver :: args
  | .unary _ _ operand => [operand]
  | .binary _ _ left right => [left, right]
  | .conditional head rest => (head :: rest).map (·.condition)
  | .absent | .string _ _ | .number _ _ | .boolean _ _ | .null _ | .reference _ _ => []

/-- The expression to which indices of operands lead. -/
def at? : Expr → List Nat → Option Expr
  | e, [] => some e
  | e, i :: is => e.operands[i]?.bind fun c => c.at? is

/-- An operand is smaller than the expression. -/
theorem sizeOf_lt_of_mem_operands {c e : Expr} (h : c ∈ e.operands) : sizeOf c < sizeOf e := by
  cases e with
  | array _ items =>
    have hlt : sizeOf c < sizeOf items := List.sizeOf_lt_of_mem h
    simp only [array.sizeOf_spec]
    omega
  | hash _ entries =>
    obtain ⟨⟨k, v⟩, hentry, hc⟩ := List.mem_flatMap.1 h
    have hlt := List.sizeOf_lt_of_mem hentry
    simp only [List.mem_cons, List.not_mem_nil, or_false] at hc
    simp only [hash.sizeOf_spec, Prod.mk.sizeOf_spec] at hlt ⊢
    rcases hc with rfl | rfl <;> omega
  | call _ _ args =>
    have hlt : sizeOf c < sizeOf args := List.sizeOf_lt_of_mem h
    simp only [call.sizeOf_spec]
    omega
  | methodCall _ receiver _ args =>
    simp only [methodCall.sizeOf_spec]
    rcases List.mem_cons.1 h with rfl | h
    · omega
    · have hlt := List.sizeOf_lt_of_mem h
      omega
  | unary _ _ operand =>
    cases List.mem_singleton.1 h
    simp only [unary.sizeOf_spec]
    omega
  | binary _ _ left right =>
    simp only [operands, List.mem_cons, List.not_mem_nil, or_false] at h
    simp only [binary.sizeOf_spec]
    rcases h with rfl | rfl <;> omega
  | conditional head rest =>
    have hcondition (b : Branch) : sizeOf b.condition < sizeOf b := by
      cases b
      simp only [Branch.mk.sizeOf_spec]
      omega
    simp only [conditional.sizeOf_spec]
    obtain ⟨b, hb, rfl⟩ := List.mem_map.1 h
    have hlt := hcondition b
    rcases List.mem_cons.1 hb with rfl | hb
    · omega
    · have hmem := List.sizeOf_lt_of_mem hb
      omega
  | absent | string | number | boolean | null | reference => cases h

/-- What holds of an expression as soon as it holds of its operands holds of all expressions. -/
theorem operands_induction {motive : Expr → Prop}
    (step : ∀ e : Expr, (∀ c ∈ e.operands, motive c) → motive e) (e : Expr) : motive e :=
  step e fun c _ => operands_induction step c
termination_by sizeOf e
decreasing_by exact sizeOf_lt_of_mem_operands ‹_›

theorem stringsEntries_eq_flatMap (es : List (Expr × Expr)) :
    stringsEntries es = (es.flatMap fun (k, v) => [k, v]).flatMap strings := by
  induction es with
  | nil => rfl
  | cons e es ih =>
    obtain ⟨k, v⟩ := e
    rw [stringsEntries, ih, List.flatMap_cons, List.flatMap_append]
    simp

theorem stringsBranches_eq_flatMap (bs : List Branch) :
    stringsBranches bs = (bs.map (·.condition)).flatMap strings := by
  induction bs with
  | nil => rfl
  | cons b bs ih =>
    rw [stringsBranches, ih, List.map_cons, List.flatMap_cons]
    cases b
    rfl

/-- The literals of an expression are itself, if it is one, and those of its operands. -/
theorem strings_eq (e : Expr) : e.strings = e.string?.toList ++ e.operands.flatMap strings := by
  cases e with
  | array _ items => exact stringsAll_eq_flatMap items
  | hash _ entries => exact stringsEntries_eq_flatMap entries
  | call _ _ args => exact stringsAll_eq_flatMap args
  | methodCall _ receiver _ args =>
    rw [strings, stringsAll_eq_flatMap]
    rfl
  | conditional head rest => exact stringsBranches_eq_flatMap (head :: rest)
  | unary | binary => simp [strings, string?, operands]
  | absent | string | number | boolean | null | reference => rfl

/-! ## Literals and their places -/

/-- The string literals of an expression, each with the indices that lead to it. -/
def literals (e : Expr) : List (List Nat × String) :=
  e.string?.toList.map ([], ·) ++
    e.operands.attach.zipIdx.flatMap fun (c, i) => c.1.literals.map fun l => (i :: l.1, l.2)
termination_by sizeOf e
decreasing_by exact sizeOf_lt_of_mem_operands c.2

/-- The literals of an operand stand behind its index. -/
theorem literals_eq (e : Expr) : e.literals = e.string?.toList.map ([], ·) ++
    e.operands.zipIdx.flatMap fun (c, i) => c.literals.map fun l => (i :: l.1, l.2) := by
  rw [literals]
  congr 1
  conv_rhs => rw [← List.attach_map_subtype_val e.operands, List.zipIdx_map, List.flatMap_map]
  rfl

/-- Without their places, the literals are those that are listed. -/
theorem map_literals (e : Expr) : e.literals.map Prod.snd = e.strings := by
  induction e using operands_induction with
  | step e ih =>
    rw [literals_eq, strings_eq, List.map_append, List.map_map, List.map_flatMap]
    congr 1
    · exact List.map_id _
    · conv_rhs => rw [← List.zipIdx_map_fst 0 e.operands, List.flatMap_map]
      refine List.flatMap_congr fun x hx => ?_
      rw [List.map_map, ← ih x.1 (List.mem_of_getElem? (List.mem_zipIdx_iff_getElem?.1 hx))]
      rfl

/-- Exactly the places that lead to a string literal are listed, with the literal. -/
theorem mem_literals {path : List Nat} {s : String} {e : Expr} :
    (path, s) ∈ e.literals ↔ ∃ span, e.at? path = some (.string span s) := by
  induction path generalizing e with
  | nil =>
    have hself : (∃ span, e = .string span s) ↔ e.string? = some s := by
      cases e <;> simp [string?]
    rw [literals_eq, at?]
    simp [hself]
  | cons i is ih =>
    rw [literals_eq]
    simp only [List.mem_append, List.mem_map, List.mem_flatMap, Prod.mk.injEq, at?,
      Option.bind_eq_some_iff]
    constructor
    · rintro (⟨_, _, h, _⟩ | ⟨⟨c, j⟩, hc, ⟨is', s'⟩, hl, heq, rfl⟩)
      · cases h
      · cases heq
        obtain ⟨span, hspan⟩ := ih.1 hl
        exact ⟨span, c, List.mem_zipIdx_iff_getElem?.1 hc, hspan⟩
    · rintro ⟨span, c, hc, hspan⟩
      exact .inr ⟨(c, i), List.mem_zipIdx_iff_getElem?.2 hc, (is, s), ih.2 ⟨span, hspan⟩, rfl, rfl⟩

/-- The places of the literals increase: each literal is listed once, from left to right. -/
theorem literals_increasing (e : Expr) : e.literals.Pairwise fun l l' => l.1 < l'.1 := by
  induction e using operands_induction with
  | step e ih =>
    rw [literals_eq, List.pairwise_append]
    refine ⟨?_, List.pairwise_flatMap.2 ⟨fun x hx => ?_, ?_⟩, ?_⟩
    · cases e.string? with
      | none => exact .nil
      | some s => exact List.pairwise_singleton ..
    · have hoperand := ih x.1 (List.mem_of_getElem? (List.mem_zipIdx_iff_getElem?.1 hx))
      exact List.pairwise_map.2 (hoperand.imp fun h => List.cons_lt_cons_iff.2 (.inr ⟨rfl, h⟩))
    · have hindices : e.operands.zipIdx.Pairwise fun x y => x.2 < y.2 := by
        rw [← List.pairwise_map, List.zipIdx_map_snd]
        exact List.pairwise_lt_range'
      refine hindices.imp fun hlt l hl l' hl' => ?_
      obtain ⟨m, -, rfl⟩ := List.mem_map.1 hl
      obtain ⟨m', -, rfl⟩ := List.mem_map.1 hl'
      exact List.cons_lt_cons_iff.2 (.inl hlt)
    · intro l hl l' hl'
      obtain ⟨s, -, rfl⟩ := List.mem_map.1 hl
      obtain ⟨x, -, hx⟩ := List.mem_flatMap.1 hl'
      obtain ⟨m, -, rfl⟩ := List.mem_map.1 hx
      exact List.nil_lt_cons ..

/-- A predicate is found in an expression exactly if one of the listed literals satisfies it, and
listed are the string literals to which indices lead, each once, in the order of the indices. -/
theorem literals_in_order (e : Expr) :
    (∀ p : String → Bool, e.matchesString p = true ↔ ∃ s ∈ e.strings, p s = true) ∧
      ∃ places : List (List Nat), places.Pairwise (· < ·) ∧
        (∀ path, path ∈ places ↔ ∃ span s, e.at? path = some (.string span s)) ∧
        e.strings.map some = places.map fun path => (e.at? path).bind string? := by
  refine ⟨fun p => matchesString_iff, e.literals.map Prod.fst, ?_, fun path => ?_, ?_⟩
  · exact List.pairwise_map.2 e.literals_increasing
  · constructor
    · intro hpath
      obtain ⟨l, hl, rfl⟩ := List.mem_map.1 hpath
      obtain ⟨span, hspan⟩ := mem_literals.1 hl
      exact ⟨span, l.2, hspan⟩
    · rintro ⟨span, s, hspan⟩
      exact List.mem_map.2 ⟨(path, s), mem_literals.2 ⟨span, hspan⟩, rfl⟩
  · rw [← map_literals, List.map_map, List.map_map]
    refine List.map_congr_left fun l hl => ?_
    obtain ⟨span, hspan⟩ := mem_literals.1 hl
    rw [Function.comp_apply, Function.comp_apply, hspan]
    rfl

end InfraSmells.Expr
