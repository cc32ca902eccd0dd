import InfraSmells.Proofs.Text.Parts
import InfraSmells.Url
import Mathlib.Data.List.TakeWhile

/-!
# Cutting at a separator

A separator of one character cuts a text at its first occurrence (`Text.cutAt_eq_some_iff`) or at its
last one (`Url.cutLast_eq_some_iff`), and the part on the other side has none. What stands before the
first separator is the longest beginning without one (`Text.toList_before`).
-/

namespace InfraSmells.Text

variable {c : Char} {cs head rest : List Char}

/-- A text is cut nowhere if it has no separator. -/
theorem cutAt_eq_none_iff : cutAt [c] cs = none ↔ c ∉ cs := by
  induction cs with
  | nil => simp [cutAt]
  | cons x cs ih =>
    by_cases hx : c = x
    · simp [cutAt, afterStart, hx]
    · simp [cutAt, afterStart, hx, ih]

/-- A text is cut at the first separator. -/
theorem cutAt_eq_some_iff :
    cutAt [c] cs = some (head, rest) ↔ cs = head ++ c :: rest ∧ c ∉ head := by
  induction cs generalizing head with
  | nil => simp [cutAt]
  | cons x cs ih =>
    by_cases hx : c = x
    · subst hx
      cases head with
      | nil => simp [cutAt, afterStart]
      | cons y head => simp +contextual [cutAt, afterStart]
    · cases head with
      | nil => simp [cutAt, afterStart, hx, Ne.symm hx]
      | cons y head =>
        have hcut : cutAt [c] (x :: cs) = some (y :: head, rest) ↔
            x = y ∧ cutAt [c] cs = some (head, rest) := by
          simp [cutAt, afterStart, hx, and_left_comm]
        rw [hcut, ih]
        constructor
        · rintro ⟨rfl, rfl, hhead⟩
          exact ⟨rfl, by simp [hx, hhead]⟩
        · rintro ⟨heq, hhead⟩
          cases heq
          exact ⟨rfl, rfl, List.not_mem_of_not_mem_cons hhead⟩

/-- Before the first separator stands the longest beginning without one. -/
theorem head_cutAt (cs other : List Char) :
    ((cutAt [c] cs).getD (cs, other)).1 = cs.takeWhile (· != c) := by
  have hall {l : List Char} (hl : c ∉ l) : ∀ x ∈ l, (x != c) = true := fun x hx =>
    bne_iff_ne.2 (ne_of_mem_of_not_mem hx hl)
  cases hcut : cutAt [c] cs with
  | none =>
    exact (List.takeWhile_eq_self_iff.2 (hall (cutAt_eq_none_iff.1 hcut))).symm
  | some parts =>
    obtain ⟨hs, hhead⟩ := cutAt_eq_some_iff.1 hcut
    rw [hs, List.takeWhile_append_of_pos (hall hhead), List.takeWhile_cons_of_neg (by simp),
      List.append_nil, Option.getD_some]

/-- The longest beginning without several marks is the one without the others, in front of the first. -/
theorem takeWhile_marks (m : Char) (marks cs : List Char) :
    cs.takeWhile (fun c => !(m :: marks).contains c) =
      (cs.takeWhile (· != m)).takeWhile fun c => !marks.contains c := by
  rw [List.takeWhile_takeWhile]
  congr 1
  funext c
  rw [List.contains_cons, Bool.not_or, Bool.and_comm, bne, Bool.decide_and, Bool.decide_eq_true,
    Bool.decide_eq_true]

/-- The text before a separator is the longest beginning without it. -/
theorem toList_before {sep : String} (hsep : sep.toList = [c]) (s : String) :
    (before sep s).toList = s.toList.takeWhile (· != c) := by
  rw [← head_cutAt s.toList [], before, hsep]
  cases cutAt [c] s.toList with
  | none => rfl
  | some parts => exact String.toList_ofList

/-- A word is found behind a text without its first character. -/
theorem cutAt_append (word rest : List Char) : ∀ {head : List Char}, c ∉ head →
    cutAt (c :: word) (head ++ (c :: word ++ rest)) = some (head, rest)
  | [], _ => by
    rw [List.nil_append, List.cons_append, cutAt, ← List.cons_append, afterStart_eq_some_iff.2 rfl]
  | x :: head, h => by
    obtain ⟨hne, hhead⟩ := List.ne_and_not_mem_of_not_mem_cons h
    rw [List.cons_append, cutAt, afterStart, if_neg hne]
    exact congrArg (Option.map _) (cutAt_append word rest hhead)

end InfraSmells.Text

namespace InfraSmells.Url

variable {c : Char} {cs head rest : List Char}

/-- A text is cut nowhere if it has no separator. -/
theorem cutLast_eq_none_iff : cutLast c cs = none ↔ c ∉ cs := by
  rw [cutLast, ← List.mem_reverse, ← Text.cutAt_eq_none_iff]
  cases Text.cutAt [c] cs.reverse <;> simp

/-- A text is cut at the last separator. -/
theorem cutLast_eq_some_iff :
    cutLast c cs = some (head, rest) ↔ cs = head ++ c :: rest ∧ c ∉ rest := by
  have hreverse : cutLast c cs = some (head, rest) ↔
      Text.cutAt [c] cs.reverse = some (rest.reverse, head.reverse) := by
    rw [cutLast]
    cases Text.cutAt [c] cs.reverse with
    | none => simp
    | some parts => simp [Prod.ext_iff, List.reverse_eq_iff, and_comm]
  rw [hreverse, Text.cutAt_eq_some_iff, List.mem_reverse, List.reverse_eq_iff]
  simp

end InfraSmells.Url
