import InfraSmells.Proofs.Text.Lines
import InfraSmells.Terraform.Token
import Mathlib.Data.List.Basic
import Mathlib.Order.Basic

/-!
# Positions behind characters

Positions are ordered by line and column, and going on in a source never leads back
(`Terraform.Position.le_behind`). What a position behind characters can be is told by their bytes
(`Terraform.Position.Reached`): its line counts no newline that is not among them, and where it
counts them all and a newline is the last, the column is the first. Columns are cut from characters
without losing bytes, so the position behind characters is reached by their bytes
(`Position.Reached.behind`).
-/

namespace InfraSmells.Terraform

open Text (bytesOf lineFeed)

/-! ## The order of positions -/

/-- Positions are ordered by line, then by column. -/
instance : Preorder Position where
  le p q := p.line < q.line ∨ p.line = q.line ∧ p.column ≤ q.column
  le_refl _ := .inr ⟨rfl, Nat.le_refl _⟩
  le_trans _ _ _ _ _ := by omega

namespace Position

variable {p q : Position}

theorem le_def : p ≤ q ↔ p.line < q.line ∨ p.line = q.line ∧ p.column ≤ q.column :=
  Iff.rfl

theorem line_le (h : p ≤ q) : p.line ≤ q.line := by
  rw [le_def] at h
  omega

/-- The position behind a column is not before it. -/
theorem le_past (p : Position) (column : List Char) : p ≤ p.past column := by
  rw [le_def, past]
  split
  · exact .inl (Nat.lt_succ_self _)
  · exact .inr ⟨rfl, Nat.le_succ _⟩

/-- The position behind characters is not before them. -/
theorem le_behind (p : Position) (cs : List Char) : p ≤ p.behind cs := by
  rw [behind]
  induction columns cs generalizing p with
  | nil => exact le_refl p
  | cons column rest ih => exact (le_past p column).trans (ih _)

end Position

/-! ## Columns are cut without losing bytes -/

/-- The bytes of a character in a set are at least one. -/
theorem pos_of_leadingBytes? {s : Text.CharSet} {bs : List UInt8} {n : Nat}
    (h : s.leadingBytes? bs = some n) : 0 < n := by
  obtain ⟨⟨lo, hi⟩, -, h⟩ := List.exists_of_findSome?_eq_some h
  obtain ⟨⟨a, b⟩, -, h⟩ := List.exists_of_findSome?_eq_some h
  simp only [Text.bytesBetween?] at h
  split at h
  · cases h
    exact List.length_pos_iff.2 String.utf8EncodeChar_ne_nil
  · cases h

/-- The bytes of a sequence that begins as a character are at least one. -/
theorem pos_of_looseLength? {bs : List UInt8} {n : Nat} (h : Text.looseLength? bs = some n) :
    0 < n := by
  cases bs with
  | nil => cases h
  | cons b rest =>
    have htails {k : Nat} (h : (if ((rest.take k).takeWhile Text.isTail).length = k
        then some (k + 1) else none) = some n) : 0 < n := by
      split at h
      · cases h
        exact Nat.succ_pos k
      · cases h
    simp only [Text.looseLength?] at h
    split at h
    · cases h
      exact Nat.one_pos
    split at h
    · cases h
    split at h
    · exact htails h
    split at h
    · exact htails h
    split at h
    · exact htails h
    · cases h

/-- The bytes of a class are at least one. -/
theorem pos_of_bytesClass? {bs : List UInt8} {k : Text.ClusterClass} {n : Nat}
    (h : bytesClass? bs = some (k, n)) : 0 < n := by
  simp only [bytesClass?, Option.orElse_eq_orElse, Option.orElse_eq_or, Option.or_eq_some_iff] at h
  rcases h with h | ⟨-, h⟩
  · obtain ⟨⟨set, k'⟩, -, h⟩ := List.exists_of_findSome?_eq_some h
    obtain ⟨m, hm, heq⟩ := Option.map_eq_some_iff.1 h
    cases heq
    exact pos_of_leadingBytes? hm
  · obtain ⟨m, hm, heq⟩ := Option.map_eq_some_iff.1 h
    cases heq
    exact pos_of_looseLength? hm

/-- A step takes characters and loses no bytes. -/
theorem columnStep_bytes (c : Char) (cs : List Char) :
    (columnStep c cs).1.chars ≠ [] ∧
      bytesOf (columnStep c cs).1.chars ++ bytesOf (columnStep c cs).2 = bytesOf (c :: cs) := by
  rw [columnStep]
  split
  · split
    · next k n hclass =>
      exact ⟨Text.splitBytes_ne_nil (pos_of_bytesClass? hclass) (List.cons_ne_nil c cs),
        Text.bytesOf_splitBytes n (c :: cs)⟩
    · exact ⟨List.cons_ne_nil c [], by simp⟩
  split
  · exact ⟨List.cons_ne_nil c [], by simp⟩
  · exact ⟨List.cons_ne_nil c [], by simp⟩

/-- Steps take characters from the front, in the order of their bytes. -/
theorem columnSteps_bytes : ∀ (fuel : Nat) (cs : List Char),
    (∀ step ∈ columnSteps fuel cs, step.chars ≠ []) ∧
      bytesOf ((columnSteps fuel cs).flatMap (·.chars)) <+: bytesOf cs
  | 0, _ => by simp [columnSteps]
  | _ + 1, [] => by simp [columnSteps]
  | fuel + 1, c :: cs => by
    have ⟨hne, hbytes⟩ := columnStep_bytes c cs
    have ⟨hrest, rest, hprefix⟩ := columnSteps_bytes fuel (columnStep c cs).2
    rw [columnSteps]
    refine ⟨List.forall_mem_cons.2 ⟨hne, hrest⟩, rest, ?_⟩
    rw [List.flatMap_cons, Text.bytesOf_append, List.append_assoc, hprefix, hbytes]

/-- A column takes at least one step. -/
theorem columnLength_pos {steps : List Text.ClusterStep} (h : steps ≠ []) :
    0 < columnLength steps := by
  unfold columnLength
  split
  · exact Nat.two_pos
  · simp only [runLength]
    rw [List.takeWhile_cons_of_pos (by rfl)]
    exact Nat.add_pos_left (Nat.succ_pos _) _
  · omega

/-- Columns are the characters of the steps. -/
theorem columnsOf_flatten : ∀ (fuel : Nat) (steps : List Text.ClusterStep),
    (∀ step ∈ steps, step.chars ≠ []) → (∀ column ∈ columnsOf fuel steps, column ≠ []) ∧
      (columnsOf fuel steps).flatten <+: steps.flatMap (·.chars)
  | 0, _, _ => by simp [columnsOf]
  | _ + 1, [], _ => by simp [columnsOf]
  | fuel + 1, step :: steps, h => by
    have hpos := columnLength_pos (List.cons_ne_nil step steps)
    generalize hn : columnLength (step :: steps) = n at hpos
    have ⟨hne, hprefix⟩ := columnsOf_flatten fuel ((step :: steps).drop n)
      fun x hx => h x (List.mem_of_mem_drop hx)
    have hfirst : ((step :: steps).take n).flatMap (·.chars) ≠ [] := by
      obtain ⟨n, rfl⟩ := Nat.exists_eq_add_one_of_ne_zero (Nat.ne_of_gt hpos)
      simp [h step (.head _)]
    have hall : (step :: steps).flatMap (·.chars) =
        ((step :: steps).take n).flatMap (·.chars) ++ ((step :: steps).drop n).flatMap (·.chars) := by
      rw [← List.flatMap_append, List.take_append_drop]
    simp only [columnsOf, hn]
    refine ⟨List.forall_mem_cons.2 ⟨hfirst, hne⟩, ?_⟩
    rw [List.flatten_cons, hall]
    exact (List.prefix_append_right_inj _).2 hprefix

/-- Columns hold characters, and these are the first ones of those that are cut, by their bytes. -/
theorem columns_bytes (cs : List Char) : (∀ column ∈ columns cs, column ≠ []) ∧
    bytesOf (columns cs).flatten <+: bytesOf cs := by
  have ⟨hsteps, hbytes⟩ := columnSteps_bytes (4 * cs.length) cs
  have ⟨hcolumns, more, hmore⟩ := columnsOf_flatten (columnSteps (4 * cs.length) cs).length _ hsteps
  refine ⟨hcolumns, List.IsPrefix.trans ?_ hbytes⟩
  exact ⟨bytesOf more, by rw [← Text.bytesOf_append, columns, hmore]⟩

/-! ## What a position counts -/

/-- The position may stand behind the bytes: its line counts no newline that is not among them, and
where it counts them all and a newline is the last byte, the column is the first. -/
structure Position.Reached (bs : List UInt8) (p : Position) : Prop where
  line_pos : 1 ≤ p.line
  column_pos : 1 ≤ p.column
  line_le : p.line ≤ bs.count lineFeed + 1
  column_eq : bs.getLast? = some lineFeed → p.line = bs.count lineFeed + 1 → p.column = 1

namespace Position.Reached

variable {bs more : List UInt8} {p : Position}

/-- A byte that is last is counted. -/
theorem count_pos_of_getLast? {bs : List UInt8} (h : bs.getLast? = some lineFeed) :
    0 < bs.count lineFeed :=
  List.count_pos_iff.2 (List.mem_of_getLast? h)

/-- A position stays where it is when bytes follow. -/
theorem append (h : p.Reached bs) (more : List UInt8) : p.Reached (bs ++ more) := by
  refine ⟨h.line_pos, h.column_pos, ?_, fun hlast hline => ?_⟩
  · rw [List.count_append]
    have := h.line_le
    omega
  · rw [List.count_append] at hline
    have hle := h.line_le
    cases more with
    | nil =>
      rw [List.append_nil] at hlast
      exact h.column_eq hlast hline
    | cons b more =>
      -- the last byte is a newline that the position does not count
      rw [List.getLast?_append_of_ne_nil _ (List.cons_ne_nil b more)] at hlast
      have := count_pos_of_getLast? hlast
      omega

/-- A column leads on. -/
theorem past (h : p.Reached bs) {column : List Char} (hne : column ≠ []) :
    (p.past column).Reached (bs ++ bytesOf column) := by
  have hle := h.line_le
  unfold Position.past
  dsimp only
  split
  · next hnewline =>
    have hcount : 1 ≤ (bytesOf column).count lineFeed := by
      simp only [Bool.or_eq_true, decide_eq_true_eq] at hnewline
      rcases hnewline with rfl | rfl <;> decide
    refine ⟨Nat.le_add_left 1 _, Nat.le_refl 1, ?_, fun _ _ => rfl⟩
    show p.line + 1 ≤ _
    rw [List.count_append]
    omega
  · refine ⟨h.line_pos, Nat.le_succ_of_le h.column_pos, ?_, fun hlast hline => ?_⟩
    · show p.line ≤ _
      rw [List.count_append]
      omega
    · have hcount := count_pos_of_getLast?
        ((List.getLast?_append_of_ne_nil _ (Text.bytesOf_ne_nil hne)).symm.trans hlast)
      replace hline : p.line = _ := hline
      rw [List.count_append] at hline
      omega

/-- Characters lead on. -/
theorem behind (h : p.Reached bs) (cs : List Char) : (p.behind cs).Reached (bs ++ bytesOf cs) := by
  have ⟨hcolumns, more, hmore⟩ := columns_bytes cs
  rw [← hmore, ← List.append_assoc]
  refine append ?_ more
  rw [Position.behind]
  generalize columns cs = cols at hcolumns
  clear hmore
  induction cols generalizing p bs with
  | nil => simpa using h
  | cons column cols ih =>
    obtain ⟨hcolumn, hrest⟩ := List.forall_mem_cons.1 hcolumns
    have := ih (h.past hcolumn) hrest
    rwa [List.append_assoc, ← Text.bytesOf_append] at this

end Position.Reached

end InfraSmells.Terraform
