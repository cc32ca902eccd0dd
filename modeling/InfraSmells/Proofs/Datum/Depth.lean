import InfraSmells.Proofs.Datum.Json

/-!
# Deep JSON texts

A reader is given the number of levels that a value may have. What it reads has no more levels, and
more levels would not change what is read (`Json.levels_readValue`). A written value of too many
levels would be read if they were allowed, so it is not read (`Datum.ofJson?_write_deep`).
-/

namespace InfraSmells

namespace Json

variable {α : Type} {depth : Nat}

/-- What is read with this number of levels has no more of them, and is read as well with more. -/
def Levels (size : α → Nat) (read : Nat → Option (α × List Char)) (depth : Nat) : Prop :=
  ∀ a rest, read depth = some (a, rest) →
    size a ≤ depth ∧ ∀ more, depth ≤ more → read more = some (a, rest)

/-- A list or table has one level more than what stands between its brackets. -/
theorem Levels.wrap {size : α → Nat} {read : Nat → Option (α × List Char)} {wrap : α → Datum}
    (h : Levels size read (depth - 1)) (hdepth : depth ≠ 0)
    (hwrap : ∀ a, (wrap a).depth = size a + 1) :
    Levels Datum.depth (fun n => (read (n - 1)).map fun (a, rest) => (wrap a, rest)) depth := by
  intro d rest hread
  obtain ⟨⟨a, r⟩, ha, heq⟩ := Option.map_eq_some_iff.1 hread
  cases heq
  obtain ⟨hsize, hmore⟩ := h a rest ha
  refine ⟨by rw [hwrap]; omega, fun more hle => ?_⟩
  dsimp only
  rw [hmore (more - 1) (by omega)]
  rfl

/-- A reader that needs a level has none to fall short of without levels. -/
theorem Levels.positive {size : α → Nat} {read : Nat → Option (α × List Char)}
    {a : α} {rest : List Char} (h : depth ≠ 0 → Levels size read depth)
    (hread : (if depth = 0 then none else read depth) = some (a, rest)) :
    size a ≤ depth ∧ ∀ more, depth ≤ more → (if more = 0 then none else read more) = some (a, rest) := by
  split at hread
  · cases hread
  next hdepth =>
  obtain ⟨hsize, hmore⟩ := h hdepth a rest hread
  exact ⟨hsize, fun more hle => (if_neg (by omega)).trans (hmore more hle)⟩

mutual

/-- The levels of a value. -/
theorem levels_readValue : ∀ (fuel depth : Nat) (cs : List Char),
    Levels Datum.depth (readValue fuel · cs) depth
  | 0, _, _ => fun _ _ h => by simp [readValue] at h
  | fuel + 1, depth, cs => fun d rest => by
    simp only [readValue]
    split
    · -- a string
      intro h
      obtain ⟨_, -, heq⟩ := Option.map_eq_some_iff.1 h
      cases heq
      exact ⟨Nat.zero_le _, fun _ _ => h⟩
    · -- a table
      intro h
      refine @Levels.positive _ depth Datum.depth _ d rest (fun hdepth d rest => ?_) h
      split
      · exact fun h => ⟨by cases h; exact Nat.one_le_iff_ne_zero.2 hdepth, fun _ _ => h⟩
      · exact (levels_readMembers fuel (depth - 1) _).wrap hdepth (fun _ => rfl) d rest
    · -- a list
      intro h
      refine @Levels.positive _ depth Datum.depth _ d rest (fun hdepth d rest => ?_) h
      split
      · exact fun h => ⟨by cases h; exact Nat.one_le_iff_ne_zero.2 hdepth, fun _ _ => h⟩
      · exact (levels_readItems fuel (depth - 1) _).wrap hdepth (fun _ => rfl) d rest
    · exact fun h => ⟨by cases h; exact Nat.zero_le _, fun _ _ => h⟩
    · exact fun h => ⟨by cases h; exact Nat.zero_le _, fun _ _ => h⟩
    · exact fun h => ⟨by cases h; exact Nat.zero_le _, fun _ _ => h⟩
    · -- a number
      intro h
      obtain ⟨_, -, heq⟩ := Option.map_eq_some_iff.1 h
      cases heq
      exact ⟨Nat.zero_le _, fun _ _ => h⟩

/-- The levels of items. -/
theorem levels_readItems : ∀ (fuel depth : Nat) (cs : List Char),
    Levels Datum.itemsDepth (readItems fuel · cs) depth
  | 0, _, _ => fun _ _ h => by simp [readItems] at h
  | fuel + 1, depth, cs => fun ds rest h => by
    simp only [readItems, Option.bind_eq_bind, Option.bind_eq_some_iff] at h ⊢
    obtain ⟨⟨d, cs'⟩, hd, h⟩ := h
    obtain ⟨hsize, hmore⟩ := levels_readValue fuel depth cs d cs' hd
    dsimp only at h
    split at h
    · next heq =>
      obtain ⟨⟨ds', r⟩, hds, h⟩ := Option.bind_eq_some_iff.1 h
      cases h
      obtain ⟨hsizes, hmores⟩ := levels_readItems fuel depth _ ds' r hds
      refine ⟨max_le hsize hsizes, fun more hle => ⟨_, hmore more hle, ?_⟩⟩
      simp only [heq, hmores more hle]
      rfl
    · next heq =>
      cases h
      refine ⟨max_le hsize (Nat.zero_le _), fun more hle => ⟨_, hmore more hle, ?_⟩⟩
      simp only [heq]
      rfl
    · cases h

/-- The levels of members. -/
theorem levels_readMembers : ∀ (fuel depth : Nat) (cs : List Char),
    Levels Datum.membersDepth (readMembers fuel · cs) depth
  | 0, _, _ => fun _ _ h => by simp [readMembers] at h
  | fuel + 1, depth, cs => fun ms rest h => by
    simp only [readMembers] at h ⊢
    revert h
    split
    · intro h
      obtain ⟨⟨name, cs'⟩, hname, h⟩ := Option.bind_eq_some_iff.1 h
      simp only [hname, Option.bind_eq_bind, Option.bind_some] at h ⊢
      revert h
      split
      · intro h
        obtain ⟨⟨d, cs''⟩, hd, h⟩ := Option.bind_eq_some_iff.1 h
        obtain ⟨hsize, hmore⟩ := levels_readValue fuel depth _ d cs'' hd
        dsimp only at h
        split at h
        · next heq =>
          obtain ⟨⟨ms', r⟩, hms, h⟩ := Option.bind_eq_some_iff.1 h
          cases h
          obtain ⟨hsizes, hmores⟩ := levels_readMembers fuel depth _ ms' r hms
          refine ⟨max_le hsize hsizes, fun more hle => ?_⟩
          simp only [hmore more hle, Option.bind_some, heq, hmores more hle]
          rfl
        · next heq =>
          cases h
          refine ⟨max_le hsize (Nat.zero_le _), fun more hle => ?_⟩
          simp only [hmore more hle, Option.bind_some, heq]
          rfl
        · cases h
      · exact nofun
    · exact nofun

end

end Json

namespace Datum

mutual

/-- The form of numbers does not matter to the number of levels. -/
theorem depth_withNumbers (f : Numeral → Numeral) : ∀ d : Datum, (d.withNumbers f).depth = d.depth
  | .list ds | .tables ds => congrArg (· + 1) (itemsDepth_withNumbers f ds)
  | .table ms => congrArg (· + 1) (membersDepth_withNumbers f ms)
  | .null | .flag _ | .number _ | .text _ | .bytes _ | .instant _ | .other => rfl

/-- The form of numbers does not matter to the levels of items. -/
theorem itemsDepth_withNumbers (f : Numeral → Numeral) : ∀ ds : List Datum,
    itemsDepth (withNumbersItems f ds) = itemsDepth ds
  | [] => rfl
  | d :: ds => congrArg₂ max (depth_withNumbers f d) (itemsDepth_withNumbers f ds)

/-- The form of numbers does not matter to the levels of members. -/
theorem membersDepth_withNumbers (f : Numeral → Numeral) : ∀ ms : List (String × Datum),
    membersDepth (withNumbersMembers f ms) = membersDepth ms
  | [] => rfl
  | (_, d) :: ms => congrArg₂ max (depth_withNumbers f d) (membersDepth_withNumbers f ms)

end

/-- A written value that has more levels than a text may have is not read. -/
theorem ofJson?_write_deep (level : Option Nat) {d : Datum} (h : d.IsWritten)
    (hdeep : Json.maxDepth < d.depth) : ofJson? (Json.write level d) = none := by
  obtain ⟨cs, heq, -, hread⟩ := Json.reads_write level d h (le_refl d.depth)
  have hall : Json.readValue (cs.length + 1) d.depth cs = some (d.withNumbers Json.reread, []) := by
    have hself := hread (cs.length + 1) [] (Nat.le_succ _) Json.ends_nil
    rwa [List.append_nil] at hself
  rw [heq, ofJson?, Text.characters_ofCharacters]
  cases hlimit : Json.readValue (cs.length + 1) Json.maxDepth cs with
  | none => rfl
  | some found =>
    -- with all levels allowed the same would be read, and it would be the value
    obtain ⟨hsize, hmore⟩ := Json.levels_readValue _ _ cs _ _ hlimit
    have hsame := Option.some.inj ((hmore d.depth hdeep.le).symm.trans hall)
    rw [congrArg Prod.fst hsame, depth_withNumbers] at hsize
    exact absurd hdeep (Nat.not_lt.2 hsize)

end Datum

end InfraSmells
