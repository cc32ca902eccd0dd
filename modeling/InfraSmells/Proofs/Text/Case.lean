import InfraSmells.Proofs.Text.Carried
import InfraSmells.Text.Case
import Mathlib.Data.List.Forall2

/-!
# Lower case

A character is moved by the run of the case table that holds it (`Text.find_holds`), and every run
of the table for lower case moves letters to letters: none of its characters becomes a quote, a
backslash, a control or a line separator, or was one (`Text.lowerChar_cases`), and from outside ASCII
only the letters i and k are reached in it (`Text.lowerChar_outside`). Characters of a text
change one by one (`Text.Lowers.append`).
-/

namespace InfraSmells.Text

/-! ## Runs -/

/-- A range that is found holds the number. -/
theorem find_holds {ranges : Array (Nat × Nat)} {n : Nat} : ∀ {fuel lo hi i : Nat},
    CharSet.find ranges n fuel lo hi = some i → ∃ a b, ranges[i]? = some (a, b) ∧ a ≤ n ∧ n ≤ b
  | 0, _, _, _, h => nomatch h
  | fuel + 1, lo, hi, i, h => by
    rw [CharSet.find] at h
    dsimp only at h
    split at h
    · split at h
      · cases h
      next a b hget =>
      split at h
      · exact find_holds h
      split at h
      · exact find_holds h
      · cases h
        exact ⟨a, b, hget, by omega, by omega⟩
    · cases h

/-- The run begins behind the line separators or ends before them, and so do the characters it leads
to, which are characters behind the marks and capitals of ASCII. -/
def CaseRun.Plain (r : CaseRun) : Prop :=
  (r.hi < 0x2028 ∨ 0x2029 < r.lo) ∧
    (r.hi + r.up - r.down < 0x2028 ∨ 0x2029 < r.lo + r.up - r.down) ∧
    0x5C < r.lo + r.up - r.down ∧
    (r.hi + r.up - r.down < 0xD800 ∨
      0xDFFF < r.lo + r.up - r.down ∧ r.hi + r.up - r.down < 0x110000)

instance : DecidablePred CaseRun.Plain := fun _ =>
  inferInstanceAs (Decidable (_ ∧ _))

set_option maxRecDepth 20000 in
/-- The runs of the table for lower case. -/
theorem lowerTable_plain : ∀ r ∈ lowerTable.runs.toList, r.Plain := by
  rw [lowerTable, CaseTable.ofText, String.toList_ofList]
  decide +kernel

/-- The run holds characters of ASCII, or it leads out of it or from one character to an i or a k. -/
def CaseRun.Outside (r : CaseRun) : Prop :=
  r.hi < 0x80 ∨ 0x80 ≤ r.lo + r.up - r.down ∨
    r.lo = r.hi ∧ (r.lo + r.up - r.down = 0x69 ∨ r.lo + r.up - r.down = 0x6B)

instance : DecidablePred CaseRun.Outside := fun _ =>
  inferInstanceAs (Decidable (_ ∨ _))

set_option maxRecDepth 20000 in
/-- The only runs of the table for lower case that lead into ASCII from outside. -/
theorem lowerTable_outside : ∀ r ∈ lowerTable.runs.toList, r.Outside := by
  rw [lowerTable, CaseTable.ofText, String.toList_ofList]
  decide +kernel

/-- The keys of a table are the ends of its runs. -/
theorem keys_ofText {s : String} {i a b : Nat}
    (h : (CaseTable.ofText s).keys[i]? = some (a, b)) :
    ∃ r, (CaseTable.ofText s).runs[i]? = some r ∧ a = r.lo ∧ b = r.hi := by
  simp only [CaseTable.ofText, List.getElem?_toArray, List.getElem?_map,
    Option.map_eq_some_iff] at h ⊢
  obtain ⟨r, ⟨cs, hcs, rfl⟩, heq⟩ := h
  cases heq
  exact ⟨_, ⟨cs, hcs, rfl⟩, rfl, rfl⟩

/-- The run by which a table moves a character is one of its runs and holds the character. -/
theorem holds_of_run {s : String} {n : Nat} {r : CaseRun}
    (h : (CharSet.find (CaseTable.ofText s).keys n 32 0 (CaseTable.ofText s).keys.size).bind
      ((CaseTable.ofText s).runs[·]?) = some r) :
    r ∈ (CaseTable.ofText s).runs.toList ∧ r.lo ≤ n ∧ n ≤ r.hi := by
  obtain ⟨i, hfind, hrun⟩ := Option.bind_eq_some_iff.1 h
  obtain ⟨a, b, hkey, hlo, hhi⟩ := find_holds hfind
  obtain ⟨r', hrun', rfl, rfl⟩ := keys_ofText hkey
  cases hrun.symm.trans hrun'
  exact ⟨Array.mem_toList_iff.2 (Array.mem_of_getElem? hrun), hlo, hhi⟩

/-- A character outside ASCII stays as it is in lower case, or a run that holds it moves it. -/
theorem lowerChar_run {c : Char} (hc : 0x80 ≤ c.toNat) : lowerChar c = c ∨
    ∃ r ∈ lowerTable.runs.toList, (r.lo ≤ c.toNat ∧ c.toNat ≤ r.hi) ∧
      (lowerChar c).toNat = c.toNat + r.up - r.down := by
  rw [lowerChar, if_neg (by omega), CaseTable.map]
  split
  · next r hr =>
    split
    · obtain ⟨hmem, hheld⟩ := holds_of_run hr
      obtain ⟨-, -, -, hvalid⟩ := lowerTable_plain r hmem
      refine .inr ⟨r, hmem, hheld, toNat_ofNat_char ?_⟩
      rw [Nat.isValidChar]
      omega
    · exact .inl rfl
  · exact .inl rfl

/-- A character outside ASCII stays as it is in lower case, or neither it nor the character it
becomes is a line separator, and this is behind the marks of ASCII. -/
theorem lowerChar_cases {c : Char} (hc : 0x80 ≤ c.toNat) : lowerChar c = c ∨
    (c.toNat ≠ 0x2028 ∧ c.toNat ≠ 0x2029) ∧ 0x5C < (lowerChar c).toNat ∧
      (lowerChar c).toNat ≠ 0x2028 ∧ (lowerChar c).toNat ≠ 0x2029 := by
  refine (lowerChar_run hc).imp_right ?_
  rintro ⟨r, hmem, ⟨hlo, hhi⟩, hmoved⟩
  obtain ⟨hfrom, hto, hbehind, -⟩ := lowerTable_plain r hmem
  omega

/-- A character outside ASCII becomes a letter i or k, or it stays outside. -/
theorem lowerChar_outside {c : Char} (hc : 0x80 ≤ c.toNat) :
    lowerChar c = 'i' ∨ lowerChar c = 'k' ∨ 0x80 ≤ (lowerChar c).toNat := by
  rcases lowerChar_run hc with hself | ⟨r, hmem, ⟨hlo, hhi⟩, hmoved⟩
  · exact .inr (.inr (by rwa [hself]))
  have hletter {d : Char} (h : (lowerChar c).toNat = d.toNat) : lowerChar c = d := Char.toNat_inj.1 h
  rcases lowerTable_outside r hmem with h | h | ⟨hone, hi | hk⟩
  · omega
  · exact .inr (.inr (by omega))
  · exact .inl (hletter (show _ = 0x69 by omega))
  · exact .inr (.inl (hletter (show _ = 0x6B by omega)))

/-- Characters in front of the capitals stay as they are, and nothing else becomes one of them. -/
theorem lowerChar_eq_iff {c d : Char} (hd : d.toNat < 0x41) : lowerChar c = d ↔ c = d := by
  rcases Nat.lt_or_ge c.toNat 0x80 with hc | hc
  · rw [lowerChar, if_pos hc]
    split
    · next hcapital =>
      simp only [Bool.and_eq_true, decide_eq_true_eq, Char.le_def, UInt32.le_iff_toNat_le] at hcapital
      have hlow : 0x41 ≤ c.toNat := hcapital.1
      have hmoved : (Char.ofNat (c.toNat + 32)).toNat = c.toNat + 32 :=
        toNat_ofNat_char (.inl (by omega))
      constructor
      · rintro rfl
        omega
      · rintro rfl
        omega
    · rfl
  · rcases lowerChar_cases hc with hself | ⟨-, hbehind, -⟩
    · rw [hself]
    · constructor
      · rintro rfl
        omega
      · rintro rfl
        omega

/-- The letter s comes from itself and from its capital alone. -/
theorem lowerChar_eq_s_iff {c : Char} : lowerChar c = 's' ↔ c = 's' ∨ c = 'S' := by
  constructor
  · intro h
    rcases Nat.lt_or_ge c.toNat 0x80 with hc | hc
    · rw [lowerChar, if_pos hc] at h
      split at h
      · have hmoved : (Char.ofNat (c.toNat + 32)).toNat = c.toNat + 32 :=
          toNat_ofNat_char (.inl (by omega))
        have hs : c.toNat + 32 = 0x73 := by rw [← hmoved, h]; rfl
        exact .inr (Char.toNat_inj.1 (show c.toNat = 0x53 by omega))
      · exact .inl h
    · rcases lowerChar_outside hc with hi | hk | hbehind
      · exact absurd (h.symm.trans hi) (by decide)
      · exact absurd (h.symm.trans hk) (by decide)
      · exact absurd (h ▸ hbehind) (by decide)
  · rintro (rfl | rfl)
    · rfl
    · rfl

/-! ## Texts -/

/-- The text of characters in lower case is that of the characters in lower case. -/
theorem lower_ofCharacters (cs : List Char) :
    lower (ofCharacters cs) = ofCharacters (cs.map lowerChar) := by
  rw [lower, characters_ofCharacters]

/-- The characters of a text in lower case. -/
theorem characters_lower (s : String) : characters (lower s) = (characters s).map lowerChar := by
  rw [lower, characters_ofCharacters]

/-- The second text is the first in lower case, and the first comes from characters. -/
structure Lowers (s t : String) : Prop where
  plain : IsPlain s
  lower_eq : lower s = t

/-- The text of characters, by the characters. -/
theorem lowers_ofCharacters (cs : List Char) :
    Lowers (ofCharacters cs) (ofCharacters (cs.map lowerChar)) :=
  ⟨isPlain_ofCharacters cs, lower_ofCharacters cs⟩

/-- A text of characters of ASCII that are no capitals stays as it is. -/
theorem lowers_self {s : String} (h : ∀ c ∈ s.toList, c.toNat < 0x80 ∧ lowerChar c = c) :
    Lowers s s := by
  have hs : ofCharacters s.toList = s := by
    rw [ofCharacters_ascii fun c hc => (h c hc).1, String.ofList_toList]
  have hmap : s.toList.map lowerChar = s.toList :=
    (List.map_congr_left fun c hc => (h c hc).2).trans (List.map_id _)
  have hself := lowers_ofCharacters s.toList
  rwa [hmap, hs] at hself

/-- Does the character belong to ASCII, and is it no capital? -/
def isSmall (c : Char) : Bool :=
  decide (c.toNat < 0x80) && lowerChar c == c

/-- A word without capitals stays as it is. -/
theorem lowers_word {s : String} (h : s.toList.all isSmall = true) : Lowers s s := by
  refine lowers_self fun c hc => ?_
  have hsmall := List.all_eq_true.1 h c hc
  rw [isSmall, Bool.and_eq_true, decide_eq_true_eq, beq_iff_eq] at hsmall
  exact hsmall

/-- Texts in a row change one by one. -/
theorem Lowers.append {a b a' b' : String} (ha : Lowers a a') (hb : Lowers b b') :
    Lowers (a ++ b) (a' ++ b') := by
  obtain ⟨⟨as, rfl⟩, rfl⟩ := ha
  obtain ⟨⟨bs, rfl⟩, rfl⟩ := hb
  have hall := lowers_ofCharacters (as ++ bs)
  rwa [List.map_append, ofCharacters_append, ofCharacters_append, ← lower_ofCharacters,
    ← lower_ofCharacters] at hall

/-- Texts between separators change one by one. -/
theorem lowers_join {sep : String} (hsep : Lowers sep sep) {ws ws' : List String}
    (h : List.Forall₂ Lowers ws ws') : Lowers (join sep ws) (join sep ws') := by
  induction h with
  | nil => exact lowers_self nofun
  | @cons w w' ws ws' hw hws ih =>
    cases hws with
    | nil => exact hw
    | cons _ _ => exact (hw.append hsep).append ih

end InfraSmells.Text
