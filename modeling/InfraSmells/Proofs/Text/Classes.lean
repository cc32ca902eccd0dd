import InfraSmells.Proofs.Text.Case
import InfraSmells.Text.Blank
import InfraSmells.Text.Letter
import Mathlib.Algebra.Group.Nat.Defs

/-!
# Classes of characters

The ranges of a class of characters lie behind each other, so that bisection finds every range there is:
a character belongs to a class exactly if one of the ranges holds it (`Text.CharSet.contains_iff`). The
classes of letters and numbers are opened by this. In ASCII they are the letters and digits one expects
(`Text.isLetter_ascii`, `Text.isNumber_ascii`), and no blank belongs to them (`Text.isLetter_blank`,
`Text.isNumber_blank`).
-/

namespace InfraSmells.Text

namespace CharSet

/-! ## Bisection -/

/-- The first range lies in front of the second. -/
def Before (r s : Nat × Nat) : Prop :=
  r.1 ≤ r.2 ∧ r.2 < s.1 ∧ s.1 ≤ s.2

/-- Of ranges that lie behind each other, an earlier one is in front of a later one. -/
theorem before_of_lt {ranges : Array (Nat × Nat)} (h : ranges.toList.Pairwise Before) {i j : Nat}
    {r s : Nat × Nat} (hi : ranges[i]? = some r) (hj : ranges[j]? = some s) (hij : i < j) :
    Before r s := by
  rw [← Array.getElem?_toList] at hi hj
  obtain ⟨hilt, rfl⟩ := List.getElem?_eq_some_iff.1 hi
  obtain ⟨hjlt, rfl⟩ := List.getElem?_eq_some_iff.1 hj
  exact List.pairwise_iff_getElem.1 h i j hilt hjlt hij

/-- Bisection finds the range that holds a number. -/
theorem find_of_holds {ranges : Array (Nat × Nat)} (h : ranges.toList.Pairwise Before) {n i a b : Nat}
    (hget : ranges[i]? = some (a, b)) (ha : a ≤ n) (hb : n ≤ b) : ∀ {fuel lo hi : Nat},
    lo ≤ i → i < hi → hi ≤ ranges.size → hi - lo < 2 ^ fuel →
      (find ranges n fuel lo hi).isSome = true
  | 0, lo, hi, hlo, hhi, _, hfuel => by omega
  | fuel + 1, lo, hi, hlo, hhi, hsize, hfuel => by
    rw [Nat.pow_succ] at hfuel
    rw [find, if_pos (by omega)]
    dsimp only
    generalize hmid : (lo + hi) / 2 = mid
    obtain ⟨⟨c, d⟩, hcd⟩ : ∃ r, ranges[mid]? = some r :=
      ⟨_, Array.getElem?_eq_getElem (by omega)⟩
    rw [hcd]
    dsimp only
    rcases Nat.lt_trichotomy mid i with hlt | rfl | hgt
    · have hbefore := before_of_lt h hcd hget hlt
      simp only [Before] at hbefore
      rw [if_neg (by omega), if_pos (by omega)]
      exact find_of_holds h hget ha hb (by omega) hhi hsize (by omega)
    · cases hcd.symm.trans hget
      rw [if_neg (by omega), if_neg (by omega)]
      rfl
    · have hbefore := before_of_lt h hget hcd hgt
      simp only [Before] at hbefore
      rw [if_pos (by omega)]
      exact find_of_holds h hget ha hb hlo (by omega) (by omega) (by omega)

/-- A character is in a set exactly if one of the ranges holds it. -/
theorem contains_iff {s : CharSet} (h : s.ranges.toList.Pairwise Before) (hsize : s.ranges.size < 2 ^ 32)
    {c : Char} : s.contains c = true ↔ ∃ r ∈ s.ranges.toList, r.1 ≤ c.toNat ∧ c.toNat ≤ r.2 := by
  constructor
  · intro hc
    obtain ⟨i, hi⟩ := Option.isSome_iff_exists.1 hc
    obtain ⟨a, b, hget, ha, hb⟩ := find_holds hi
    exact ⟨(a, b), Array.mem_toList_iff.2 (Array.mem_of_getElem? hget), ha, hb⟩
  · rintro ⟨⟨a, b⟩, hmem, ha, hb⟩
    obtain ⟨i, hi⟩ := Array.mem_iff_getElem?.1 (Array.mem_toList_iff.1 hmem)
    have hlt : i < s.ranges.size := (Array.getElem?_eq_some_iff.1 hi).1
    exact find_of_holds h hi ha hb (Nat.zero_le i) hlt (Nat.le_refl _) (by omega)

end CharSet

/-! ## Blanks -/

/-- The ranges of the blanks. -/
def blankRanges : List (Nat × Nat) :=
  [(0x9, 0xD), (0x20, 0x20), (0x85, 0x85), (0xA0, 0xA0), (0x1680, 0x1680), (0x2000, 0x200A),
    (0x2028, 0x2029), (0x202F, 0x202F), (0x205F, 0x205F), (0x3000, 0x3000)]

theorem isBlank_iff {c : Char} :
    isBlank c = true ↔ ∃ r ∈ blankRanges, r.1 ≤ c.toNat ∧ c.toNat ≤ r.2 := by
  simp only [isBlank, blankRanges, List.mem_cons, List.not_mem_nil, or_false, exists_eq_or_imp,
    exists_eq_left, Bool.or_eq_true, Bool.and_eq_true, decide_eq_true_eq, beq_iff_eq]
  omega

/-- Does no blank lie between the two numbers? -/
def isFree (a b : Nat) : Bool :=
  blankRanges.all fun s => Nat.blt b s.1 || Nat.blt s.2 a

/-- A number of a free range is that of no blank. -/
theorem not_isBlank_of_isFree {a b : Nat} (h : isFree a b = true) {c : Char} (ha : a ≤ c.toNat)
    (hb : c.toNat ≤ b) : isBlank c = false := by
  rw [Bool.eq_false_iff, ne_eq, isBlank_iff]
  rintro ⟨s, hs, hlo, hhi⟩
  have hfree := List.all_eq_true.1 h s hs
  simp only [Bool.or_eq_true, Nat.blt_eq] at hfree
  omega

/-! ## Letters and numbers -/

namespace CharSet

/-- Do the ranges lie behind each other and behind the number `last`, and is none of a blank? -/
def isOrderly : Nat → List (Nat × Nat) → Bool
  | _, [] => true
  | last, r :: rest => Nat.blt last r.1 && Nat.ble r.1 r.2 && isFree r.1 r.2 && isOrderly r.2 rest

theorem isOrderly_cons {last : Nat} {r : Nat × Nat} {rest : List (Nat × Nat)} :
    isOrderly last (r :: rest) = true ↔
      last < r.1 ∧ r.1 ≤ r.2 ∧ isFree r.1 r.2 = true ∧ isOrderly r.2 rest = true := by
  simp only [isOrderly, Bool.and_eq_true, Nat.blt_eq, Nat.ble_eq, and_assoc]

/-- Orderly ranges are behind the number, and free of blanks. -/
theorem forall_of_isOrderly : ∀ {ranges : List (Nat × Nat)} {last : Nat},
    isOrderly last ranges = true → ∀ r ∈ ranges, last < r.1 ∧ r.1 ≤ r.2 ∧ isFree r.1 r.2 = true
  | [], _, _ => nofun
  | r :: rest, last, h => by
    obtain ⟨hlast, hle, hfree, hrest⟩ := isOrderly_cons.1 h
    refine List.forall_mem_cons.2 ⟨⟨hlast, hle, hfree⟩, fun s hs => ?_⟩
    obtain ⟨hs', hsle, hsfree⟩ := forall_of_isOrderly hrest s hs
    exact ⟨by omega, hsle, hsfree⟩

/-- Orderly ranges lie behind each other. -/
theorem pairwise_of_isOrderly : ∀ {ranges : List (Nat × Nat)} {last : Nat},
    isOrderly last ranges = true → ranges.Pairwise Before
  | [], _, _ => .nil
  | r :: rest, last, h => by
    obtain ⟨-, hle, -, hrest⟩ := isOrderly_cons.1 h
    refine .cons (fun s hs => ?_) (pairwise_of_isOrderly hrest)
    obtain ⟨hs', hsle, -⟩ := forall_of_isOrderly hrest s hs
    exact ⟨hle, hs', hsle⟩

/-- The ranges of the set are orderly, and the first of them are these. -/
structure StartsWith (s : CharSet) (first : List (Nat × Nat)) : Prop where
  orderly : isOrderly 0 s.ranges.toList = true
  size_lt : s.ranges.size < 2 ^ 32
  first_eq : s.ranges.toList.take first.length = first

instance (s : CharSet) (first : List (Nat × Nat)) : Decidable (s.StartsWith first) :=
  decidable_of_iff (isOrderly 0 s.ranges.toList = true ∧ s.ranges.size < 2 ^ 32 ∧
      s.ranges.toList.take first.length = first)
    ⟨fun ⟨h, hsize, hfirst⟩ => ⟨h, hsize, hfirst⟩, fun h => ⟨h.orderly, h.size_lt, h.first_eq⟩⟩

variable {s : CharSet} {first : List (Nat × Nat)} {c : Char}

/-- A character is in the set exactly if a range holds it. -/
theorem StartsWith.contains_iff (h : s.StartsWith first) :
    s.contains c = true ↔ ∃ r ∈ s.ranges.toList, r.1 ≤ c.toNat ∧ c.toNat ≤ r.2 :=
  CharSet.contains_iff (pairwise_of_isOrderly h.orderly) h.size_lt

/-- No blank is in the set. -/
theorem StartsWith.contains_blank (h : s.StartsWith first) (hc : isBlank c = true) :
    s.contains c = false := by
  rw [Bool.eq_false_iff, ne_eq, h.contains_iff]
  rintro ⟨r, hr, hlo, hhi⟩
  have hfree := (forall_of_isOrderly h.orderly r hr).2.2
  rw [not_isBlank_of_isFree hfree hlo hhi] at hc
  cases hc

/-- A character not behind the last of the first ranges is in the set exactly if one of these holds it. -/
theorem StartsWith.contains_first (first : List (Nat × Nat)) {a b : Nat}
    (h : s.StartsWith (first ++ [(a, b)])) (hc : c.toNat < a) :
    s.contains c = true ↔ ∃ r ∈ first, r.1 ≤ c.toNat ∧ c.toNat ≤ r.2 := by
  obtain ⟨rest, hrest⟩ : ∃ rest, s.ranges.toList = first ++ (a, b) :: rest := by
    refine ⟨s.ranges.toList.drop (first ++ [(a, b)]).length,
      (List.take_append_drop (first ++ [(a, b)]).length _).symm.trans ?_⟩
    rw [h.first_eq, List.append_assoc, List.singleton_append]
  have hpairs := pairwise_of_isOrderly h.orderly
  rw [hrest, List.pairwise_append, List.pairwise_cons] at hpairs
  rw [h.contains_iff, hrest]
  constructor
  · rintro ⟨r, hr, hlo, hhi⟩
    rcases List.mem_append.1 hr with hr | hr
    · exact ⟨r, hr, hlo, hhi⟩
    · exfalso
      rcases List.mem_cons.1 hr with rfl | hr
      · omega
      · have hbefore := hpairs.2.1.1 r hr
        simp only [Before] at hbefore
        omega
  · rintro ⟨r, hr, hbounds⟩
    exact ⟨r, List.mem_append_left _ hr, hbounds⟩

end CharSet

set_option maxRecDepth 20000 in
/-- The ranges of letters. -/
theorem letters_startWith : letters.StartsWith [(0x41, 0x5A), (0x61, 0x7A), (0xAA, 0xAA)] := by
  rw [letters, CharSet.ofText, String.toList_ofList]
  decide +kernel

set_option maxRecDepth 20000 in
/-- The ranges of numbers. -/
theorem numbers_startWith : numbers.StartsWith [(0x30, 0x39), (0xB2, 0xB3)] := by
  rw [numbers, CharSet.ofText, String.toList_ofList]
  decide +kernel

section
variable {c : Char}

/-- The letters of ASCII. -/
theorem isLetter_ascii (hc : c.toNat < 0x80) :
    isLetter c = (('A' ≤ c && c ≤ 'Z') || ('a' ≤ c && c ≤ 'z')) := by
  rw [Bool.eq_iff_iff, isLetter,
    CharSet.StartsWith.contains_first [_, _] letters_startWith (by omega)]
  simp [Char.le_def, UInt32.le_iff_toNat_le]

/-- The numbers of ASCII. -/
theorem isNumber_ascii (hc : c.toNat < 0x80) : isNumber c = isDigit c := by
  rw [Bool.eq_iff_iff, isNumber,
    CharSet.StartsWith.contains_first [_] numbers_startWith (by omega)]
  simp [isDigit, Char.le_def, UInt32.le_iff_toNat_le]

/-- No blank is a letter. -/
theorem isLetter_blank (h : isBlank c = true) : isLetter c = false :=
  letters_startWith.contains_blank h

/-- No blank is a number. -/
theorem isNumber_blank (h : isBlank c = true) : isNumber c = false :=
  numbers_startWith.contains_blank h

/-! ## Letter case -/

set_option maxRecDepth 20000 in
/-- No run of the table for lower case has a blank. -/
theorem lowerTable_free : (lowerTable.runs.toList.all fun r => isFree r.lo r.hi) = true := by
  rw [lowerTable, CaseTable.ofText, String.toList_ofList]
  decide +kernel

/-- A blank stays as it is in lower case. -/
theorem lowerChar_blank (h : isBlank c = true) : lowerChar c = c := by
  rw [lowerChar]
  split
  · refine if_neg fun hcapital => ?_
    simp only [Bool.and_eq_true, decide_eq_true_eq, Char.le_def, UInt32.le_iff_toNat_le] at hcapital
    have hfree : isFree 0x41 0x5A = true := by decide
    rw [not_isBlank_of_isFree hfree hcapital.1 hcapital.2] at h
    cases h
  · rw [CaseTable.map]
    split
    · next r hr =>
      obtain ⟨hmem, hlo, hhi⟩ := holds_of_run hr
      rw [not_isBlank_of_isFree (List.all_eq_true.1 lowerTable_free r hmem) hlo hhi] at h
      cases h
    · rfl

end

end InfraSmells.Text
