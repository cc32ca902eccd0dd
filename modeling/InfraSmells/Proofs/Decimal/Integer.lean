import InfraSmells.Decimal.Integer
import InfraSmells.Proofs.Text.Case
import InfraSmells.Proofs.Text.Parts
import Mathlib.Algebra.Group.Int.Defs
import Mathlib.Algebra.Group.Nat.Defs
import Mathlib.Data.List.Induction

/-!
# Integers as they are spelled

Reading an integer succeeds exactly for decimal digits, possibly behind a sign, whose value fits into 64
bits (`parseInteger_eq_ok_iff`): the digits are read from left to right, and once their value has run past
the unsigned range it stays there (`readDigits_eq_ok_iff`). Lower case neither makes nor unmakes an
integer (`SpellsInt64.lower_iff`). A numeral without a zero in front is the one that is written for its
value (`IsNumeral.toDigits_eq`).
-/

namespace InfraSmells

/-! ## Digits -/

/-- Digits end where no digit follows. -/
theorem Text.span_digits {w t : List Char} (hw : ∀ c ∈ w, Text.isDigit c = true)
    (ht : ∀ c ∈ t.head?, Text.isDigit c = false) :
    (w ++ t).takeWhile Text.isDigit = w ∧ (w ++ t).dropWhile Text.isDigit = t := by
  induction w with
  | nil =>
    cases t with
    | nil => exact ⟨rfl, rfl⟩
    | cons c t =>
      have hc := ht c rfl
      simp [hc]
  | cons c w ih =>
    have hc := hw c (.head _)
    have ⟨htake, hdrop⟩ := ih fun d hd => hw d (.tail _ hd)
    simp [hc, htake, hdrop]

/-- Digits stand in front of the capitals. -/
theorem Text.toNat_lt_of_isDigit {c : Char} (h : Text.isDigit c = true) : c.toNat < 0x41 := by
  simp only [Text.isDigit, Bool.and_eq_true, decide_eq_true_eq, Char.le_def,
    UInt32.le_iff_toNat_le] at h
  exact Nat.lt_of_le_of_lt h.2 (by decide)

/-- A digit is the one for its value, which is below ten. -/
theorem Text.value_of_isDigit {d : Char} (h : Text.isDigit d = true) :
    d.toNat - '0'.toNat < 10 ∧ Nat.digitChar (d.toNat - '0'.toNat) = d := by
  have hall : ∀ k < 10, Nat.digitChar k = Char.ofNat (k + 48) := by decide
  simp only [Text.isDigit, Bool.and_eq_true, decide_eq_true_eq, Char.le_def,
    UInt32.le_iff_toNat_le] at h
  have hlow : 48 ≤ d.toNat := h.1
  have hhigh : d.toNat ≤ 57 := h.2
  have hzero : '0'.toNat = 48 := rfl
  have hvalue : d.toNat - '0'.toNat < 10 := by omega
  refine ⟨hvalue, ?_⟩
  rw [hall _ hvalue, hzero, Nat.sub_add_cancel hlow, Char.ofNat_toNat]

/-- Decimal digits, at least one. -/
def IsNumeral (ds : List Char) : Prop :=
  ds ≠ [] ∧ ∀ d ∈ ds, Text.isDigit d = true

-- The instance is spelled out: an inferred one may go through all characters there are.
instance : DecidablePred IsNumeral := fun ds =>
  decidable_of_iff (ds ≠ [] ∧ ds.all Text.isDigit = true) (by rw [List.all_eq_true]; rfl)

/-- What is no digit stands in no numeral. -/
theorem IsNumeral.notMem {ds : List Char} (h : IsNumeral ds) {c : Char}
    (hc : Text.isDigit c = false) : c ∉ ds := by
  intro hmem
  rw [h.2 c hmem] at hc
  cases hc

/-- The digits of a numeral stand in front of the capitals. -/
theorem IsNumeral.toNat_lt {ds : List Char} (h : IsNumeral ds) : ∀ d ∈ ds, d.toNat < 0x41 :=
  fun d hd => Text.toNat_lt_of_isDigit (h.2 d hd)

/-- Without a zero in front, a numeral is the one that is written for its value. -/
theorem IsNumeral.toDigits_eq {ds : List Char} (hds : IsNumeral ds) (hhead : ds.head? ≠ some '0') :
    Nat.toDigits 10 (Nat.ofDigitChars 10 ds 0) = ds := by
  induction ds using List.reverseRecOn with
  | nil => exact absurd rfl hds.1
  | append_singleton ds d ih =>
    obtain ⟨hfront, hd⟩ := List.forall_mem_append.1 hds.2
    obtain ⟨hvalue, hlast⟩ := Text.value_of_isDigit (hd d (List.mem_singleton_self d))
    rw [Nat.ofDigitChars_append, Nat.ofDigitChars_cons, Nat.ofDigitChars_nil]
    by_cases hne : ds = []
    · subst hne
      rw [Nat.ofDigitChars_nil, Nat.mul_zero, Nat.zero_add, Nat.toDigits_of_lt_base hvalue, hlast]
      rfl
    · have hhead' : ds.head? ≠ some '0' := by rwa [List.head?_append_of_ne_nil _ hne] at hhead
      have hrest := ih ⟨hne, hfront⟩ hhead'
      -- the digits in front are not worth zero, which is written with a zero in front
      have hpos : Nat.ofDigitChars 10 ds 0 ≠ 0 := by
        intro hzero
        rw [hzero] at hrest
        exact hhead' (by rw [← hrest]; rfl)
      rw [Nat.toDigits_of_base_le (by decide) (by omega), Nat.mul_add_mod,
        Nat.mod_eq_of_lt hvalue, hlast, Nat.mul_add_div (by decide), Nat.div_eq_of_lt hvalue,
        Nat.add_zero, hrest]

/-- The characters spell the integer: decimal digits, possibly behind a sign. -/
inductive Spells : List Char → Int → Prop where
  | digits {ds : List Char} (h : IsNumeral ds) : Spells ds (Nat.ofDigitChars 10 ds 0)
  | plus {ds : List Char} (h : IsNumeral ds) : Spells ('+' :: ds) (Nat.ofDigitChars 10 ds 0)
  | minus {ds : List Char} (h : IsNumeral ds) : Spells ('-' :: ds) (-Nat.ofDigitChars 10 ds 0)

/-- The text spells the integer, and 64 bits hold it. -/
def SpellsInt64 (s : String) (n : Int) : Prop :=
  Spells s.toList n ∧ -2 ^ 63 ≤ n ∧ n < 2 ^ 63

section
variable {n : Int} {ds : List Char}

/-- Behind a minus, the digits spell what is taken from zero. -/
theorem spells_minus_iff : Spells ('-' :: ds) n ↔ IsNumeral ds ∧ n = -Nat.ofDigitChars 10 ds 0 := by
  constructor
  · intro h
    cases h with
    | digits h => exact absurd (h.2 '-' List.mem_cons_self) (by decide)
    | minus h => exact ⟨h, rfl⟩
  · rintro ⟨h, rfl⟩
    exact .minus h

/-- Behind a plus, the digits spell their value. -/
theorem spells_plus_iff : Spells ('+' :: ds) n ↔ IsNumeral ds ∧ n = Nat.ofDigitChars 10 ds 0 := by
  constructor
  · intro h
    cases h with
    | digits h => exact absurd (h.2 '+' List.mem_cons_self) (by decide)
    | plus h => exact ⟨h, rfl⟩
  · rintro ⟨h, rfl⟩
    exact .plus h

/-- Without a sign, the digits spell their value. -/
theorem spells_unsigned_iff (hminus : ∀ rest, ds ≠ '-' :: rest) (hplus : ∀ rest, ds ≠ '+' :: rest) :
    Spells ds n ↔ IsNumeral ds ∧ n = Nat.ofDigitChars 10 ds 0 := by
  constructor
  · intro h
    cases h with
    | digits h => exact ⟨h, rfl⟩
    | plus h => exact absurd rfl (hplus _)
    | minus h => exact absurd rfl (hminus _)
  · rintro ⟨h, rfl⟩
    exact .digits h

/-- A numeral spells its value and nothing else. -/
theorem IsNumeral.spells_iff (h : IsNumeral ds) : Spells ds n ↔ n = Nat.ofDigitChars 10 ds 0 := by
  have hsign {c : Char} (hc : Text.isDigit c = false) : ∀ rest, ds ≠ c :: rest := by
    rintro rest rfl
    exact h.notMem hc List.mem_cons_self
  rw [spells_unsigned_iff (hsign (by decide)) (hsign (by decide)), and_iff_right h]

end

/-! ## Reading -/

/-- The integers of 64 bits. -/
theorem fitsInt64_iff {n : Int} : fitsInt64 n = true ↔ -twoPow 63 ≤ n ∧ n < twoPow 63 := by
  rw [fitsInt64, Bool.and_eq_true, decide_eq_true_eq, decide_eq_true_eq]
  show -(twoPow 63 : Int) ≤ n ∧ n ≤ (twoPow 63 : Int) - 1 ↔ _
  omega

/-- More digits make no smaller number. -/
theorem le_ofDigitChars (ds : List Char) : ∀ n : Nat, n ≤ Nat.ofDigitChars 10 ds n := by
  induction ds with
  | nil => exact fun n => Nat.le_refl n
  | cons d ds ih =>
    intro n
    rw [Nat.ofDigitChars_cons]
    have hnext := ih (10 * n + (d.toNat - '0'.toNat))
    omega

/-- Each digit multiplies the bound of a value by ten. -/
theorem ofDigitChars_lt {ds : List Char} (hds : ∀ d ∈ ds, Text.isDigit d = true) (n : ℕ) :
    Nat.ofDigitChars 10 ds n < (n + 1) * 10 ^ ds.length := by
  induction ds generalizing n with
  | nil => simp
  | cons d ds ih =>
    obtain ⟨hd, hds⟩ := List.forall_mem_cons.1 hds
    have hdigit := (Text.value_of_isDigit hd).1
    rw [Nat.ofDigitChars_cons, List.length_cons, Nat.pow_succ']
    calc Nat.ofDigitChars 10 ds (10 * n + (d.toNat - '0'.toNat))
        < (10 * n + (d.toNat - '0'.toNat) + 1) * 10 ^ ds.length := ih hds _
      _ ≤ ((n + 1) * 10) * 10 ^ ds.length := Nat.mul_le_mul_right _ (by omega)
      _ = (n + 1) * (10 * 10 ^ ds.length) := Nat.mul_assoc _ _ _

/-- Digits are read if 64 bits hold their value. -/
theorem readDigits_eq_ok_iff {text : String} {m : Nat} : ∀ {cs : List Char} {n : Nat}, n < 2 ^ 64 →
    (readDigits text n cs = .ok m ↔
      (∀ d ∈ cs, Text.isDigit d = true) ∧ m < 2 ^ 64 ∧ m = Nat.ofDigitChars 10 cs n)
  | [], n, hn => by
    rw [readDigits, Except.ok.injEq, Nat.ofDigitChars_nil]
    constructor
    · rintro rfl
      exact ⟨nofun, hn, rfl⟩
    · exact fun h => h.2.2.symm
  | c :: cs, n, hn => by
    rw [readDigits, List.forall_mem_cons, Nat.ofDigitChars_cons]
    split
    · next hc =>
      dsimp only
      split
      · next hlt =>
        rw [readDigits_eq_ok_iff hlt]
        simp only [hc, true_and]
      · next hlarge =>
        -- what follows makes the value no smaller
        refine iff_of_false nofun ?_
        rintro ⟨-, hm, rfl⟩
        exact hlarge (Nat.lt_of_le_of_lt (le_ofDigitChars cs _) hm)
    · next hc => exact iff_of_false nofun fun h => hc h.1.1

/-- What is read behind the sign. -/
theorem read_signed_iff {text : String} {negative : Bool} {ds : List Char} {n : Int} :
    (do
      if ds.isEmpty then throw (.malformed text)
      let m ← readDigits text 0 ds
      let value : Int := if negative then -(m : Int) else m
      if fitsInt64 value then return value else throw (.range text) : Except IntegerError Int) =
        .ok n ↔
      (IsNumeral ds ∧ n = (if negative then -(Nat.ofDigitChars 10 ds 0 : Int)
          else Nat.ofDigitChars 10 ds 0)) ∧ fitsInt64 n = true := by
  by_cases hds : ds = []
  · rw [hds]
    exact iff_of_false nofun fun h => h.1.1.1 rfl
  rw [if_neg (by simpa using hds)]
  cases hread : readDigits text 0 ds with
  | ok m =>
    obtain ⟨hdigits, -, rfl⟩ := (readDigits_eq_ok_iff (by decide)).1 hread
    have hresult (value : Int) : (if fitsInt64 value then .ok value else .error (.range text) :
        Except IntegerError Int) = .ok n ↔ n = value ∧ fitsInt64 n = true := by
      split
      · next hfits =>
        rw [Except.ok.injEq, eq_comm, iff_self_and]
        rintro rfl
        exact hfits
      · next hfits =>
        refine iff_of_false nofun ?_
        rintro ⟨rfl, hn⟩
        exact hfits hn
    rw [and_iff_right (show IsNumeral ds from ⟨hds, hdigits⟩), ← hresult]
    rfl
  | error e =>
    refine iff_of_false nofun ?_
    rintro ⟨⟨⟨-, hdigits⟩, hn⟩, hfits⟩
    have htwice : twoPow 64 = 2 * twoPow 63 := by decide
    have hrange := fitsInt64_iff.1 hfits
    have hsmall : Nat.ofDigitChars 10 ds 0 < twoPow 64 := by
      split at hn <;> omega
    rw [(readDigits_eq_ok_iff (by decide)).2 ⟨hdigits, hsmall, rfl⟩] at hread
    cases hread

/-- An integer is read exactly if the text spells it and 64 bits hold it. -/
theorem parseInteger_eq_ok_iff {s : String} {n : Int} : parseInteger s = .ok n ↔ SpellsInt64 s n := by
  have hfits : fitsInt64 n = true ↔ -2 ^ 63 ≤ n ∧ n < 2 ^ 63 := by
    have htwo : (twoPow 63 : Int) = 2 ^ 63 := by decide
    rw [fitsInt64_iff, htwo]
  unfold parseInteger
  split
  next negative ds hparts =>
  rw [read_signed_iff, SpellsInt64, hfits]
  refine and_congr_left fun _ => ?_
  split at hparts
  · next rest hs =>
    cases hparts
    rw [hs, spells_minus_iff]
    rfl
  · next rest hs =>
    cases hparts
    rw [hs, spells_plus_iff]
    rfl
  · next cs hminus hplus =>
    cases hparts
    exact (spells_unsigned_iff hminus hplus).symm

/-! ## Lower case -/

/-- The characters of ASCII that a text has in lower case come from its characters one by one, if no i and
no k is among them. -/
theorem Text.toList_lower_eq_iff {s : String} {ts : List Char}
    (hts : ∀ c ∈ ts, c.toNat < 0x80 ∧ c ≠ 'i' ∧ c ≠ 'k') :
    (Text.lower s).toList = ts ↔ s.toList.map Text.lowerChar = ts := by
  have hall : ∀ c ∈ ts, c.toNat < 0x80 := fun c hc => (hts c hc).1
  have hascii {cs : List Char} (h : cs.map Text.lowerChar = ts) : ∀ c ∈ cs, c.toNat < 0x80 := by
    intro c hc
    obtain ⟨hlow, hi, hk⟩ := hts _ (h ▸ List.mem_map_of_mem hc)
    by_contra hhigh
    rcases Text.lowerChar_outside (Nat.le_of_not_lt hhigh) with h | h | h
    · exact hi h
    · exact hk h
    · exact absurd hlow (Nat.not_lt.2 h)
  constructor
  · intro h
    have hmap : (Text.characters s).map Text.lowerChar = ts := by
      rw [← Text.characters_lower, Text.characters_ascii, h]
      rw [Text.isAscii, h]
      simpa using hall
    have hs : s.toList = Text.characters s :=
      Text.eq_of_characters (hascii hmap) (by rw [String.ofList_toList])
    rwa [hs]
  · intro h
    have hs : Text.characters s = s.toList :=
      Text.characters_ascii (by simpa [Text.isAscii] using hascii h)
    rw [Text.lower, hs, h, Text.ofCharacters_ascii hall, String.toList_ofList]

/-- Characters in front of the capitals are their own lower case, and that of no others. -/
theorem Text.map_lowerChar_eq_iff {cs ts : List Char} (hts : ∀ c ∈ ts, c.toNat < 0x41) :
    cs.map Text.lowerChar = ts ↔ cs = ts := by
  induction cs generalizing ts with
  | nil => exact eq_comm.trans eq_comm
  | cons c cs ih =>
    cases ts with
    | nil => exact iff_of_false (List.cons_ne_nil _ _) (List.cons_ne_nil _ _)
    | cons t ts =>
      obtain ⟨ht, hts⟩ := List.forall_mem_cons.1 hts
      rw [List.map_cons, List.cons.injEq, List.cons.injEq, Text.lowerChar_eq_iff ht, ih hts]

/-- Characters in front of the capitals belong to ASCII and are no letters. -/
theorem Text.no_letter {c : Char} (hc : c.toNat < 0x41) : c.toNat < 0x80 ∧ c ≠ 'i' ∧ c ≠ 'k' := by
  refine ⟨Nat.lt_trans hc (by decide), ?_, ?_⟩
  · rintro rfl
    exact absurd hc (by decide)
  · rintro rfl
    exact absurd hc (by decide)

/-- A text whose characters stand in front of the capitals is its own lower case, and that of no other. -/
theorem Text.lower_eq_iff {s t : String} (ht : ∀ c ∈ t.toList, c.toNat < 0x41) :
    Text.lower s = t ↔ s = t := by
  rw [← String.toList_inj, Text.toList_lower_eq_iff fun c hc => Text.no_letter (ht c hc),
    Text.map_lowerChar_eq_iff ht, String.toList_inj]

/-- The characters of an integer stand in front of the capitals. -/
theorem Spells.toNat_lt {cs : List Char} {n : Int} (h : Spells cs n) : ∀ c ∈ cs, c.toNat < 0x41 := by
  cases h with
  | digits h => exact h.toNat_lt
  | plus h => exact List.forall_mem_cons.2 ⟨by decide, h.toNat_lt⟩
  | minus h => exact List.forall_mem_cons.2 ⟨by decide, h.toNat_lt⟩

/-- A text spells in lower case what it spells. -/
theorem SpellsInt64.lower_iff {s : String} {n : Int} :
    SpellsInt64 (Text.lower s) n ↔ SpellsInt64 s n := by
  constructor
  · intro h
    rwa [(Text.lower_eq_iff h.1.toNat_lt).1 rfl]
  · intro h
    rwa [(Text.lower_eq_iff h.1.toNat_lt).2 rfl]

end InfraSmells
