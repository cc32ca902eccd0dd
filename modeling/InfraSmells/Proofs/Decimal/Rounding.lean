import InfraSmells.Decimal.Shortest
import Mathlib.Algebra.Order.Field.Power
import Mathlib.Algebra.Order.Field.Rat
import Mathlib.Tactic.FieldSimp
import Mathlib.Tactic.Linarith
import Mathlib.Tactic.NormNum
import Mathlib.Tactic.Positivity
import Mathlib.Tactic.Ring

/-!
# What a fraction is rounded to

Every number of double precision is `m * 2 ^ q` with bounds on `m` and `q` (`Binary64.Form`), and
`Binary64.roundingOf` is the interval of fractions around it. `Binary64.ofRatio_eq` and
`Binary64.ofDecimal_eq` state that a fraction, or a decimal number, in the interval of a number is
rounded to this number: subnormal numbers, the numbers at a power of two, whose interval is
shorter on one side, and the carry into the next power of two included.
-/

namespace InfraSmells

@[simp] theorem cast_twoPow (n : ℕ) : (twoPow n : ℚ) = 2 ^ n := by
  simp [twoPow]

@[simp] theorem cast_tenPow (n : ℕ) : (tenPow n : ℚ) = 10 ^ n := by
  simp [tenPow]

theorem twoPow_pos (n : ℕ) : 0 < twoPow n :=
  Nat.two_pow_pos n

theorem tenPow_pos (n : ℕ) : 0 < tenPow n :=
  Nat.pow_pos (by decide)

theorem two_zpow_add (q : ℤ) (k : ℕ) : (2 : ℚ) ^ (q + k) = 2 ^ k * 2 ^ q := by
  rw [zpow_add₀ two_ne_zero, mul_comm, zpow_natCast]

namespace Binary64

/-- A quotient is rounded to the number that is at most one half away; where two are, to the even
one. All is compared in units of half the divisor. -/
theorem roundDiv_eq_of_mul {n d m : ℕ} (hd : 0 < d) (hlow : 2 * (m * d) ≤ 2 * n + d)
    (hhigh : 2 * n ≤ 2 * (m * d) + d)
    (heven : 2 * (m * d) = 2 * n + d ∨ 2 * n = 2 * (m * d) + d → m % 2 = 0) : roundDiv n d = m := by
  have hdiv := Nat.div_add_mod' n d
  have hmod := Nat.mod_lt n hd
  unfold roundDiv
  generalize n / d = k at *
  generalize n % d = r at *
  have hle : m ≤ k + 1 := by
    by_contra h
    have := Nat.mul_le_mul_right d (show k + 2 ≤ m by omega)
    rw [Nat.add_mul] at this
    omega
  have hge : k ≤ m := by
    by_contra h
    have := Nat.mul_le_mul_right d (show m + 1 ≤ k by omega)
    rw [Nat.add_mul] at this
    omega
  obtain rfl | rfl : m = k ∨ m = k + 1 := by omega
  · dsimp only
    split
    · rfl
    split
    · omega
    · have := heven (.inr (by omega))
      omega
  · rw [Nat.add_mul] at hlow hhigh heven
    dsimp only
    split
    · omega
    split
    · rfl
    · have := heven (.inl (by omega))
      omega

/-- The same for the quotient itself. -/
theorem roundDiv_eq {n d m : ℕ} (hd : 0 < d) (hlow : (m : ℚ) - 1 / 2 ≤ n / d)
    (hhigh : (n : ℚ) / d ≤ m + 1 / 2)
    (heven : (n : ℚ) / d = m - 1 / 2 ∨ (n : ℚ) / d = m + 1 / 2 → m % 2 = 0) :
    roundDiv n d = m := by
  have hd' : (0 : ℚ) < d := by exact_mod_cast hd
  rw [le_div_iff₀ hd'] at hlow
  rw [div_le_iff₀ hd'] at hhigh
  rw [div_eq_iff hd'.ne', div_eq_iff hd'.ne'] at heven
  refine roundDiv_eq_of_mul hd ?_ ?_ ?_
  · have : (2 * (m * d) : ℚ) ≤ 2 * n + d := by linarith
    exact_mod_cast this
  · have : (2 * n : ℚ) ≤ 2 * (m * d) + d := by linarith
    exact_mod_cast this
  · rintro (h | h)
    · have : (2 * (m * d) : ℚ) = 2 * n + d := by exact_mod_cast h
      exact heven (.inl (by linarith))
    · have : (2 * n : ℚ) = 2 * (m * d) + d := by exact_mod_cast h
      exact heven (.inr (by linarith))

/-- A fraction in units of a power of two. -/
theorem inUnits_spec (num : ℕ) {den : ℕ} (hden : 0 < den) (e : ℤ) :
    0 < (inUnits num den e).2 ∧
      ((inUnits num den e).1 : ℚ) / (inUnits num den e).2 = num / den / 2 ^ e := by
  unfold inUnits
  split
  · next he =>
    obtain ⟨k, rfl⟩ : ∃ k : ℕ, e = -(k : ℤ) := ⟨(-e).toNat, by omega⟩
    refine ⟨hden, ?_⟩
    simp only [neg_neg, Int.toNat_natCast, Nat.cast_mul, cast_twoPow, zpow_neg, zpow_natCast,
      div_inv_eq_mul]
    ring
  · next he =>
    obtain ⟨k, rfl⟩ : ∃ k : ℕ, e = (k : ℤ) := ⟨e.toNat, by omega⟩
    refine ⟨Nat.mul_pos hden (twoPow_pos _), ?_⟩
    simp only [Int.toNat_natCast, Nat.cast_mul, cast_twoPow, zpow_natCast, div_div]

/-- A number lies between two powers of two. -/
theorem log2_bounds {n : ℕ} (h : n ≠ 0) :
    (2 : ℚ) ^ (Nat.log2 n : ℤ) ≤ n ∧ (n : ℚ) < 2 ^ ((Nat.log2 n : ℤ) + 1) := by
  constructor
  · rw [zpow_natCast]
    exact_mod_cast Nat.log2_self_le h
  · have : n < 2 ^ (Nat.log2 n + 1) := Nat.lt_log2_self
    exact_mod_cast this

/-- A fraction in units of a power of two has fewer than 53 bits before the point, if it lies below that
power times the power 52 of two. -/
theorem inUnits_lt_iff (num : ℕ) {den : ℕ} (hden : 0 < den) (e : ℤ) :
    (inUnits num den e).1 / (inUnits num den e).2 < twoPow 52 ↔ (num : ℚ) / den < 2 ^ (e + 52) := by
  obtain ⟨hpos, hunits⟩ := inUnits_spec num hden e
  have hpos' : (0 : ℚ) < (inUnits num den e).2 := by exact_mod_cast hpos
  have h2 : (0 : ℚ) < 2 ^ e := by positivity
  have hsplit : (2 : ℚ) ^ (e + 52) = 2 ^ 52 * 2 ^ e := two_zpow_add e 52
  rw [hsplit, ← div_lt_iff₀ h2, ← hunits, div_lt_iff₀ hpos', ← cast_twoPow, Nat.div_lt_iff_lt_mul hpos]
  exact_mod_cast Iff.rfl

/-- The logarithms of a fraction's parts tell where it lies, up to a factor of four. -/
theorem log2_div_bounds {num den : ℕ} (hnum : num ≠ 0) (hden : 0 < den) :
    (2 : ℚ) ^ ((Nat.log2 num : ℤ) - Nat.log2 den - 52 + 51) ≤ num / den ∧
      (num : ℚ) / den < 2 ^ ((Nat.log2 num : ℤ) - Nat.log2 den - 52 + 53) := by
  have hden' : (0 : ℚ) < den := by exact_mod_cast hden
  obtain ⟨hnlow, hnhigh⟩ := log2_bounds hnum
  obtain ⟨hdlow, hdhigh⟩ := log2_bounds hden.ne'
  constructor
  · rw [le_div_iff₀ hden']
    calc (2 : ℚ) ^ ((Nat.log2 num : ℤ) - Nat.log2 den - 52 + 51) * den
        ≤ 2 ^ ((Nat.log2 num : ℤ) - Nat.log2 den - 52 + 51) * 2 ^ ((Nat.log2 den : ℤ) + 1) := by gcongr
      _ = 2 ^ (Nat.log2 num : ℤ) := by
          rw [← zpow_add₀ two_ne_zero]
          congr 1
          ring
      _ ≤ num := hnlow
  · rw [div_lt_iff₀ hden']
    calc (num : ℚ) < 2 ^ ((Nat.log2 num : ℤ) + 1) := hnhigh
      _ = 2 ^ ((Nat.log2 num : ℤ) - Nat.log2 den - 52 + 53) * 2 ^ (Nat.log2 den : ℤ) := by
          rw [← zpow_add₀ two_ne_zero]
          congr 1
          ring
      _ ≤ 2 ^ ((Nat.log2 num : ℤ) - Nat.log2 den - 52 + 53) * den := by gcongr

/-- A fraction has 53 bits before the point at its top exponent. -/
theorem topExponent_spec {num den : ℕ} (hnum : num ≠ 0) (hden : 0 < den) :
    (2 : ℚ) ^ (topExponent num den + 52) ≤ num / den ∧
      (num : ℚ) / den < 2 ^ (topExponent num den + 53) := by
  -- The guess by the logarithms is right or one too large.
  obtain ⟨hlow, hhigh⟩ := log2_div_bounds hnum hden
  unfold topExponent
  dsimp only
  generalize (Nat.log2 num : ℤ) - Nat.log2 den - 52 = guess at *
  split
  · next hlt =>
    have h52 : guess - 1 + 52 = guess + 51 := by ring
    have h53 : guess - 1 + 53 = guess + 52 := by ring
    rw [h52, h53]
    exact ⟨hlow, (inUnits_lt_iff num hden guess).1 hlt⟩
  · next hge => exact ⟨not_lt.1 fun h => hge ((inUnits_lt_iff num hden guess).2 h), hhigh⟩

/-- A number of double precision as `m * 2 ^ q`. Only the smallest power has fewer than 53 bits. -/
structure Form (m : ℕ) (q : ℤ) : Prop where
  pos : 0 < m
  lt : m < 2 ^ 53
  low : -1074 ≤ q
  high : q ≤ 971
  normal : m < 2 ^ 52 → q = -1074

/-- How far the interval of `m * 2 ^ q` reaches down, in units of the last bit. -/
def reach (m : ℕ) (q : ℤ) : ℚ :=
  if m = 2 ^ 52 ∧ -1074 < q then 1 / 4 else 1 / 2

/-- The interval reaches down by a quarter of the last bit at least, and by a half at most. -/
theorem reach_bounds (m : ℕ) (q : ℤ) : 1 / 4 ≤ reach m q ∧ reach m q ≤ 1 / 2 := by
  unfold reach
  split <;> norm_num

/-- The fraction is rounded to `m * 2 ^ q`. -/
def RoundsTo (m : ℕ) (q : ℤ) (v : ℚ) : Prop :=
  (m - reach m q) * 2 ^ q ≤ v ∧ v ≤ (m + 1 / 2) * 2 ^ q ∧
    (v = (m - reach m q) * 2 ^ q ∨ v = (m + 1 / 2) * 2 ^ q → m % 2 = 0)

/-- A significand without carry. -/
theorem ofSignificand_eq {m : ℕ} {q : ℤ} (hf : Form m q) (negative : Bool) :
    ofSignificand negative m q = ofParts negative (bitsOf m q) := by
  have hne : m ≠ twoPow 53 := hf.lt.ne
  simp only [ofSignificand, if_neg hne, if_neg (not_lt.2 hf.high)]

/-- A significand that is carried into the next power of two. -/
theorem ofSignificand_carry {q : ℤ} (hf : Form (2 ^ 52) q) (negative : Bool) :
    ofSignificand negative (2 ^ 53) (q - 1) = ofParts negative (bitsOf (2 ^ 52) q) := by
  have hcarry : (2 : ℕ) ^ 53 = twoPow 53 := rfl
  simp only [ofSignificand, if_pos hcarry, sub_add_cancel, if_neg (not_lt.2 hf.high)]
  rfl

section
variable {m : ℕ} {q t : ℤ} {v : ℚ}

/-- A fraction that is rounded to a number has no more than 53 bits in front of its last one. -/
theorem RoundsTo.lt_two_zpow (hf : Form m q) (hv : RoundsTo m q v) : v < 2 ^ (q + 53) := by
  have hm : (m : ℚ) + 1 ≤ 2 ^ 53 := by exact_mod_cast hf.lt
  have hq : (0 : ℚ) < 2 ^ q := by positivity
  calc v ≤ (m + 1 / 2) * 2 ^ q := hv.2.1
    _ < 2 ^ 53 * 2 ^ q := by
        gcongr
        linarith
    _ = 2 ^ (q + 53) := (two_zpow_add q 53).symm

/-- A fraction that is rounded to a number has at most as many bits before the point. -/
theorem RoundsTo.top_le (hf : Form m q) (hv : RoundsTo m q v) (ht : (2 : ℚ) ^ (t + 52) ≤ v) :
    t ≤ q := by
  by_contra h
  have hle : (2 : ℚ) ^ (q + 53) ≤ 2 ^ (t + 52) := zpow_le_zpow_right₀ (by norm_num) (by omega)
  have := hv.lt_two_zpow hf
  linarith

/-- A fraction with fewer bits before the point than the number it is rounded to, which is not one
of the smallest: the number is a power of two, and the fraction has one bit less. -/
theorem RoundsTo.eq_of_top_lt (hf : Form m q) (hv : RoundsTo m q v)
    (ht : v < (2 : ℚ) ^ (t + 53)) (htq : t < q) (hq : -1074 < q) :
    m = 2 ^ 52 ∧ q - 1 ≤ t := by
  have hq' : (0 : ℚ) < 2 ^ q := by positivity
  have hge : 2 ^ 52 ≤ m := by
    by_contra h
    have := hf.normal (by omega)
    omega
  have hreach := (reach_bounds m q).2
  have hlow := hv.1
  have hle : (2 : ℚ) ^ (t + 53) ≤ 2 ^ (q + (52 : ℕ)) :=
    zpow_le_zpow_right₀ (by norm_num) (by push_cast; omega)
  have hm : m = 2 ^ 52 := by
    have hlt : ((m : ℚ) - reach m q) * 2 ^ q < 2 ^ 52 * 2 ^ q := by
      rw [← two_zpow_add q 52]
      linarith
    have hlt' : (m : ℚ) - reach m q < 2 ^ 52 := lt_of_mul_lt_mul_right hlt hq'.le
    have hlt'' : (m : ℚ) < 2 ^ 52 + 1 := by linarith
    have : m < 2 ^ 52 + 1 := by exact_mod_cast hlt''
    omega
  refine ⟨hm, ?_⟩
  by_contra h
  have hle' : (2 : ℚ) ^ (t + 53) ≤ 2 ^ (q + (51 : ℕ)) :=
    zpow_le_zpow_right₀ (by norm_num) (by push_cast; omega)
  have hhalf : (2 : ℚ) ^ 51 * 2 ^ q ≤ ((m : ℚ) - reach m q) * 2 ^ q := by
    gcongr
    have hm' : (m : ℚ) = 2 ^ 52 := by exact_mod_cast hm
    rw [hm']
    norm_num
    linarith
  rw [two_zpow_add q 51] at hle'
  linarith

variable {num den : ℕ}

/-- In units of the last bit of a number, a fraction in its interval is rounded to the significand. -/
theorem RoundsTo.roundDiv_eq (hv : RoundsTo m q (num / den)) (hden : 0 < den) :
    roundDiv (inUnits num den q).1 (inUnits num den q).2 = m := by
  obtain ⟨hpos, hunits⟩ := inUnits_spec num hden q
  obtain ⟨hlow, hhigh, heven⟩ := hv
  have hq : (0 : ℚ) < 2 ^ q := by positivity
  refine Binary64.roundDiv_eq hpos ?_ ?_ ?_
  · rw [hunits, le_div_iff₀ hq]
    refine le_trans ?_ hlow
    gcongr
    exact (reach_bounds m q).2
  · rw [hunits, div_le_iff₀ hq]
    exact hhigh
  · rw [hunits, div_eq_iff hq.ne', div_eq_iff hq.ne']
    by_cases hnarrow : m = 2 ^ 52 ∧ -1074 < q
    · intro _
      rw [hnarrow.1]
      norm_num
    · rw [reach, if_neg hnarrow] at heven
      exact heven

/-- In units of half the last bit, a fraction in the interval of a power of two is rounded up to its double
significand, if it lies below the power. -/
theorem RoundsTo.roundDiv_carry (hv : RoundsTo (2 ^ 52) q (num / den)) (hden : 0 < den) (hq : -1074 < q)
    (hbelow : (num : ℚ) / den < 2 ^ (q + 52)) :
    roundDiv (inUnits num den (q - 1)).1 (inUnits num den (q - 1)).2 = 2 ^ 53 := by
  obtain ⟨hpos, hunits⟩ := inUnits_spec num hden (q - 1)
  have hlow := hv.1
  have hreach : reach (2 ^ 52) q = 1 / 4 := if_pos ⟨rfl, hq⟩
  have hhalf : (2 : ℚ) ^ (q - 1) = 2 ^ q / 2 := zpow_sub_one₀ two_ne_zero q
  have hsplit : (2 : ℚ) ^ (q + 52) = 2 ^ 52 * 2 ^ q := two_zpow_add q 52
  refine Binary64.roundDiv_eq hpos ?_ ?_ fun _ => by norm_num
  · rw [hunits, hhalf, le_div_iff₀ (by positivity)]
    rw [hreach] at hlow
    push_cast at hlow ⊢
    linarith
  · rw [hunits, hhalf, div_le_iff₀ (by positivity)]
    have : (0 : ℚ) < 2 ^ q := by positivity
    push_cast
    linarith

end

/-- A fraction in the interval of a number is rounded to this number. -/
theorem ofRatio_eq {m : ℕ} {q : ℤ} {num den : ℕ} (hf : Form m q) (hnum : num ≠ 0) (hden : 0 < den)
    (hv : RoundsTo m q (num / den)) (negative : Bool) :
    ofRatio negative num den = ofParts negative (bitsOf m q) := by
  obtain ⟨htop, htop'⟩ := topExponent_spec hnum hden
  rw [ofRatio, if_neg hnum]
  dsimp only
  generalize topExponent num den = t at htop htop'
  have htq := hv.top_le hf htop
  by_cases hlast : t < q ∧ -1074 < q
  · obtain ⟨rfl, ht⟩ := hv.eq_of_top_lt hf htop' hlast.1 hlast.2
    have he : max t (-1074) = q - 1 := by omega
    have hbelow : (num : ℚ) / den < 2 ^ (q + 52) := by
      rwa [show q + 52 = t + 53 by omega]
    rw [he, hv.roundDiv_carry hden hlast.2 hbelow]
    exact ofSignificand_carry hf negative
  · have he : max t (-1074) = q := by
      have := hf.low
      omega
    rw [he, hv.roundDiv_eq hden]
    exact ofSignificand_eq hf negative

/-! ## Decimal numbers -/

/-- The number of digits tells the power of ten. -/
theorem digitCount_bounds {n : ℕ} (h : n ≠ 0) :
    (10 : ℚ) ^ ((digitCount n : ℤ) - 1) ≤ n ∧ (n : ℚ) < 10 ^ (digitCount n : ℤ) := by
  have hpos : 0 < digitCount n := Nat.length_toDigits_pos
  obtain ⟨c, hc⟩ : ∃ c, digitCount n = c + 1 := ⟨digitCount n - 1, by omega⟩
  have hlt : n < 10 ^ (c + 1) := (Nat.length_toDigits_le_iff (by decide) (by omega)).1 hc.le
  have hle : 10 ^ c ≤ n := by
    rcases Nat.eq_zero_or_pos c with rfl | hc'
    · omega
    · by_contra hn
      have := (Nat.length_toDigits_le_iff (by decide) hc').2 (not_le.1 hn)
      unfold digitCount at hc
      omega
  rw [hc]
  push_cast
  rw [add_sub_cancel_right, zpow_natCast]
  exact ⟨by exact_mod_cast hle, by exact_mod_cast hlt⟩

/-- The numbers of double precision do not reach to the power `n` of ten, nor to its inverse. -/
theorem RoundsTo.bounds {m : ℕ} {q n : ℤ} {v : ℚ} (hf : Form m q) (hv : RoundsTo m q v)
    (hn : 400 ≤ n) : (10 : ℚ) ^ (-n) < v ∧ v < 10 ^ n := by
  have hm : (1 : ℚ) ≤ m := by exact_mod_cast hf.pos
  have hreach := (reach_bounds m q).2
  have hq : (0 : ℚ) < 2 ^ q := by positivity
  have hten : (2 : ℚ) ^ (3 * n) ≤ 10 ^ n := by
    rw [zpow_mul]
    exact zpow_le_zpow_left₀ (by omega) (by norm_num) (by norm_num)
  constructor
  · have hten' : (10 : ℚ) ^ (-n) ≤ 2 ^ (-(3 * n)) := by
      rw [zpow_neg, zpow_neg]
      exact inv_anti₀ (by positivity) hten
    have hlt : (2 : ℚ) ^ (-(3 * n)) < 2 ^ (q - 1) :=
      zpow_lt_zpow_right₀ (by norm_num) (by have := hf.low; omega)
    have hhalf : (2 : ℚ) ^ (q - 1) ≤ (m - reach m q) * 2 ^ q := by
      rw [zpow_sub_one₀ two_ne_zero, mul_comm]
      gcongr
      linarith
    have := hv.1
    linarith
  · have hhigh : (2 : ℚ) ^ (q + 53) ≤ 2 ^ (3 * n) :=
      zpow_le_zpow_right₀ (by norm_num) (by have := hf.high; omega)
    exact (hv.lt_two_zpow hf).trans_le (hhigh.trans hten)

/-- A decimal number between powers of ten has digits in front of the point accordingly. -/
theorem digitCount_between {a : ℕ} {k n : ℤ} (ha : a ≠ 0) (hlow : (10 : ℚ) ^ (-n) < a * 10 ^ k)
    (hhigh : (a : ℚ) * 10 ^ k < 10 ^ n) : k + digitCount a ≤ n ∧ -n ≤ k + digitCount a := by
  have hk : (0 : ℚ) < 10 ^ k := by positivity
  obtain ⟨hcount, hcount'⟩ := digitCount_bounds ha
  constructor
  · by_contra h
    have hle : (10 : ℚ) ^ n ≤ 10 ^ ((digitCount a : ℤ) - 1 + k) :=
      zpow_le_zpow_right₀ (by norm_num) (by omega)
    rw [zpow_add₀ (by norm_num)] at hle
    have := mul_le_mul_of_nonneg_right hcount hk.le
    linarith
  · by_contra h
    have hle : (10 : ℚ) ^ ((digitCount a : ℤ) + k) ≤ 10 ^ (-n) :=
      zpow_le_zpow_right₀ (by norm_num) (by omega)
    rw [zpow_add₀ (by norm_num)] at hle
    have := mul_lt_mul_of_pos_right hcount' hk
    linarith

/-- A decimal number in the interval of a number is rounded to this number. -/
theorem ofDecimal_eq {m : ℕ} {q : ℤ} {a : ℕ} {k : ℤ} (hf : Form m q)
    (hv : RoundsTo m q (a * 10 ^ k)) (negative : Bool) :
    ofDecimal negative a k = ofParts negative (bitsOf m q) := by
  -- The bound stays a variable, so that no power of it is computed.
  obtain ⟨n, hn⟩ : ∃ n : ℤ, n = 400 := ⟨_, rfl⟩
  obtain ⟨hlow, hhigh⟩ := hv.bounds hf hn.ge
  have ha : a ≠ 0 := by
    rintro rfl
    rw [Nat.cast_zero, zero_mul] at hlow
    exact absurd hlow (not_lt.2 (by positivity))
  obtain ⟨hlarge, hsmall⟩ := digitCount_between ha hlow hhigh
  subst hn
  rw [ofDecimal, if_neg ha]
  dsimp only
  rw [if_neg (not_lt.2 hlarge), if_neg (not_lt.2 hsmall)]
  split
  · next hneg =>
    obtain ⟨j, rfl⟩ : ∃ j : ℕ, k = -(j : ℤ) := ⟨(-k).toNat, by omega⟩
    rw [neg_neg, Int.toNat_natCast]
    refine ofRatio_eq hf ha (tenPow_pos j) ?_ negative
    rw [zpow_neg, zpow_natCast] at hv
    rw [cast_tenPow, div_eq_mul_inv]
    exact hv
  · next hneg =>
    obtain ⟨j, rfl⟩ : ∃ j : ℕ, k = (j : ℤ) := ⟨k.toNat, by omega⟩
    rw [Int.toNat_natCast]
    refine ofRatio_eq hf (Nat.mul_ne_zero ha (tenPow_pos j).ne') Nat.one_pos ?_ negative
    rw [zpow_natCast] at hv
    rw [Nat.cast_mul, cast_tenPow, Nat.cast_one, div_one]
    exact hv

/-! ## The form of a number -/

/-- A finite number that is not zero has a form, which gives its bits. -/
theorem parts_spec {x : Binary64} (hfinite : x.isFinite = true) (hzero : x.isZero = false) :
    Form x.parts.1 x.parts.2 ∧ bitsOf x.parts.1 x.parts.2 = x.unsignedBits ∧
      ((x.parts.1 = twoPow 52 && 1 < x.exponentField) = true ↔
        x.parts.1 = 2 ^ 52 ∧ -1074 < x.parts.2) := by
  have h52 : twoPow 52 = 4503599627370496 := rfl
  have h53 : (2 : ℕ) ^ 53 = 9007199254740992 := rfl
  have h52' : (2 : ℕ) ^ 52 = 4503599627370496 := rfl
  simp only [isFinite, isZero, h52, decide_eq_true_eq, beq_eq_false_iff_ne] at hfinite hzero
  have hexp : x.exponentField = x.unsignedBits / 4503599627370496 := by rw [exponentField, h52]
  unfold parts
  generalize x.unsignedBits = u at *
  rw [hexp, h52]
  simp only [bitsOf, h52, Bool.and_eq_true, decide_eq_true_eq]
  split
  · refine ⟨⟨?_, ?_, ?_, ?_, ?_⟩, ?_, ?_⟩ <;> dsimp only <;> (try split) <;> omega
  · refine ⟨⟨?_, ?_, ?_, ?_, ?_⟩, ?_, ?_⟩ <;> dsimp only <;> (try split) <;> omega

/-- A number is its sign and the bits below it. -/
theorem ofParts_unsignedBits (x : Binary64) : ofParts x.isNegative x.unsignedBits = x := by
  have h63 : twoPow 63 = 9223372036854775808 := rfl
  have hlt := x.bits.toNat_lt
  obtain ⟨bits⟩ := x
  simp only [ofParts, isNegative, unsignedBits, h63] at *
  congr 1
  rw [← UInt64.toNat_inj, UInt64.toNat_ofNat']
  simp only [UInt64.le_iff_toNat_le, UInt64.reduceToNat]
  split <;> simp_all <;> omega

end Binary64

end InfraSmells
