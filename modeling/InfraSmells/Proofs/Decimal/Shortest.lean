import InfraSmells.Proofs.Decimal.Rounding

/-!
# Shortest digits read back

`Binary64.shortest` searches grids of more and more decimal digits for a point in the interval of
a number. Eighteen digits always have one (`Binary64.gridPoint_isSome`), and whatever point is
found lies in the interval, so that the digits are rounded to the number they were made from
(`Binary64.ofDecimal_shortest`).
-/

namespace InfraSmells.Binary64

/-- Decimal numbers and fractions are compared by their values. -/
theorem compareDecimal_eq {a b d : ℕ} (k : ℤ) (hd : 0 < d) :
    compareDecimal a k b d = compare ((a : ℚ) * 10 ^ k) (b / d) := by
  have hd' : (0 : ℚ) < d := by exact_mod_cast hd
  have hcast (m n : ℕ) (u v : ℚ) (hlt : u < v ↔ m < n) (hgt : v < u ↔ n < m) :
      compare m n = compare u v := by
    rcases lt_trichotomy m n with h | h | h
    · rw [compare_lt_iff_lt.2 h, compare_lt_iff_lt.2 (hlt.2 h)]
    · have huv : u = v := le_antisymm (not_lt.1 fun hvu => (hgt.1 hvu).ne' h)
        (not_lt.1 fun huv => (hlt.1 huv).ne h)
      rw [compare_eq_iff_eq.2 h, compare_eq_iff_eq.2 huv]
    · rw [compare_gt_iff_gt.2 h, compare_gt_iff_gt.2 (hgt.2 h)]
  unfold compareDecimal
  split
  · next hneg =>
    obtain ⟨j, rfl⟩ : ∃ j : ℕ, k = -(j : ℤ) := ⟨(-k).toNat, by omega⟩
    have hten : (0 : ℚ) < 10 ^ j := by positivity
    rw [neg_neg, Int.toNat_natCast, zpow_neg, zpow_natCast, ← div_eq_mul_inv]
    refine hcast _ _ _ _ ?_ ?_
    · rw [div_lt_div_iff₀ hten hd', ← cast_tenPow]
      exact_mod_cast Iff.rfl
    · rw [div_lt_div_iff₀ hd' hten, ← cast_tenPow]
      exact_mod_cast Iff.rfl
  · next hneg =>
    obtain ⟨j, rfl⟩ : ∃ j : ℕ, k = (j : ℤ) := ⟨k.toNat, by omega⟩
    rw [Int.toNat_natCast, zpow_natCast]
    refine hcast _ _ _ _ ?_ ?_
    · rw [lt_div_iff₀ hd', ← cast_tenPow]
      exact_mod_cast Iff.rfl
    · rw [div_lt_iff₀ hd', ← cast_tenPow]
      exact_mod_cast Iff.rfl

/-- The ends of an interval, as fractions. -/
structure Rounding.Around (r : Rounding) (m : ℕ) (q : ℤ) : Prop where
  den : 0 < r.den
  value : (r.value : ℚ) / r.den = m * 2 ^ q
  low : (r.low : ℚ) / r.den = (m - reach m q) * 2 ^ q
  high : (r.high : ℚ) / r.den = (m + 1 / 2) * 2 ^ q
  closed : r.closed = decide (m % 2 = 0)

/-- The interval of `m * 2 ^ q` reaches to the middle between it and its neighbours. -/
theorem around_roundingOf {m : ℕ} (hm : 0 < m) (q : ℤ) {narrow : Bool}
    (hnarrow : narrow = true ↔ m = 2 ^ 52 ∧ -1074 < q) : (roundingOf m q narrow).Around m q := by
  have hlow : ((if narrow = true then 4 * m - 1 else 4 * m - 2 : ℕ) : ℚ) = 4 * (m - reach m q) := by
    unfold reach
    simp only [← hnarrow]
    split
    · rw [Nat.cast_sub (by omega)]
      push_cast
      ring
    · rw [Nat.cast_sub (by omega)]
      push_cast
      ring
  unfold roundingOf
  dsimp only
  split
  · next hq =>
    have hden : ((twoPow (2 - q).toNat : ℕ) : ℚ) = 4 / 2 ^ q := by
      rw [cast_twoPow, ← zpow_natCast, Int.toNat_of_nonneg (by omega), zpow_sub₀ two_ne_zero]
      norm_num
    have hpos : (0 : ℚ) < 2 ^ q := by positivity
    refine ⟨twoPow_pos _, ?_, ?_, ?_, rfl⟩
    · rw [hden]
      push_cast
      field_simp
    · rw [hden, hlow]
      field_simp
    · rw [hden]
      push_cast
      field_simp
      ring
  · next hq =>
    have hunit : ((twoPow (q - 2).toNat : ℕ) : ℚ) = 2 ^ q / 4 := by
      rw [cast_twoPow, ← zpow_natCast, Int.toNat_of_nonneg (by omega), zpow_sub₀ two_ne_zero]
      norm_num
    refine ⟨Nat.one_pos, ?_, ?_, ?_, rfl⟩
    · rw [Nat.cast_mul, hunit]
      push_cast
      ring
    · rw [Nat.cast_mul, hunit, hlow]
      push_cast
      ring
    · rw [Nat.cast_mul, hunit]
      push_cast
      ring

section
variable {r : Rounding} {m : ℕ} {q : ℤ}

/-- What lies in the interval of a number is rounded to it. -/
theorem Rounding.Around.roundsTo (hr : r.Around m q) {d : ℕ} {k : ℤ}
    (h : r.holds d k = true) : RoundsTo m q (d * 10 ^ k) := by
  have hq : (0 : ℚ) < 2 ^ q := by positivity
  have hends : ((m : ℚ) - reach m q) * 2 ^ q < (m + 1 / 2) * 2 ^ q := by
    gcongr
    linarith [(reach_bounds m q).1]
  rw [Rounding.holds, compareDecimal_eq k hr.den, compareDecimal_eq k hr.den, hr.low, hr.high,
    hr.closed] at h
  unfold RoundsTo
  generalize (d : ℚ) * 10 ^ k = v at *
  split at h
  · next hlow hhigh =>
    rw [compare_gt_iff_gt] at hlow
    rw [compare_lt_iff_lt] at hhigh
    exact ⟨hlow.le, hhigh.le, by rintro (rfl | rfl) <;> simp at hlow hhigh⟩
  · next hlow =>
    rw [compare_eq_iff_eq] at hlow
    exact ⟨hlow.ge, hlow.le.trans hends.le, fun _ => of_decide_eq_true h⟩
  · next hhigh _ =>
    rw [compare_eq_iff_eq] at hhigh
    exact ⟨hends.le.trans hhigh.ge, hhigh.le, fun _ => of_decide_eq_true h⟩
  · cases h

/-- What lies between the ends is in the interval. -/
theorem Rounding.Around.holds (hr : r.Around m q) {d : ℕ} {k : ℤ}
    (hlow : ((m : ℚ) - reach m q) * 2 ^ q < d * 10 ^ k)
    (hhigh : (d : ℚ) * 10 ^ k < (m + 1 / 2) * 2 ^ q) : r.holds d k = true := by
  rw [Rounding.holds, compareDecimal_eq k hr.den, compareDecimal_eq k hr.den, hr.low, hr.high,
    compare_gt_iff_gt.2 hlow, compare_lt_iff_lt.2 hhigh]

/-- A point of a grid that was found is in the interval. -/
theorem holds_of_gridPoint {k : ℤ} {d : ℕ} (h : gridPoint r k = some d) : r.holds d k = true := by
  have hround (n d : ℕ) : roundDiv n d = n / d ∨ roundDiv n d = n / d + 1 := by
    unfold roundDiv
    dsimp only
    split
    · exact .inl rfl
    split
    · exact .inr rfl
    · omega
  unfold gridPoint at h
  generalize (if k < 0 then (r.value * tenPow (-k).toNat, r.den)
    else (r.value, r.den * tenPow k.toNat)) = units at h
  obtain ⟨n, den⟩ := units
  dsimp only at h
  split at h
  · next hbelow habove =>
    cases h
    rcases hround n den with h | h
    · rw [h, hbelow]
    · rw [h, habove]
  · next hbelow _ =>
    cases h
    exact hbelow
  · next _ habove =>
    cases h
    exact habove
  · cases h

/-- On a grid that is finer than the interval there is a point in it. -/
theorem gridPoint_isSome (hr : r.Around m q) {k : ℤ} (hk : (10 : ℚ) ^ k < reach m q * 2 ^ q) :
    (gridPoint r k).isSome = true := by
  have hq : (0 : ℚ) < 2 ^ q := by positivity
  have hten : (0 : ℚ) < 10 ^ k := by positivity
  have hden : (0 : ℚ) < r.den := by exact_mod_cast hr.den
  obtain ⟨units, hunits⟩ : ∃ units, units = (if k < 0 then (r.value * tenPow (-k).toNat, r.den)
    else (r.value, r.den * tenPow k.toNat)) := ⟨_, rfl⟩
  -- In units of the grid, the value is a fraction whose whole part is the point below it.
  have hvalue : 0 < units.2 ∧ (units.1 : ℚ) / units.2 = m * 2 ^ q / 10 ^ k := by
    rw [hunits, ← hr.value]
    split
    · next hneg =>
      obtain ⟨j, rfl⟩ : ∃ j : ℕ, k = -(j : ℤ) := ⟨(-k).toNat, by omega⟩
      refine ⟨hr.den, ?_⟩
      rw [neg_neg, Int.toNat_natCast, zpow_neg, zpow_natCast, div_inv_eq_mul, Nat.cast_mul,
        cast_tenPow]
      ring
    · next hneg =>
      obtain ⟨j, rfl⟩ : ∃ j : ℕ, k = (j : ℤ) := ⟨k.toNat, by omega⟩
      refine ⟨Nat.mul_pos hr.den (tenPow_pos j), ?_⟩
      rw [Int.toNat_natCast, zpow_natCast, Nat.cast_mul, cast_tenPow, div_div]
  have hpos : (0 : ℚ) < units.2 := by exact_mod_cast hvalue.1
  have hbelow : r.holds (units.1 / units.2) k = true := by
    have hfloor : ((units.1 / units.2 : ℕ) : ℚ) ≤ m * 2 ^ q / 10 ^ k := by
      rw [← hvalue.2, le_div_iff₀ hpos]
      exact_mod_cast Nat.div_mul_le_self units.1 units.2
    have hnext : (m : ℚ) * 2 ^ q / 10 ^ k < ((units.1 / units.2 : ℕ) : ℚ) + 1 := by
      rw [← hvalue.2, div_lt_iff₀ hpos]
      exact_mod_cast Nat.lt_mul_of_div_lt (Nat.lt_succ_self _) hvalue.1
    rw [le_div_iff₀ hten] at hfloor
    rw [div_lt_iff₀ hten] at hnext
    exact hr.holds (by linarith) (by linarith)
  unfold gridPoint
  rw [← hunits]
  obtain ⟨n, d⟩ := units
  dsimp only at hbelow ⊢
  rw [hbelow]
  cases r.holds (n / d + 1) k <;> rfl

/-- The search over grids ends in the interval if the last of them has a point there. -/
theorem holds_shortestFrom {top : ℤ} : ∀ (fuel n : ℕ),
    (gridPoint r (top - (n + fuel : ℕ))).isSome = true →
      r.holds (shortestFrom r top fuel n).digits (shortestFrom r top fuel n).exponent = true
  | 0, n, h => by
    obtain ⟨d, hd⟩ := Option.isSome_iff_exists.1 h
    rw [Nat.add_zero] at hd
    simp only [shortestFrom, hd, Option.getD_some]
    exact holds_of_gridPoint hd
  | fuel + 1, n, h => by
    unfold shortestFrom
    split
    · next hd => exact holds_of_gridPoint hd
    · refine holds_shortestFrom fuel (n + 1) ?_
      rw [show n + 1 + fuel = n + (fuel + 1) by omega]
      exact h

/-- The zeros in front of a fraction are found, if there are not too many of them. -/
theorem leadingZeros_spec {value den : ℕ} : ∀ fuel j : ℕ, den ≤ value * tenPow (j + fuel) →
    den ≤ value * tenPow (leadingZeros value den fuel j)
  | 0, _, h => h
  | fuel + 1, j, h => by
    unfold leadingZeros
    split
    · next hj => exact hj
    · refine leadingZeros_spec fuel (j + 1) ?_
      rw [show j + 1 + fuel = j + (fuel + 1) by omega]
      exact h

/-- The first digit of a value stands at its decimal exponent. -/
theorem ten_zpow_decimalExponent_le (hf : Form m q) (hr : r.Around m q) :
    (10 : ℚ) ^ decimalExponent r.value r.den ≤ m * 2 ^ q := by
  have hden : (0 : ℚ) < r.den := by exact_mod_cast hr.den
  rw [← hr.value, le_div_iff₀ hden]
  unfold decimalExponent
  split
  · next hle =>
    have hne : r.value / r.den ≠ 0 := (Nat.div_pos hle hr.den).ne'
    have hdigits := (digitCount_bounds hne).1
    have hfloor : ((r.value / r.den : ℕ) : ℚ) * r.den ≤ r.value := by
      exact_mod_cast Nat.div_mul_le_self r.value r.den
    calc (10 : ℚ) ^ ((digitCount (r.value / r.den) : ℤ) - 1) * r.den
        ≤ ((r.value / r.den : ℕ) : ℚ) * r.den := by gcongr
      _ ≤ r.value := hfloor
  · obtain ⟨n, hn⟩ : ∃ n : ℕ, n = 400 := ⟨_, rfl⟩
    have hbound : r.den ≤ r.value * tenPow (1 + n) := by
      have hv : RoundsTo m q (m * 2 ^ q) := by
        have hq : (0 : ℚ) < 2 ^ q := by positivity
        have hreach := (reach_bounds m q).1
        refine ⟨?_, ?_, ?_⟩
        · gcongr
          linarith
        · gcongr
          linarith
        · rintro (h | h)
          · rw [mul_left_inj' hq.ne'] at h
            linarith
          · rw [mul_left_inj' hq.ne'] at h
            linarith
      have hlow := (hv.bounds (n := n) hf (by omega)).1
      rw [← hr.value, lt_div_iff₀ hden, zpow_neg, zpow_natCast, inv_mul_lt_iff₀ (by positivity)]
        at hlow
      have hle : (r.den : ℚ) ≤ r.value * tenPow n := by
        rw [cast_tenPow]
        linarith
      have hle' : r.den ≤ r.value * tenPow n := by exact_mod_cast hle
      exact hle'.trans (Nat.mul_le_mul_left _ (Nat.pow_le_pow_right (by decide) (by omega)))
    have hzeros := leadingZeros_spec n 1 hbound
    subst hn
    have hzeros' : (r.den : ℚ) ≤ r.value * 10 ^ leadingZeros r.value r.den 400 1 := by
      rw [← cast_tenPow]
      exact_mod_cast hzeros
    rw [zpow_neg, zpow_natCast, inv_mul_le_iff₀ (by positivity)]
    linarith

/-- Zeros at the end of digits do not matter. -/
theorem stripZeros_value : ∀ (fuel : ℕ) (s : Scaled),
    ((stripZeros fuel s).digits : ℚ) * 10 ^ (stripZeros fuel s).exponent =
      s.digits * 10 ^ s.exponent
  | 0, _ => rfl
  | fuel + 1, s => by
    unfold stripZeros
    split
    · next h =>
      simp only [ne_eq, decide_not, Bool.and_eq_true, Bool.not_eq_eq_eq_not, Bool.not_true,
        decide_eq_false_iff_not, decide_eq_true_eq] at h
      rw [stripZeros_value fuel]
      dsimp only
      have hdigits : s.digits = 10 * (s.digits / 10) := by omega
      rw [zpow_add_one₀ (by norm_num)]
      conv_rhs => rw [hdigits]
      push_cast
      ring
    · rfl

/-- The shortest digits of an interval lie in it. -/
theorem roundsTo_shortest (hf : Form m q) (hr : r.Around m q) :
    RoundsTo m q (r.shortest.digits * 10 ^ r.shortest.exponent) := by
  unfold Rounding.shortest
  rw [stripZeros_value]
  refine hr.roundsTo (holds_shortestFrom 17 0 (gridPoint_isSome hr ?_))
  have htop := ten_zpow_decimalExponent_le hf hr
  have hq : (0 : ℚ) < 2 ^ q := by positivity
  have hm : (m : ℚ) < 2 ^ 53 := by exact_mod_cast hf.lt
  have hreach := (reach_bounds m q).1
  have hten : (0 : ℚ) < 10 ^ (17 : ℕ) := by positivity
  -- Eighteen digits are enough, for four times a significand is less than the power 17 of ten.
  rw [Nat.zero_add, zpow_sub₀ (by norm_num), zpow_natCast, div_lt_iff₀ hten]
  calc (10 : ℚ) ^ decimalExponent r.value r.den ≤ m * 2 ^ q := htop
    _ < 2 ^ 53 * 2 ^ q := by gcongr
    _ ≤ (1 / 4 * 10 ^ 17) * 2 ^ q := by gcongr; norm_num
    _ ≤ (reach m q * 10 ^ 17) * 2 ^ q := by gcongr
    _ = reach m q * 2 ^ q * 10 ^ 17 := by ring

end

/-- The shortest digits of a number that is not zero are rounded to it. -/
theorem roundsTo_of_isZero_eq_false {x : Binary64} (hfinite : x.isFinite = true)
    (hzero : x.isZero = false) : Form x.parts.1 x.parts.2 ∧
      bitsOf x.parts.1 x.parts.2 = x.unsignedBits ∧
      RoundsTo x.parts.1 x.parts.2
        (x.rounding.shortest.digits * 10 ^ x.rounding.shortest.exponent) := by
  obtain ⟨hf, hbits, hnarrow⟩ := parts_spec hfinite hzero
  exact ⟨hf, hbits, roundsTo_shortest hf (around_roundingOf hf.pos x.parts.2 hnarrow)⟩

/-- The only number without digits is zero, which has no exponent. -/
theorem shortest_exponent_eq_zero {x : Binary64} (hfinite : x.isFinite = true)
    (h : x.shortest.digits = 0) : x.shortest.exponent = 0 := by
  unfold shortest at h ⊢
  split
  · rfl
  · next hzero =>
    rw [if_neg hzero] at h
    obtain ⟨hf, -, hv⟩ := roundsTo_of_isZero_eq_false hfinite (Bool.eq_false_of_not_eq_true hzero)
    rw [h, Nat.cast_zero, zero_mul] at hv
    exact absurd (hv.bounds hf le_rfl).1 (not_lt.2 (by positivity))

/-- A finite number is the value of all digits that stand for the same decimal number as its
shortest ones. -/
theorem ofDecimal_shortest {x : Binary64} (hfinite : x.isFinite = true) {a : ℕ} {k : ℤ}
    (h : (a : ℚ) * 10 ^ k = x.shortest.digits * 10 ^ x.shortest.exponent) :
    ofDecimal x.isNegative a k = x := by
  unfold shortest at h
  split at h
  · next hzero =>
    have ha : a = 0 := by
      have hten : (10 : ℚ) ^ k ≠ 0 := by positivity
      rw [Nat.cast_zero, zero_mul, mul_eq_zero, or_iff_left hten] at h
      exact_mod_cast h
    have hbits : x.unsignedBits = 0 := by simpa [isZero] using hzero
    rw [ha, ofDecimal, if_pos rfl, ← hbits, ofParts_unsignedBits]
  · next hzero =>
    obtain ⟨hf, hbits, hv⟩ :=
      roundsTo_of_isZero_eq_false hfinite (Bool.eq_false_of_not_eq_true hzero)
    rw [← h] at hv
    rw [ofDecimal_eq hf hv, hbits, ofParts_unsignedBits]

/-- A finite number is written by its sign and its shortest digits. -/
theorem text_of_isFinite {x : Binary64} (hfinite : x.isFinite = true) (f : NumberFormat) :
    x.text f = f.layOut x.isNegative x.shortest := by
  have hnan : x.isNaN = false := by
    simp only [isFinite, isNaN, decide_eq_true_eq, decide_eq_false_iff_not] at *
    omega
  have hinf : x.isInfinite = false := by
    simp only [isFinite, isInfinite, decide_eq_true_eq, beq_eq_false_iff_ne] at *
    omega
  rw [text, hnan, hinf, if_neg Bool.false_ne_true, if_neg Bool.false_ne_true]

end InfraSmells.Binary64
