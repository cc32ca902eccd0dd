import InfraSmells.Datum.Json
import InfraSmells.Proofs.Decimal.Integer
import InfraSmells.Proofs.Decimal.Shortest

/-!
# Numbers of a JSON text

A written number is read back, whatever follows it that could not be a part of it: an integer as
an integer (`Json.readNumber_integer`), and a finite floating-point number as a decimal number
that is rounded to it (`Json.readNumber_float`).
-/

namespace InfraSmells.Json

/-- The characters could not go on with a number. -/
def Ends (rest : List Char) : Prop :=
  ∀ c ∈ rest.head?, Text.isDigit c = false ∧ c ≠ '.' ∧ c ≠ 'e' ∧ c ≠ 'E'

/-- The digits of a number are digits. -/
theorem isDigit_of_mem_toDigits {n : ℕ} {c : Char} (h : c ∈ Nat.toDigits 10 n) :
    Text.isDigit c = true := by
  have := Nat.isDigit_of_mem_toDigits (by decide) (by decide) h
  simpa [Text.isDigit, Char.isDigit, Char.le_def, UInt32.le_iff_toNat_le] using this

/-- The first digit of a number is not zero, unless the number is. -/
theorem head?_toDigits {n : ℕ} (h : n ≠ 0) : (Nat.toDigits 10 n).head? ≠ some '0' := by
  induction n using Nat.strongRecOn with
  | ind n ih =>
    by_cases hn : n < 10
    · rw [Nat.toDigits_of_lt_base hn]
      have : n = 1 ∨ n = 2 ∨ n = 3 ∨ n = 4 ∨ n = 5 ∨ n = 6 ∨ n = 7 ∨ n = 8 ∨ n = 9 := by omega
      rcases this with rfl | rfl | rfl | rfl | rfl | rfl | rfl | rfl | rfl <;> decide
    · rw [Nat.toDigits_of_base_le (by decide) (by omega), List.head?_append_of_ne_nil _
        Nat.toDigits_ne_nil]
      exact ih (n / 10) (by omega) (by omega)

/-- The value of the digits of a number is the number. -/
theorem digitsValue_toDigits (n : ℕ) : digitsValue (Nat.toDigits 10 n) = n :=
  Nat.ofDigitChars_ten_toDigits

/-- Zeros behind digits multiply their value. -/
theorem digitsValue_append_zeros (ds : List Char) (n : ℕ) :
    digitsValue (ds ++ List.replicate n '0') = digitsValue ds * 10 ^ n := by
  have h := Nat.ofDigitChars_append (b := 10) (l := ds) (m := List.replicate n '0') 0
  rw [Nat.ofDigitChars_replicate_zero, Nat.mul_comm] at h
  exact h

/-- Zeros in front of digits do not matter. -/
theorem digitsValue_zeros_append (n : ℕ) (ds : List Char) :
    digitsValue (List.replicate n '0' ++ ds) = digitsValue ds := by
  have h := Nat.ofDigitChars_append (b := 10) (l := List.replicate n '0') (m := ds) 0
  rw [Nat.ofDigitChars_replicate_zero, Nat.mul_zero] at h
  exact h

/-- Digits that may stand before the point: no zero in front of others. -/
structure WholePart (w : List Char) : Prop where
  digits : ∀ c ∈ w, Text.isDigit c = true
  ne_nil : w ≠ []
  first : w.length = 1 ∨ w.head? ≠ some '0'

/-- The digits of a number may stand before the point. -/
theorem wholePart_toDigits (n : ℕ) : WholePart (Nat.toDigits 10 n) where
  digits _ := isDigit_of_mem_toDigits
  ne_nil := Nat.toDigits_ne_nil
  first := by
    by_cases h : n = 0
    · exact .inl (by rw [h, Nat.toDigits_zero]; rfl)
    · exact .inr (head?_toDigits h)

/-- So may they with zeros behind them, if the number is not zero. -/
theorem wholePart_append_zeros {n zeros : ℕ} (h : n = 0 → zeros = 0) :
    WholePart (Nat.toDigits 10 n ++ List.replicate zeros '0') := by
  by_cases hn : n = 0
  · rw [h hn, List.replicate_zero, List.append_nil]
    exact wholePart_toDigits n
  · refine ⟨fun c hc => ?_, by simp, .inr ?_⟩
    · rcases List.mem_append.1 hc with hc | hc
      · exact isDigit_of_mem_toDigits hc
      · rw [(List.mem_replicate.1 hc).2]
        rfl
    · rw [List.head?_append_of_ne_nil _ Nat.toDigits_ne_nil]
      exact head?_toDigits hn

/-- The digits of a number, with zeros in front of them where there are not more than `places`. -/
def padded (places n : ℕ) : List Char :=
  List.replicate (places + 1 - (Nat.toDigits 10 n).length) '0' ++ Nat.toDigits 10 n

/-- There is a digit in front of the places. -/
theorem lt_length_padded (places n : ℕ) : places < (padded places n).length := by
  rw [padded, List.length_append, List.length_replicate]
  omega

/-- The digits with zeros in front of them are digits. -/
theorem isDigit_of_mem_padded {places n : ℕ} {c : Char} (h : c ∈ padded places n) :
    Text.isDigit c = true := by
  rcases List.mem_append.1 h with h | h
  · rw [(List.mem_replicate.1 h).2]
    rfl
  · exact isDigit_of_mem_toDigits h

/-- What is in front of the places may stand before the point. -/
theorem wholePart_take_padded {places : ℕ} (hplaces : places ≠ 0) (n : ℕ) :
    WholePart ((padded places n).take ((padded places n).length - places)) := by
  have hlength := lt_length_padded places n
  refine ⟨fun c hc => isDigit_of_mem_padded (List.mem_of_mem_take hc), ?_, ?_⟩
  · rw [← List.length_pos_iff, List.length_take]
    omega
  · -- Either zeros were needed, and one of them is all that stands before the point, or none.
    by_cases hzeros : (Nat.toDigits 10 n).length ≤ places
    · left
      rw [List.length_take, padded, List.length_append, List.length_replicate]
      omega
    · right
      rw [List.head?_take, if_neg (by omega), padded,
        show places + 1 - (Nat.toDigits 10 n).length = 0 by omega, List.replicate_zero, List.nil_append]
      refine head?_toDigits fun hn => hzeros ?_
      rw [hn, Nat.toDigits_zero]
      exact Nat.one_le_iff_ne_zero.2 hplaces

/-- The characters of a sign. -/
def signChars (negative : Bool) : List Char :=
  if negative then ['-'] else []

/-- A number is read from the parts it is made of. -/
theorem readNumber_eq {w t u rest f : List Char} {scaled : Bool} {e : ℤ} (negative : Bool)
    (hw : WholePart w) (ht : ∀ c ∈ t.head?, Text.isDigit c = false)
    (hf : readFraction t = some (f, u)) (he : readExponent u = some (scaled, e, rest)) :
    readNumber (signChars negative ++ (w ++ t)) =
      some (.decimal negative (digitsValue (w ++ f)) (e - f.length) (f.isEmpty && !scaled),
        rest) := by
  have ⟨htake, hdrop⟩ := Text.span_digits hw.digits ht
  have hsign : readMinus (signChars negative ++ (w ++ t)) = (negative, w ++ t) := by
    cases negative with
    | true => rfl
    | false =>
      cases w with
      | nil => exact absurd rfl hw.ne_nil
      | cons c w =>
        have hc : c ≠ '-' := by
          rintro rfl
          exact absurd (hw.digits '-' (.head _)) (by decide)
        simp only [signChars, Bool.false_eq_true, if_false, List.nil_append, List.cons_append]
        unfold readMinus
        split
        · next heq => exact absurd (List.cons.inj heq).1 hc
        · rfl
  have hguard : (!w.isEmpty && (w.length == 1 || w.head? != some '0')) = true := by
    have hne : w.isEmpty = false := by
      rw [List.isEmpty_eq_false_iff]
      exact hw.ne_nil
    rcases hw.first with h | h
    · simp [hne, h]
    · simp [hne, h]
  unfold readNumber
  rw [hsign]
  dsimp only
  rw [htake, hdrop, hf, hguard]
  simp only [guard, if_true, Option.pure_def, Option.bind_eq_bind, Option.bind_some, he]

/-- Without a point there is no fraction. -/
theorem readFraction_none {t : List Char} (h : ∀ c ∈ t.head?, c ≠ '.') :
    readFraction t = some ([], t) := by
  cases t with
  | nil => rfl
  | cons c t =>
    have hc := h c rfl
    unfold readFraction
    split
    · next heq => exact absurd (List.cons.inj heq).1 hc
    · rfl

/-- The digits behind a point are the fraction. -/
theorem readFraction_some {f t : List Char} (hf : ∀ c ∈ f, Text.isDigit c = true) (hne : f ≠ [])
    (ht : ∀ c ∈ t.head?, Text.isDigit c = false) :
    readFraction ('.' :: (f ++ t)) = some (f, t) := by
  have ⟨htake, hdrop⟩ := Text.span_digits hf ht
  have hne' : f.isEmpty = false := by
    rw [List.isEmpty_eq_false_iff]
    exact hne
  simp only [readFraction, htake, hdrop, hne', Bool.false_eq_true, if_false]

/-- Without a mark there is no exponent. -/
theorem readExponent_none {t : List Char} (h : ∀ c ∈ t.head?, c ≠ 'e' ∧ c ≠ 'E') :
    readExponent t = some (false, 0, t) := by
  cases t with
  | nil => rfl
  | cons c t =>
    have hc := h c rfl
    simp [readExponent, hc.1, hc.2]

/-- The sign and the digits behind a mark are the exponent. -/
theorem readExponent_some {n : ℕ} {rest : List Char} (negative : Bool)
    (hr : ∀ c ∈ rest.head?, Text.isDigit c = false) :
    readExponent ('e' :: (if negative then '-' else '+') :: (Nat.toDigits 10 n ++ rest)) =
      some (true, if negative then -(n : ℤ) else n, rest) := by
  have ⟨htake, hdrop⟩ := Text.span_digits (fun c => isDigit_of_mem_toDigits (n := n)) hr
  have hne : (Nat.toDigits 10 n).isEmpty = false := by
    rw [List.isEmpty_eq_false_iff]
    exact Nat.toDigits_ne_nil
  cases negative <;>
    simp [readExponent, htake, hdrop, hne, digitsValue_toDigits]

/-- A number of a whole part only is read as it stands. -/
theorem readNumber_whole {w rest : List Char} (negative : Bool) (hw : WholePart w) (hr : Ends rest) :
    readNumber (signChars negative ++ (w ++ rest)) =
      some (.decimal negative (digitsValue w) 0 true, rest) := by
  rw [readNumber_eq negative hw (fun c hc => (hr c hc).1) (readFraction_none fun c hc => (hr c hc).2.1)
    (readExponent_none fun c hc => (hr c hc).2.2), List.append_nil]
  rfl

/-- A number of a whole part and a fraction is read as its digits, scaled by the places behind the point. -/
theorem readNumber_fraction {w f rest : List Char} (negative : Bool) (hw : WholePart w)
    (hf : ∀ c ∈ f, Text.isDigit c = true) (hne : f ≠ []) (hr : Ends rest) :
    readNumber (signChars negative ++ (w ++ '.' :: (f ++ rest))) =
      some (.decimal negative (digitsValue (w ++ f)) (-f.length) false, rest) := by
  have hread := readNumber_eq negative hw (fun c hc => by cases hc; rfl)
    (readFraction_some hf hne fun c hc => (hr c hc).1) (readExponent_none fun c hc => (hr c hc).2.2)
  rwa [List.isEmpty_eq_false_iff.2 hne, Bool.false_and, zero_sub] at hread

/-- A written integer is read back. -/
theorem readNumber_integer (n : ℤ) {rest : List Char} (hr : Ends rest) :
    readNumber ((writeNumber (.integer n)).toList ++ rest) =
      some (.decimal (n < 0) n.natAbs 0 true, rest) := by
  have htext : (writeNumber (.integer n)).toList =
      signChars (n < 0) ++ Nat.toDigits 10 n.natAbs := by
    cases n with
    | ofNat m =>
      show (toString (Int.ofNat m)).toList = _
      simp [signChars, toString, Int.repr]
    | negSucc m =>
      show (toString (Int.negSucc m)).toList = _
      simp [signChars, toString, Int.repr, Int.negSucc_lt_zero]
  rw [htext, List.append_assoc, readNumber_whole _ (wholePart_toDigits _) hr, digitsValue_toDigits]

/-- With a negative exponent, the point stands in front of as many digits as the exponent says. -/
theorem exists_parts_positional {s : Scaled} (h : s.exponent < 0) :
    ∃ w f, s.positional = String.ofList (w ++ '.' :: f) ∧ WholePart w ∧
      (∀ c ∈ f, Text.isDigit c = true) ∧ (f.length : ℤ) = -s.exponent ∧
      digitsValue (w ++ f) = s.digits := by
  obtain ⟨places, hplaces⟩ : ∃ places : ℕ, s.exponent = -(places : ℤ) :=
    ⟨(-s.exponent).toNat, by omega⟩
  have htext : s.positional = String.ofList
      ((padded places s.digits).take ((padded places s.digits).length - places) ++
        '.' :: (padded places s.digits).drop ((padded places s.digits).length - places)) := by
    rw [Scaled.positional, if_neg (by omega), hplaces, neg_neg, Int.toNat_natCast]
    rfl
  refine ⟨_, _, htext, wholePart_take_padded (by omega) s.digits,
    fun c hc => isDigit_of_mem_padded (List.mem_of_mem_drop hc), ?_, ?_⟩
  · rw [List.length_drop, Nat.sub_sub_self (lt_length_padded places s.digits).le, hplaces, neg_neg]
  · rw [List.take_append_drop, padded, digitsValue_zeros_append, digitsValue_toDigits]

/-- A decimal number that is written without an exponent is read back, up to zeros at its end. -/
theorem readNumber_positional (negative : Bool) {s : Scaled}
    (hzero : s.digits = 0 → s.exponent = 0) :
    ∃ (a : ℕ) (k : ℤ) (whole : Bool), (a : ℚ) * 10 ^ k = s.digits * 10 ^ s.exponent ∧
      ∀ rest, Ends rest → readNumber (signChars negative ++ (s.positional.toList ++ rest)) =
        some (.decimal negative a k whole, rest) := by
  by_cases he : 0 ≤ s.exponent
  · obtain ⟨n, hn⟩ : ∃ n : ℕ, s.exponent = n := ⟨s.exponent.toNat, by omega⟩
    have htext : s.positional = String.ofList (Nat.toDigits 10 s.digits ++ List.replicate n '0') := by
      rw [Scaled.positional, if_pos he, hn, Int.toNat_natCast]
    have hpart : WholePart (Nat.toDigits 10 s.digits ++ List.replicate n '0') :=
      wholePart_append_zeros fun h => by have := hzero h; omega
    rw [htext, String.toList_ofList]
    refine ⟨_, _, _, ?_, fun rest hr => readNumber_whole negative hpart hr⟩
    rw [digitsValue_append_zeros, digitsValue_toDigits, hn]
    push_cast
    rw [mul_one, zpow_natCast]
  · obtain ⟨w, f, htext, hw, hf, hlength, hvalue⟩ := exists_parts_positional (not_le.1 he)
    have hne : f ≠ [] := by
      rintro rfl
      rw [List.length_nil] at hlength
      omega
    rw [htext, String.toList_ofList]
    refine ⟨digitsValue (w ++ f), -(f.length : ℤ), false, ?_, fun rest hr => ?_⟩
    · rw [hvalue, hlength, neg_neg]
    · rw [List.append_assoc, List.cons_append, readNumber_fraction negative hw hf hne hr]

/-- A decimal number that is written with an exponent is read back. -/
theorem readNumber_scientific (negative : Bool) (s : Scaled) {rest : List Char} (hr : Ends rest) :
    readNumber (signChars negative ++ ((s.scientific 1).toList ++ rest)) =
      some (.decimal negative s.digits s.exponent false, rest) := by
  have hdigits (c : Char) (hc : c ∈ Nat.toDigits 10 s.digits) : Text.isDigit c = true :=
    isDigit_of_mem_toDigits hc
  have hvalue := digitsValue_toDigits s.digits
  have hexponent (e : ℤ) : readExponent ('e' :: (if e < 0 then '-' else '+') ::
      (Nat.toDigits 10 e.natAbs ++ rest)) = some (true, e, rest) := by
    have := readExponent_some (n := e.natAbs) (decide (e < 0)) fun c hc => (hr c hc).1
    simp only [decide_eq_true_eq] at this
    rw [this]
    split
    · rw [Int.ofNat_natAbs_of_nonpos (by omega), neg_neg]
    · rw [Int.natAbs_of_nonneg (by omega)]
  unfold Scaled.scientific
  dsimp only
  rw [String.toList_ofList, Nat.sub_eq_zero_of_le Nat.length_toDigits_pos, List.replicate_zero,
    List.nil_append]
  match hds : Nat.toDigits 10 s.digits with
  | [] => exact absurd hds Nat.toDigits_ne_nil
  | [d] =>
    rw [hds] at hdigits hvalue
    have hpart : WholePart [d] := ⟨hdigits, List.cons_ne_nil _ _, .inl rfl⟩
    have hread := readNumber_eq negative hpart (fun c hc => by cases hc; rfl)
      (readFraction_none fun c hc => by cases hc; decide)
      (hexponent (s.exponent + ((1 : ℕ) : ℤ) - 1))
    rw [List.append_nil, hvalue] at hread
    simpa using hread
  | d :: d' :: ds =>
    rw [hds] at hdigits hvalue
    have hpart : WholePart [d] :=
      ⟨fun c hc => hdigits c (by simp_all), List.cons_ne_nil _ _, .inl rfl⟩
    have hread := readNumber_eq negative hpart (fun c hc => by cases hc; rfl)
      (readFraction_some (fun c hc => hdigits c (.tail _ hc)) (List.cons_ne_nil d' ds)
        fun c hc => by cases hc; rfl) (hexponent (s.exponent + ((d :: d' :: ds).length : ℤ) - 1))
    have hscale : s.exponent + ((d :: d' :: ds).length : ℤ) - 1 - ((d' :: ds).length : ℤ) =
        s.exponent := by
      simp only [List.length_cons]
      omega
    rw [List.singleton_append, List.singleton_append, hvalue, hscale] at hread
    simpa using hread

/-- A written floating-point number is read as a decimal number that is rounded to it. -/
theorem readNumber_float {x : Binary64} (hfinite : x.isFinite = true) :
    ∃ n : Numeral, n.toBinary64? = some x ∧ ∀ rest, Ends rest →
      readNumber ((writeNumber (.float x)).toList ++ rest) = some (n, rest) := by
  have hsign (t : String) (rest : List Char) :
      ((if x.isNegative then "-" else "") ++ t).toList ++ rest =
        signChars x.isNegative ++ (t.toList ++ rest) := by
    rw [String.toList_append, List.append_assoc]
    cases x.isNegative <;> rfl
  have hvalue {a : ℕ} {k : ℤ} {whole : Bool}
      (h : (a : ℚ) * 10 ^ k = x.shortest.digits * 10 ^ x.shortest.exponent) :
      (Numeral.decimal x.isNegative a k whole).toBinary64? = some x := by
    simp only [Numeral.toBinary64?, Binary64.ofDecimal_shortest hfinite h, hfinite, if_true]
  simp only [writeNumber, Binary64.text_of_isFinite hfinite, NumberFormat.layOut, NumberFormat.document]
  split
  · obtain ⟨a, k, whole, hval, hread⟩ := readNumber_positional x.isNegative
      (Binary64.shortest_exponent_eq_zero hfinite)
    exact ⟨_, hvalue hval, fun rest hr => by rw [hsign, hread rest hr]⟩
  · exact ⟨_, hvalue rfl,
      fun rest hr => by rw [hsign, readNumber_scientific x.isNegative x.shortest hr]⟩

/-! ## The characters of a number -/

/-- Digits belong to ASCII. -/
theorem toNat_lt_of_isDigit {c : Char} (h : Text.isDigit c = true) : c.toNat < 0x80 :=
  Nat.lt_trans (Text.toNat_lt_of_isDigit h) (by decide)

/-- The digits at the head of characters belong to ASCII. -/
theorem toNat_lt_of_mem_takeWhile {c : Char} {cs : List Char}
    (h : c ∈ cs.takeWhile Text.isDigit) : c.toNat < 0x80 :=
  toNat_lt_of_isDigit (List.all_eq_true.1 List.all_takeWhile c h)

/-- A fraction consists of ASCII characters. -/
theorem readFraction_ascii {cs f u : List Char} (h : readFraction cs = some (f, u)) :
    ∃ used, cs = used ++ u ∧ ∀ c ∈ used, c.toNat < 0x80 := by
  unfold readFraction at h
  split at h
  · next ds =>
    dsimp only at h
    split at h
    · cases h
    · cases h
      refine ⟨'.' :: ds.takeWhile Text.isDigit, by simp, fun c hc => ?_⟩
      rcases List.mem_cons.1 hc with rfl | hc
      · decide
      · exact toNat_lt_of_mem_takeWhile hc
  · cases h
    exact ⟨[], rfl, fun c hc => by cases hc⟩

/-- An exponent consists of ASCII characters. -/
theorem readExponent_ascii {cs u : List Char} {scaled : Bool} {e : ℤ}
    (h : readExponent cs = some (scaled, e, u)) :
    ∃ used, cs = used ++ u ∧ ∀ c ∈ used, c.toNat < 0x80 := by
  -- The digits come last, behind a mark and perhaps a sign.
  have hdigits (mark ds : List Char) (hmark : ∀ c ∈ mark, c.toNat < 0x80) {e' : ℤ}
      (h : (if (ds.takeWhile Text.isDigit).isEmpty then none
        else some (true, e', ds.dropWhile Text.isDigit)) = some (scaled, e, u)) :
      ∃ used, mark ++ ds = used ++ u ∧ ∀ c ∈ used, c.toNat < 0x80 := by
    split at h
    · cases h
    cases h
    refine ⟨mark ++ ds.takeWhile Text.isDigit, by simp, fun c hc => ?_⟩
    rcases List.mem_append.1 hc with hc | hc
    · exact hmark c hc
    · exact toNat_lt_of_mem_takeWhile hc
  cases cs with
  | nil =>
    cases h
    exact ⟨[], rfl, fun c hc => by cases hc⟩
  | cons m ds =>
    unfold readExponent at h
    dsimp only at h
    split at h
    · next hm =>
      have hm : m.toNat < 0x80 := by
        simp only [Bool.or_eq_true, beq_iff_eq] at hm
        rcases hm with rfl | rfl <;> decide
      split at h
      · exact hdigits [m, '-'] _ (by simp [hm]) h
      · exact hdigits [m, '+'] _ (by simp [hm]) h
      · exact hdigits [m] _ (by simp [hm]) h
    · cases h
      exact ⟨[], rfl, fun c hc => by cases hc⟩

/-- A number begins with a sign or a digit and consists of ASCII characters. -/
theorem readNumber_ascii {cs rest : List Char} {n : Numeral} (h : readNumber cs = some (n, rest)) :
    (∃ c cs', cs = c :: cs' ∧ (c = '-' ∨ Text.isDigit c = true)) ∧
      ∃ used, cs = used ++ rest ∧ ∀ c ∈ used, c.toNat < 0x80 := by
  obtain ⟨sign, ds, hsign, heq, hascii⟩ : ∃ sign ds, (readMinus cs).2 = ds ∧ cs = sign ++ ds ∧
      (sign = ['-'] ∨ sign = []) := by
    unfold readMinus
    split
    · exact ⟨['-'], _, rfl, rfl, .inl rfl⟩
    · exact ⟨[], _, rfl, rfl, .inr rfl⟩
  unfold readNumber at h
  simp only [hsign, Option.bind_eq_bind, Option.bind_eq_some_iff] at h
  obtain ⟨_, hguard, ⟨f, u⟩, hf, ⟨scaled, e, v⟩, he, hn⟩ := h
  cases hn
  obtain ⟨fused, hfused, hfascii⟩ := readFraction_ascii hf
  obtain ⟨eused, heused, heascii⟩ := readExponent_ascii he
  have hall : ds = ds.takeWhile Text.isDigit ++ (fused ++ (eused ++ v)) := by
    rw [← heused, ← hfused, List.takeWhile_append_dropWhile]
  refine ⟨?_, sign ++ (ds.takeWhile Text.isDigit ++ (fused ++ eused)), ?_, fun c hc => ?_⟩
  · cases hds : ds with
    | nil =>
      rw [hds] at hguard
      cases hguard
    | cons c ds' =>
      rcases hascii with rfl | rfl
      · exact ⟨_, _, by rw [heq]; rfl, .inl rfl⟩
      · refine ⟨c, ds', by rw [heq, hds]; rfl, .inr ?_⟩
        by_contra hc
        rw [hds, List.takeWhile_cons_of_neg hc] at hguard
        cases hguard
  · rw [heq]
    conv_lhs => rw [hall]
    simp only [List.append_assoc]
  · simp only [List.mem_append] at hc
    rcases hc with hc | hc | hc | hc
    · rcases hascii with rfl | rfl
      · rw [List.mem_singleton.1 hc]
        decide
      · cases hc
    · exact toNat_lt_of_mem_takeWhile hc
    · exact hfascii c hc
    · exact heascii c hc

end InfraSmells.Json
