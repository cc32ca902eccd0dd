import InfraSmells.Config.BuiltIn
import InfraSmells.Proofs.Datum.Lower
import InfraSmells.Proofs.Decimal.Integer
import InfraSmells.Proofs.Policy.Union
import Mathlib.Data.Rat.Floor

/-!
# Periods of rotation

A period is a number of seconds, with at most nine places behind a point, in front of its unit
(`Policy.Lasts`). The reader of periods finds the digits of such a text in lower case, and of no other
(`Policy.periodSeconds?_literal_iff`), and takes them alone for the period: what the places add makes no
difference (`Policy.isLongRotation_literal_iff`). So a period is reported from the second behind ninety
days on, and not within this second (`Policy.rotation_periods_judged`, `Policy.half_second_missed`).
-/

namespace InfraSmells.Policy

/-! ## Periods -/

/-- The characters behind the whole seconds, and the part of a second that they add. -/
inductive Fraction : List Char → ℚ → Prop where
  | none : Fraction [] 0
  | places {ds : List Char} (hds : ∀ d ∈ ds, Text.isDigit d = true) (hlength : ds.length ≤ 9) :
    Fraction ('.' :: ds) (Nat.ofDigitChars 10 ds 0 / 10 ^ ds.length)

/-- The characters are a period of so many seconds; the letter case of the unit does not matter. -/
def Lasts (period : List Char) (seconds : ℚ) : Prop :=
  ∃ ds fs part unit, IsNumeral ds ∧ Fraction fs part ∧ (unit = 's' ∨ unit = 'S') ∧
    period = ds ++ (fs ++ [unit]) ∧ seconds = Nat.ofDigitChars 10 ds 0 + part

section
variable {fs ts : List Char} {part : ℚ} {e : Expr} {s t seconds : String} {n : Int}

/-- The places add less than a second. -/
theorem Fraction.floor_add (h : Fraction fs part) (n : ℕ) : ⌊(n : ℚ) + part⌋ = n := by
  rw [Int.floor_natCast_add, add_eq_left, Int.floor_eq_zero_iff, Set.mem_Ico]
  cases h with
  | none => exact ⟨le_refl 0, zero_lt_one⟩
  | @places ds hds =>
    have hpos : (0 : ℚ) < 10 ^ ds.length := by positivity
    have hlt := ofDigitChars_lt hds 0
    rw [Nat.zero_add, Nat.one_mul] at hlt
    exact ⟨by positivity, (div_lt_one hpos).2 (by exact_mod_cast hlt)⟩

/-- Point and places stand in front of the capitals. -/
theorem Fraction.toNat_lt (h : Fraction fs part) : ∀ c ∈ fs, c.toNat < 0x41 := by
  cases h with
  | none => exact nofun
  | places hds =>
    exact List.forall_mem_cons.2 ⟨by decide, fun d hd => Text.toNat_lt_of_isDigit (hds d hd)⟩

/-- No digit stands behind the whole seconds. -/
theorem Fraction.head_append (h : Fraction fs part) :
    ∀ c ∈ (fs ++ ['s']).head?, Text.isDigit c = false := by
  cases h with
  | none => simp [Text.isDigit]
  | places => simp [Text.isDigit]

/-! ## Reading -/

/-- The digits of a text are taken for a period if nothing but places and the unit is behind them. -/
theorem periodSeconds?_eq_some_iff : periodSeconds? t = some seconds ↔ IsNumeral seconds.toList ∧
    ∃ fs part, Fraction fs part ∧ t.toList = seconds.toList ++ (fs ++ ['s']) := by
  unfold periodSeconds?
  dsimp only
  rw [Option.ite_none_right_eq_some, Bool.and_eq_true, Option.some.injEq]
  have hcut (cs : List Char) :
      cs.takeWhile Text.isDigit ++ cs.drop (cs.takeWhile Text.isDigit).length = cs :=
    (List.prefix_append_drop (List.takeWhile_prefix _)).symm
  constructor
  · rintro ⟨⟨hne, hend⟩, rfl⟩
    rw [String.toList_ofList]
    refine ⟨⟨by simpa using hne, List.all_eq_true.1 List.all_takeWhile⟩, ?_⟩
    have hsplit := hcut t.toList
    generalize t.toList.drop (t.toList.takeWhile Text.isDigit).length = ending at hend hsplit
    split at hend
    · exact ⟨[], 0, .none, hsplit.symm⟩
    · next rest =>
      rw [Bool.and_eq_true, decide_eq_true_eq, beq_iff_eq] at hend
      have hplaces := hcut rest
      rw [hend.2] at hplaces
      refine ⟨_, _, .places (List.all_eq_true.1 List.all_takeWhile) hend.1, ?_⟩
      rw [List.cons_append, hplaces, hsplit]
    · cases hend
  · rintro ⟨hds, fs, part, hfs, ht⟩
    obtain ⟨htake, -⟩ := Text.span_digits hds.2 hfs.head_append
    rw [ht, htake, List.drop_left, String.ofList_toList]
    refine ⟨⟨by simpa using hds.1, ?_⟩, rfl⟩
    cases hfs with
    | none => rfl
    | @places ds hplaces hlength =>
      obtain ⟨htake, -⟩ := Text.span_digits hplaces Fraction.none.head_append
      rw [List.nil_append] at htake
      simp [htake, hlength]

/-- No number is written with the letter of the unit. -/
theorem unit_notMem_text {unit : Char} (hunit : unit = 's' ∨ unit = 'S') (x : Binary64)
    (f : NumberFormat) : unit ∉ (x.text f).toList := by
  by_cases hfinite : x.isFinite = true
  · intro hmem
    have hnumber := isNumberChar_text hfinite f unit hmem
    rcases hunit with rfl | rfl
    · exact absurd hnumber (by decide)
    · exact absurd hnumber (by decide)
  · have hall : ∀ t ∈ ["NaN", "-Inf", "+Inf"], 's' ∉ t.toList ∧ 'S' ∉ t.toList := by decide
    have hspecial : x.text f ∈ ["NaN", "-Inf", "+Inf"] := by
      simp only [Binary64.text]
      split
      · simp
      split
      · split <;> simp
      · simp only [Binary64.isFinite, Binary64.isInfinite, Binary64.isNaN, decide_eq_true_eq,
          beq_iff_eq] at *
        omega
    rcases hunit with rfl | rfl
    · exact (hall _ hspecial).1
    · exact (hall _ hspecial).2

/-- As rules compare it, a value ends in the unit if it is written with the unit in either letter case. -/
theorem literal_eq_append_iff (hts : ∀ c ∈ ts, c.toNat < 0x41) : e.literal.toList = ts ++ ['s'] ↔
    ∃ unit, (unit = 's' ∨ unit = 'S') ∧ e.text.toList = ts ++ [unit] := by
  have hlower : (Text.lower e.text).toList = ts ++ ['s'] ↔
      ∃ unit, (unit = 's' ∨ unit = 'S') ∧ e.text.toList = ts ++ [unit] := by
    have hascii : ∀ c ∈ ts ++ ['s'], c.toNat < 0x80 ∧ c ≠ 'i' ∧ c ≠ 'k' := by
      rw [List.forall_mem_append]
      exact ⟨fun c hc => Text.no_letter (hts c hc), List.forall_mem_singleton.2 (by decide)⟩
    rw [Text.toList_lower_eq_iff hascii, List.map_eq_append_iff]
    constructor
    · rintro ⟨as, bs, htext, has, hbs⟩
      obtain ⟨unit, rfl, hunit⟩ := List.map_eq_singleton_iff.1 hbs
      obtain rfl := (Text.map_lowerChar_eq_iff hts).1 has
      exact ⟨unit, Text.lowerChar_eq_s_iff.1 hunit, htext⟩
    · rintro ⟨unit, hunit, htext⟩
      exact ⟨ts, [unit], htext, (Text.map_lowerChar_eq_iff hts).2 rfl,
        congrArg ([·]) (Text.lowerChar_eq_s_iff.2 hunit)⟩
  -- a number is compared as it is written, anything else in lower case
  cases e with
  | number span x =>
    have hnone {unit : Char} (hunit : unit = 's' ∨ unit = 'S') :
        (Expr.number span x).text.toList ≠ ts ++ [unit] := fun h =>
      unit_notMem_text hunit x .plain (show unit ∈ (Expr.number span x).text.toList by simp [h])
    exact iff_of_false (hnone (.inl rfl)) fun ⟨unit, hunit, h⟩ => hnone hunit h
  | _ => exact hlower

/-- A period is found in what rules compare exactly if the value is written as one. -/
theorem periodSeconds?_literal_iff : periodSeconds? e.literal = some seconds ↔
    IsNumeral seconds.toList ∧ ∃ fs part unit, Fraction fs part ∧ (unit = 's' ∨ unit = 'S') ∧
      e.text.toList = seconds.toList ++ (fs ++ [unit]) := by
  rw [periodSeconds?_eq_some_iff]
  refine and_congr_right fun hds => exists_congr fun fs => exists_congr fun part => ?_
  simp only [← List.append_assoc, exists_and_left]
  refine and_congr_right fun hfs => literal_eq_append_iff ?_
  rw [List.forall_mem_append]
  exact ⟨hds.toNat_lt, hfs.toNat_lt⟩

/-- The whole seconds of a value that is written as a period are those that are found. -/
theorem lasts_floor_iff : (∃ x, Lasts e.text.toList x ∧ ⌊x⌋ = n) ↔
    ∃ seconds, periodSeconds? e.literal = some seconds ∧
      n = Nat.ofDigitChars 10 seconds.toList 0 := by
  simp only [periodSeconds?_literal_iff]
  constructor
  · rintro ⟨x, ⟨ds, fs, part, unit, hds, hfs, hunit, htext, rfl⟩, rfl⟩
    refine ⟨String.ofList ds, ?_⟩
    rw [String.toList_ofList]
    exact ⟨⟨hds, fs, part, unit, hfs, hunit, htext⟩, hfs.floor_add _⟩
  · rintro ⟨seconds, ⟨hds, fs, part, unit, hfs, hunit, htext⟩, rfl⟩
    exact ⟨_, ⟨_, fs, part, unit, hds, hfs, hunit, htext, rfl⟩, hfs.floor_add _⟩

/-- A period is judged by its whole seconds, also if no integer of 64 bits can hold them. -/
theorem isLongRotation_of_some (h : periodSeconds? t = some seconds) :
    isLongRotation t = true ↔ maxRotation < Nat.ofDigitChars 10 seconds.toList 0 := by
  have hds := (periodSeconds?_eq_some_iff.1 h).1
  rw [isLongRotation, h, Option.map_some]
  cases hread : parseInteger seconds with
  | ok m =>
    obtain rfl := hds.spells_iff.1 (parseInteger_eq_ok_iff.1 hread).1
    exact decide_eq_true_iff
  | error =>
    -- the digits are no integer of 64 bits, so there are more seconds than these hold
    refine iff_of_true rfl ?_
    have hmax : maxRotation = 7776000 := rfl
    by_contra hsmall
    have hint64 : SpellsInt64 seconds (Nat.ofDigitChars 10 seconds.toList 0) :=
      ⟨.digits hds, by omega, by omega⟩
    rw [parseInteger_eq_ok_iff.2 hint64] at hread
    cases hread

/-- A value is too long a period exactly if it is not written as a period, or as one with more whole
seconds than ninety days have. -/
theorem isLongRotation_literal_iff : isLongRotation e.literal = true ↔
    (¬∃ x, Lasts e.text.toList x) ∨ ∃ x, Lasts e.text.toList x ∧ maxRotation < ⌊x⌋ := by
  cases hread : periodSeconds? e.literal with
  | none =>
    have hnone : ¬∃ x, Lasts e.text.toList x := by
      rintro ⟨x, hx⟩
      obtain ⟨seconds, hseconds, -⟩ := lasts_floor_iff.1 ⟨x, hx, rfl⟩
      rw [hread] at hseconds
      cases hseconds
    refine iff_of_true ?_ (.inl hnone)
    rw [isLongRotation, hread]
    rfl
  | some seconds =>
    have hfloor {x : ℚ} (hx : Lasts e.text.toList x) :
        ⌊x⌋ = Nat.ofDigitChars 10 seconds.toList 0 := by
      obtain ⟨seconds', hread', hn⟩ := lasts_floor_iff.1 ⟨x, hx, rfl⟩
      cases hread.symm.trans hread'
      exact hn
    obtain ⟨x, hx, -⟩ := lasts_floor_iff.2 ⟨seconds, hread, rfl⟩
    rw [isLongRotation_of_some hread]
    constructor
    · exact fun h => .inr ⟨x, hx, by rwa [hfloor hx]⟩
    · rintro (hnone | ⟨y, hy, hlong⟩)
      · exact absurd ⟨x, hx⟩ hnone
      · rwa [hfloor hy] at hlong

end

/-! ## Keys -/

/-- The type of the keys with a period of rotation. -/
def keyType : String := "resource.google_kms_crypto_key"

/-- The attribute is a period of rotation that is written out. -/
structure IsRotation (p : Pair) : Prop where
  name_eq : p.name = "rotation_period"
  present : p.value.isAbsent = false
  noVariable : p.hasVariable = false

/-- Is the attribute a period of rotation that is too long? -/
def isOverdue (p : Pair) : Bool :=
  !p.value.isAbsent && !p.hasVariable && (p.name == "rotation_period" && isLongRotation p.value.literal)

section
variable {config : Config} {c : Context} {r : Resource} {path : String} {p : Pair}

/-- Nothing of a key is looked at but its periods of rotation. -/
theorem keyManagement_eq (htype : r.type = keyType) : keyManagement config c r path =
    some (((attributesOf r).filter fun x => isOverdue x.1).map
      fun x => Finding.of "sec_key_management" (.pair x.1) path) := by
  have hkey (key : String) : isProviderKey keyType key = false := rfl
  have haccount : (keyType == "resource.azurerm_storage_account") = false := rfl
  have hself : (keyType == "resource.google_kms_crypto_key") = true := rfl
  simp only [keyManagement, htype, haccount, hself, hkey, isOverdue]
  simp [List.filter_map, Function.comp_def]

/-- An attribute is overdue if it is a period of rotation and is not written as a period, or as one with
more whole seconds than ninety days have. -/
theorem isOverdue_iff : isOverdue p = true ↔ IsRotation p ∧
    ((¬∃ x, Lasts p.value.text.toList x) ∨ ∃ x, Lasts p.value.text.toList x ∧ 7776000 < ⌊x⌋) := by
  have hlong := isLongRotation_literal_iff (e := p.value)
  simp only [isOverdue, Bool.and_eq_true, Bool.not_eq_true', beq_iff_eq, hlong]
  constructor
  · rintro ⟨⟨hpresent, hvariable⟩, hname, h⟩
    exact ⟨⟨hname, hpresent, hvariable⟩, h⟩
  · rintro ⟨⟨hname, hpresent, hvariable⟩, h⟩
    exact ⟨⟨hpresent, hvariable⟩, hname, h⟩

/-- The check of keys reports, once and in their order, exactly the periods of rotation that are not
written as a period or that have more whole seconds than ninety days. Where the rules of the table only
ask that there is a period, this is all that is reported of periods. -/
theorem rotation_periods_judged (config : Config) (c : Context) (path : String)
    (htype : r.type = keyType) : ∃ (overdue : List Place) (findings : List Finding),
    keyManagement config c r path = some findings ∧
    List.Forall₂ (Shows "sec_key_management" path r) (overdue.map .pair) findings ∧
    overdue.Pairwise (· < ·) ∧
    (∀ place, place ∈ overdue ↔ ∃ p parent, attributeAt? r place = some (p, parent) ∧ IsRotation p ∧
      ((¬∃ x, Lasts p.value.text.toList x) ∨
        ∃ x, Lasts p.value.text.toList x ∧ 7776000 < ⌊x⌋)) ∧
    (∃ registration ∈ checkers, registration.name = "terraform-key-management" ∧
      registration.check config c (.resource r) path =
        some (evaluate "sec_key_management" config.policy.keyManagement r path ++ findings)) ∧
    ((∀ rule ∈ config.policy.keyManagement, rule.attr = "rotation_period" →
        acceptsAll rule = true ∧ rule.requirement ≠ .forbidden) →
      ∀ place p parent, attributeAt? r place = some (p, parent) → p.name = "rotation_period" →
        .pair place ∉ reports config.policy.keyManagement r) := by
  refine ⟨placesWhere (fun x => isOverdue x.1) r, _, keyManagement_eq htype,
    shows_where _ path r _, placesWhere_increasing _ r, fun place => ?_, ?_, ?_⟩
  · simp only [mem_placesWhere, isOverdue_iff]
  · refine ⟨table "key-management" "sec_key_management" (·.keyManagement) keyManagement, ?_, rfl,
      check_table (keyManagement_eq htype)⟩
    simp [checkers]
  · intro hrules place p parent hp hname
    exact notMem_reports hp fun rule hrule hattr => hrules rule hrule (hattr.trans hname)

end

/-- A key with these periods of rotation. -/
def keyWith (periods : List String) : Resource where
  span := .nowhere
  name := .string .nowhere "k"
  type := keyType
  attributes := periods.map fun period =>
    ⟨.nowhere, .attr, "rotation_period", .string .nowhere period, false, []⟩
  statements := []

/-- Ninety days are short enough, in whatever letter case; a second more, no period at all and a number
of seconds that no integer of 64 bits can hold are not. -/
theorem rotation_periods_judged_key :
    let r := keyWith ["7776000S", "7776001.5s", "90d", "99999999999999999999s"]
    ∃ (overdue : List Place) (findings : List Finding),
      keyManagement (.builtIn .terraform) default r "a.tf" = some findings ∧
      List.Forall₂ (Shows "sec_key_management" "a.tf" r) (overdue.map .pair) findings ∧
      ([0] ∉ overdue ∧ [1] ∈ overdue ∧ [2] ∈ overdue ∧ [3] ∈ overdue) ∧
      .pair [0] ∉ reports (Config.builtIn .terraform).policy.keyManagement r := by
  intro r
  obtain ⟨overdue, findings, hfindings, hshows, -, hoverdue, -, htable⟩ :=
    rotation_periods_judged (r := r) (.builtIn .terraform) default "a.tf" rfl
  simp only [← isOverdue_iff] at hoverdue
  refine ⟨overdue, findings, hfindings, hshows, ⟨?_, ?_, ?_, ?_⟩, ?_⟩
  · intro hmem
    obtain ⟨p, parent, hp, hlong⟩ := (hoverdue [0]).1 hmem
    cases hp
    revert hlong
    decide +kernel
  · exact (hoverdue [1]).2 ⟨_, _, rfl, by decide +kernel⟩
  · exact (hoverdue [2]).2 ⟨_, _, rfl, by decide +kernel⟩
  · exact (hoverdue [3]).2 ⟨_, _, rfl, by decide +kernel⟩
  · exact htable (by decide +kernel) [0] _ _ rfl rfl

/-- Half a second more than ninety days is a period of more than ninety days, and yet neither the check
of keys nor the built-in table reports it. -/
theorem half_second_missed :
    let r := keyWith ["7776000.5s"]
    (∃ p parent x, attributeAt? r [0] = some (p, parent) ∧ IsRotation p ∧
      Lasts p.value.text.toList x ∧ 7776000 < x) ∧
    keyManagement (.builtIn .terraform) default r "a.tf" = some [] ∧
    evaluate "sec_key_management" (Config.builtIn .terraform).policy.keyManagement r "a.tf" = [] := by
  intro r
  have hwhole : Nat.ofDigitChars 10 "7776000".toList 0 = 7776000 := by decide
  have hpart : Nat.ofDigitChars 10 ['5'] 0 = 5 := rfl
  have hplaces : Fraction ".5".toList (Nat.ofDigitChars 10 ['5'] 0 / 10 ^ 1) :=
    .places (List.forall_mem_singleton.2 rfl) (by decide)
  have hlasts : Lasts "7776000.5s".toList (7776000 + 5 / 10) := by
    refine ⟨"7776000".toList, ".5".toList, _, 's', by decide, hplaces, .inl rfl, rfl, ?_⟩
    rw [hwhole, hpart]
    norm_num
  refine ⟨⟨_, _, _, rfl, ⟨rfl, rfl, rfl⟩, hlasts, by norm_num⟩, ?_, ?_⟩
  · decide +kernel
  · decide +kernel

end InfraSmells.Policy
