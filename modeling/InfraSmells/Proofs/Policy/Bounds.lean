import InfraSmells.Config.Lists
import InfraSmells.Proofs.Decimal.Integer
import InfraSmells.Proofs.Failing
import InfraSmells.Proofs.Policy.Judged
import InfraSmells.Tree.Traversal

/-!
# Bounds of rules

A rule with a bound takes it from its first value, and the judgement of values reads it anew each time,
without a way to tell that there is none. That is safe because a rule is only read from a configuration
if its first value spells an integer of 64 bits (`Lists.exists_bound`). A text is then rejected exactly
if it spells no such integer or one beyond the bound (`Policy.bound_decides`).
-/

namespace InfraSmells

namespace Lists

/-! ## Rules that are read -/

/-- Every element of the result comes from an element and its index. -/
theorem exists_of_mem_mapIndexed {α β ε : Type} {f : Nat → α → Except ε β} {y : β} :
    ∀ {xs : List α} {i : Nat} {ys : List β}, mapIndexed f i xs = .ok ys → y ∈ ys →
      ∃ j x, f j x = .ok y
  | [], _, _, h, hy => by
    cases h
    cases hy
  | x :: xs, i, ys, h, hy => by
    obtain ⟨z, hz, h⟩ := bind_eq_ok.1 h
    obtain ⟨zs, hzs, h⟩ := bind_eq_ok.1 h
    cases h
    rcases List.mem_cons.1 hy with rfl | hy
    · exact ⟨i, x, hz⟩
    · exact exists_of_mem_mapIndexed hzs hy

/-- A bound that passes its check is an integer of 64 bits. -/
theorem exists_of_checkBound {i : Nat} {c : Comparison} {values : List String}
    (h : checkBound i c values = .ok ()) (hc : c = .atLeast ∨ c = .atMost) :
    ∃ v rest bound, values = v :: rest ∧ SpellsInt64 v bound := by
  cases values with
  | nil => rcases hc with rfl | rfl <;> cases h
  | cons v rest =>
    cases hv : parseInteger v with
    | error e => rcases hc with rfl | rfl <;> simp [checkBound, hv] at h
    | ok bound => exact ⟨v, rest, bound, rfl, parseInteger_eq_ok_iff.1 hv⟩

/-- A rule that is made of its written members has passed the check of its bound. -/
theorem checkBound_of_rule {i : Nat} {r : RuleText} {rule : PolicyRule}
    (h : RuleText.rule? i r = .ok rule) : checkBound i rule.comparison rule.values = .ok () := by
  unfold RuleText.rule? at h
  split at h
  · split at h
    · obtain ⟨_, hbound, h⟩ := bind_eq_ok.1 h
      cases h
      exact hbound
    · cases h
  · cases h

/-- The first value of a rule that is read and compares integers spells one of 64 bits. -/
theorem exists_bound {d : Datum} {rules : List PolicyRule} (h : readRules d = .ok rules)
    {rule : PolicyRule} (hrule : rule ∈ rules)
    (hbounded : rule.comparison = .atLeast ∨ rule.comparison = .atMost) :
    ∃ v rest bound, rule.values = v :: rest ∧ SpellsInt64 v bound := by
  obtain ⟨items, -, hitems⟩ := bind_eq_ok.1 h
  obtain ⟨i, r, hr⟩ := exists_of_mem_mapIndexed hitems hrule
  exact exists_of_checkBound (checkBound_of_rule hr) hbounded

end Lists

namespace Policy

variable {rule : PolicyRule} {r : Resource} {p : Pair} {parent v text : String}
  {rest : List String} {bound : Int}

/-! ## Values that are judged -/

/-- A text is refused if it spells no integer of 64 bits, or one that is not within the bound. -/
theorem not_isWithin_iff {accepts : Int → Int → Bool} (hvalues : rule.values = v :: rest)
    (hbound : SpellsInt64 v bound) : isWithin accepts rule text = false ↔
      (¬∃ n, SpellsInt64 text n) ∨ ∃ n, SpellsInt64 text n ∧ accepts n bound = false := by
  simp only [← parseInteger_eq_ok_iff] at hbound ⊢
  rw [isWithin, hvalues, List.head?_cons, Option.map_some, hbound]
  cases parseInteger text with
  | ok n => simp
  | error e => simp

/-- A string without variables is judged by the comparison alone if the rule names a value that it asks
for. -/
theorem rejects_string (hvalues : rule.values = v :: rest) (hv : v ≠ "")
    (hany : anyNotEmpty ∉ rule.values) {span : Span} (hvalue : p.value = .string span text)
    (hvariable : p.hasVariable = false) : rejects rule p = !satisfies rule (Text.lower text) := by
  have haccepts : acceptsAll rule = false := by
    rw [acceptsAll, hvalues]
    simp [hv]
  have hcontains : rule.values.contains anyNotEmpty = false := by simpa using hany
  rw [rejects, hvalue, haccepts, hcontains, hvariable]
  rfl

/-- Wherever a rule that is read from a configuration compares integers, its first value spells an integer
of 64 bits, and a string violates the rule exactly if it spells no such integer or one that is smaller,
or greater, than that. -/
theorem bound_decides {d : Datum} {rules : List PolicyRule} (hread : Lists.readRules d = .ok rules)
    (hrule : rule ∈ rules) (hbounded : rule.comparison = .atLeast ∨ rule.comparison = .atMost)
    (hany : anyNotEmpty ∉ rule.values) (happlies : appliesTo rule r = true)
    (hname : p.name = rule.attr) (hcovers : coversBlock rule parent = true) {span : Span}
    (hvalue : p.value = .string span text) (hvariable : p.hasVariable = false) :
    ∃ v rest bound, rule.values = v :: rest ∧ SpellsInt64 v bound ∧
      (rule.comparison = .atLeast → (violates rule r p parent = true ↔
        (¬∃ n, SpellsInt64 text n) ∨ ∃ n, SpellsInt64 text n ∧ n < bound)) ∧
      (rule.comparison = .atMost → (violates rule r p parent = true ↔
        (¬∃ n, SpellsInt64 text n) ∨ ∃ n, SpellsInt64 text n ∧ bound < n)) := by
  obtain ⟨v, rest, bound, hvalues, hbound⟩ := Lists.exists_bound hread hrule hbounded
  have hv : v ≠ "" := by
    rintro rfl
    exact absurd hbound (by rw [← parseInteger_eq_ok_iff]; exact nofun)
  have hjudged : violates rule r p parent = !satisfies rule (Text.lower text) := by
    rw [violates_eq happlies hname, hcovers, Bool.true_and,
      rejects_string hvalues hv hany hvalue hvariable]
  refine ⟨v, rest, bound, hvalues, hbound, fun hleast => ?_, fun hmost => ?_⟩
  · rw [hjudged, Bool.not_eq_true', satisfies, hleast, not_isWithin_iff hvalues hbound]
    simp only [SpellsInt64.lower_iff, decide_eq_false_iff_not, Int.not_le]
  · rw [hjudged, Bool.not_eq_true', satisfies, hmost, not_isWithin_iff hvalues hbound]
    simp only [SpellsInt64.lower_iff, decide_eq_false_iff_not, Int.not_le]

/-- Of four passwords, the first is long enough, the second too short, and of the others one has a length
that 64 bits do not hold and one has none. -/
theorem bound_decides_password_length :
    let members : List (String × Datum) := [("attribute", .text "min_len"),
      ("au_type", .list [.text "resource.p"]), ("logic", .text "gte"), ("values", .list [.text "+14"])]
    let rule : PolicyRule :=
      { types := ["resource.p"]
        attr := "min_len"
        values := ["+14"]
        comparison := .atLeast }
    let resource : Resource := ⟨.nowhere, .absent, "resource.p", [], []⟩
    let pair (text : String) : Pair := .ofValue .attr "min_len" (.string .nowhere text) .nowhere
    Lists.readRules (.list [.table members]) = .ok [rule] ∧
      violates rule resource (pair "0014") "" = false ∧ violates rule resource (pair "-20") "" = true ∧
      violates rule resource (pair "9223372036854775808") "" = true ∧
      violates rule resource (pair "long") "" = true := by
  intro members rule resource pair
  have hread : Lists.readRules (.list [.table members]) = .ok [rule] := by decide +kernel
  have hjudged (text : String) : violates rule resource (pair text) "" = true ↔
      (¬∃ n, parseInteger text = .ok n) ∨ ∃ n, parseInteger text = .ok n ∧ n < 14 := by
    obtain ⟨v, rest, bound, hvalues, hbound, hleast, -⟩ := bound_decides (r := resource)
      (p := pair text) hread (List.mem_singleton_self rule) (.inl rfl) (by decide) (by decide) rfl
      (show coversBlock rule "" = true by decide) rfl rfl
    cases hvalues
    obtain rfl : 14 = bound :=
      Except.ok.inj ((by decide : parseInteger "+14" = .ok 14).symm.trans (parseInteger_eq_ok_iff.2 hbound))
    simpa only [parseInteger_eq_ok_iff] using hleast rfl
  have hlong : parseInteger "0014" = .ok 14 := rfl
  have hshort : parseInteger "-20" = .ok (-20) := rfl
  have hlarge : parseInteger "9223372036854775808" = .error (.range "9223372036854775808") := rfl
  have hword : parseInteger "long" = .error (.malformed "long") := rfl
  rw [Bool.eq_false_iff, ne_eq, hjudged, hjudged, hjudged, hjudged, hlong, hshort, hlarge, hword]
  simp [hread]

end Policy

end InfraSmells
