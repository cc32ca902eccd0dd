import InfraSmells.Proofs.Text.Parts
import InfraSmells.Proofs.Tree.Literals
import InfraSmells.Security.Values

/-!
# Services that listen everywhere

A value is reported for its address if a literal in it begins with the address of every network, behind a
scheme or without one. The dots of this address stand for any character, so that literals which only
resemble it are found as well: identifiers of zeros, versions, numbers (`Security.isAnyAddress_iff`). Apart
from these, the reported pairs are those whose value names the address, a wildcard under a name for it, or
the truth under the name of a command that binds (`Security.binds_everywhere`).
-/

namespace InfraSmells.Security

variable {config : Config}

/-! ## Addresses -/

/-- What may stand before an address: nothing, or one of two schemes. -/
def addressSchemes : List String := ["", "http://", "https://"]

/-- The text begins with the address of every network. -/
def BeginsEverywhere (s : String) : Prop :=
  ∃ scheme ∈ addressSchemes, Text.startsWith s (scheme ++ "0.0.0.0") = true

/-- The text begins like the address of every network, with other characters for some of its dots. -/
def ResemblesEverywhere (s : String) : Prop :=
  ∃ scheme ∈ addressSchemes, ∃ x y z rest,
    Text.characters s = scheme.toList ++ ['0', x, '0', y, '0', z, '0'] ++ rest ∧
      '\n' ∉ [x, y, z] ∧ [x, y, z] ≠ ['.', '.', '.']

instance : DecidablePred BeginsEverywhere := fun s =>
  inferInstanceAs (Decidable (∃ scheme ∈ addressSchemes,
    Text.startsWith s (scheme ++ "0.0.0.0") = true))

/-- Four zeros have any characters of one line between them. -/
theorem isZeros_iff {cs : List Char} : isZeros cs = true ↔
    ∃ x y z rest, cs = ['0', x, '0', y, '0', z, '0'] ++ rest ∧ '\n' ∉ [x, y, z] := by
  constructor
  · intro h
    unfold isZeros at h
    split at h
    · next x y z rest =>
      refine ⟨x, y, z, rest, rfl, ?_⟩
      simp only [Bool.and_eq_true, bne_iff_ne] at h
      simp [h.1.1.symm, h.1.2.symm, h.2.symm]
    · cases h
  · rintro ⟨x, y, z, rest, rfl, hline⟩
    simp only [List.mem_cons, List.not_mem_nil, or_false, not_or] at hline
    simp [isZeros, Ne.symm hline.1, Ne.symm hline.2.1, Ne.symm hline.2.2]

/-- The zeros of an address may stand behind any of the schemes. -/
theorem isAnyAddress_iff_zeros {s : String} : isAnyAddress s = true ↔
    ∃ scheme ∈ addressSchemes, ∃ cs,
      Text.characters s = scheme.toList ++ cs ∧ isZeros cs = true := by
  simp [isAnyAddress, addressSchemes, Text.afterStart_eq_some_iff, Option.any_eq_true]

/-- A text begins with an address exactly if it is seen to. -/
theorem beginsEverywhere_iff {s : String} : BeginsEverywhere s ↔
    ∃ scheme ∈ addressSchemes, ∃ rest,
      Text.characters s = scheme.toList ++ "0.0.0.0".toList ++ rest := by
  have hascii : ∀ scheme ∈ addressSchemes, Text.isAscii (scheme ++ "0.0.0.0") = true := by decide
  refine exists_congr fun scheme => and_congr_right fun hscheme => ?_
  rw [Text.startsWith, Text.beginsWith_iff, ← Text.prefix_characters_iff (hascii scheme hscheme),
    String.toList_append]
  exact exists_congr fun rest => eq_comm

/-- A text is taken for the address of every network if it begins with it or resembles it. -/
theorem isAnyAddress_iff {s : String} :
    isAnyAddress s = true ↔ BeginsEverywhere s ∨ ResemblesEverywhere s := by
  rw [isAnyAddress_iff_zeros, beginsEverywhere_iff]
  constructor
  · rintro ⟨scheme, hscheme, cs, hs, hzeros⟩
    obtain ⟨x, y, z, rest, rfl, hline⟩ := isZeros_iff.1 hzeros
    rw [← List.append_assoc] at hs
    by_cases hdots : [x, y, z] = ['.', '.', '.']
    · cases hdots
      exact .inl ⟨scheme, hscheme, rest, hs⟩
    · exact .inr ⟨scheme, hscheme, x, y, z, rest, hs, hline, hdots⟩
  · rintro (⟨scheme, hscheme, rest, hs⟩ | ⟨scheme, hscheme, x, y, z, rest, hs, hline, -⟩)
    · exact ⟨scheme, hscheme, _, hs.trans (List.append_assoc ..),
        isZeros_iff.2 ⟨'.', '.', '.', rest, rfl, by decide⟩⟩
    · exact ⟨scheme, hscheme, _, hs.trans (List.append_assoc ..),
        isZeros_iff.2 ⟨x, y, z, rest, rfl, hline⟩⟩

/-! ## Pairs -/

/-- The pair lets a service listen everywhere: a string of its value begins with the address of every
network or, under a name for addresses or that of a command that binds, is a wildcard; or such a command
is switched on. -/
def ListensEverywhere (config : Config) (p : Pair) : Prop :=
  (∃ s ∈ p.value.strings, BeginsEverywhere s) ∨
    ((keyName p = "ip" ∨ config.isBindCommand (keyName p) = true) ∧
      ∃ s ∈ p.value.strings, s = "*" ∨ s = "::") ∨
    (config.isBindCommand (keyName p) = true ∧ ∃ span, p.value = .boolean span true)

/-- Some literal is taken for an address if one is an address or one resembles it. -/
theorem matches_isAnyAddress_iff {e : Expr} : e.matchesString isAnyAddress = true ↔
    (∃ s ∈ e.strings, BeginsEverywhere s) ∨ ∃ s ∈ e.strings, ResemblesEverywhere s := by
  simp only [Expr.matchesString_iff, isAnyAddress_iff, and_or_left, exists_or]

/-- Some literal is a wildcard. -/
theorem matches_wildcard_iff {e : Expr} : (e.matchesString fun s => s == "*" || s == "::") = true ↔
    ∃ s ∈ e.strings, s = "*" ∨ s = "::" := by
  simp only [Expr.matchesString_iff, Bool.or_eq_true, beq_iff_eq]

/-- Is the value the truth? -/
def isOn : Expr → Bool
  | .boolean _ b => b
  | _ => false

theorem isOn_iff {e : Expr} : isOn e = true ↔ ∃ span, e = .boolean span true := by
  cases e with
  | boolean span b => simp [isOn]
  | _ => simp [isOn]

/-- The reported pairs are those that let a service listen everywhere, and those with a literal that
resembles the address of every network. -/
theorem binds_everywhere (config : Config) (c : Context) (p : Pair) (path : String) :
    (invalidBind config c (.pair p) path = [Finding.of "sec_invalid_bind" (.pair p) path] ↔
      ListensEverywhere config p ∨ ∃ s ∈ p.value.strings, ResemblesEverywhere s) ∧
    (invalidBind config c (.pair p) path = [] ↔
      ¬(ListensEverywhere config p ∨ ∃ s ∈ p.value.strings, ResemblesEverywhere s)) := by
  have hreported : (p.value.matchesString isAnyAddress ||
        (config.isBindCommand (keyName p) && isOn p.value) ||
        ((keyName p == "ip" || config.isBindCommand (keyName p)) &&
          p.value.matchesString fun s => s == "*" || s == "::")) = true ↔
      ListensEverywhere config p ∨ ∃ s ∈ p.value.strings, ResemblesEverywhere s := by
    simp only [Bool.or_eq_true, Bool.and_eq_true, beq_iff_eq, matches_isAnyAddress_iff,
      matches_wildcard_iff, isOn_iff, ListensEverywhere]
    constructor
    · rintro (((haddress | hresembles) | hswitched) | hwild)
      · exact .inl (.inl haddress)
      · exact .inr hresembles
      · exact .inl (.inr (.inr hswitched))
      · exact .inl (.inr (.inl hwild))
    · rintro ((haddress | hwild | hswitched) | hresembles)
      · exact .inl (.inl (.inl haddress))
      · exact .inr hwild
      · exact .inl (.inr hswitched)
      · exact .inl (.inl (.inr hresembles))
  have hlist (b : Bool) (found : Finding) : ((if b then [found] else []) = [found] ↔ b = true) ∧
      ((if b then [found] else []) = [] ↔ ¬b = true) := by cases b <;> simp
  rw [← hreported]
  exact hlist _ _

/-- An attribute with a text as its value. -/
def textAttribute (name value : String) : Pair :=
  ⟨.nowhere, .attr, name, .string .nowhere value, false, []⟩

/-- The identifier of zeros is the address of no network, and yet a pair with it is reported. -/
theorem zero_identifier_reported :
    let p := textAttribute "id" "00000000-0000-0000-0000-000000000000"
    ¬ListensEverywhere default p ∧
      invalidBind default default (.pair p) "main.tf" =
        [Finding.of "sec_invalid_bind" (.pair p) "main.tf"] := by
  refine ⟨?_, by decide +kernel⟩
  rintro (haddress | ⟨-, hwild⟩ | ⟨-, span, hon⟩)
  · revert haddress
    decide +kernel
  · revert hwild
    decide +kernel
  · cases hon

end InfraSmells.Security
