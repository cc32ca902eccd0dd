import InfraSmells.Document.Record
import InfraSmells.Proofs.Datum.Json
import InfraSmells.Proofs.Text.Case

/-!
# JSON in lower case

A JSON text in lower case is the text of the data in lower case (`Json.lowers_write`): a character is
written as it is or as an escape that stays, and a character in lower case is written in the same
way (`Json.writeChar_lowerChar`); words and numbers have no capitals. So such a text is read as the
data in lower case, but for the form of their numbers (`Datum.ofJson?_lower_write`).
-/

namespace InfraSmells

/-! ## Numbers -/

/-- The characters of written numbers. -/
def isNumberChar (c : Char) : Bool :=
  Text.isDigit c || c == '-' || c == '+' || c == '.' || c == 'e'

/-- The characters of written numbers belong to ASCII and are no capitals. -/
theorem lowerChar_of_isNumberChar {c : Char} (h : isNumberChar c = true) :
    c.toNat < 0x80 ∧ Text.lowerChar c = c := by
  simp only [isNumberChar, Bool.or_eq_true, beq_iff_eq] at h
  rcases h with (((h | rfl) | rfl) | rfl) | rfl
  · have hlow := Json.toNat_lt_of_isDigit h
    refine ⟨hlow, ?_⟩
    simp only [Text.isDigit, Bool.and_eq_true, decide_eq_true_eq, Char.le_def,
      UInt32.le_iff_toNat_le] at h
    have hnine : c.val.toNat ≤ 57 := h.2
    rw [Text.lowerChar, if_pos hlow, if_neg]
    simp only [Bool.and_eq_true, decide_eq_true_eq, Char.le_def, UInt32.le_iff_toNat_le, not_and]
    intro (hcapital : 65 ≤ c.val.toNat)
    omega
  all_goals decide

/-- A positional number holds digits and a point. -/
theorem isNumberChar_positional (s : Scaled) :
    ∀ c ∈ s.positional.toList, isNumberChar c = true := by
  have hdigit {c : Char} (h : Text.isDigit c = true) : isNumberChar c = true := by
    simp [isNumberChar, h]
  have hzeros {n : Nat} {c : Char} (h : c ∈ List.replicate n '0') : isNumberChar c = true := by
    rw [(List.mem_replicate.1 h).2]
    decide
  have hdigits {c : Char} (h : c ∈ Nat.toDigits 10 s.digits) : isNumberChar c = true :=
    hdigit (Json.isDigit_of_mem_toDigits h)
  intro c hc
  unfold Scaled.positional at hc
  dsimp only at hc
  split at hc
  · rw [String.toList_ofList, List.mem_append] at hc
    exact hc.elim hdigits hzeros
  · have hpadded : c ∈ List.replicate ((-s.exponent).toNat + 1 -
        (Nat.toDigits 10 s.digits).length) '0' ++ Nat.toDigits 10 s.digits → isNumberChar c = true :=
      fun h => (List.mem_append.1 h).elim hzeros hdigits
    rw [String.toList_ofList, List.mem_append, List.mem_cons] at hc
    rcases hc with hc | rfl | hc
    · exact hpadded (List.mem_of_mem_take hc)
    · decide
    · exact hpadded (List.mem_of_mem_drop hc)

/-- A number with an exponent holds digits, a point, a sign and the letter before the exponent. -/
theorem isNumberChar_scientific (s : Scaled) (width : Nat) :
    ∀ c ∈ (s.scientific width).toList, isNumberChar c = true := by
  have hdigits {n : Nat} {c : Char} (h : c ∈ Nat.toDigits 10 n) : isNumberChar c = true := by
    simp [isNumberChar, Json.isDigit_of_mem_toDigits h]
  intro c hc
  unfold Scaled.scientific at hc
  dsimp only at hc
  rw [String.toList_ofList, List.mem_append, List.mem_cons, List.mem_cons, List.mem_append] at hc
  rcases hc with hc | rfl | rfl | hc | hc
  · split at hc
    · cases hc
    · next d hds => exact hdigits (hds ▸ hc)
    · next d ds _ hds =>
      rcases List.mem_cons.1 hc with rfl | hc
      · exact hdigits (hds ▸ List.mem_cons_self)
      rcases List.mem_cons.1 hc with rfl | hc
      · decide
      · exact hdigits (hds ▸ List.mem_cons_of_mem d hc)
  · decide
  · split <;> decide
  · rw [(List.mem_replicate.1 hc).2]
    decide
  · exact hdigits hc

/-- The text of a finite number holds the characters of numbers. -/
theorem isNumberChar_text {x : Binary64} (hfinite : x.isFinite = true) (f : NumberFormat) :
    ∀ c ∈ (x.text f).toList, isNumberChar c = true := by
  have hsign : ∀ {negative : Bool} {t : String}, (∀ c ∈ t.toList, isNumberChar c = true) →
      ∀ c ∈ ((if negative then "-" else "") ++ t).toList, isNumberChar c = true := by
    intro negative t ht c hc
    rw [String.toList_append, List.mem_append] at hc
    rcases hc with hc | hc
    · cases negative with
      | true => exact List.mem_singleton.1 hc ▸ (by decide : isNumberChar '-' = true)
      | false => cases hc
    · exact ht c hc
  rw [Binary64.text_of_isFinite hfinite, NumberFormat.layOut]
  split
  · exact hsign (isNumberChar_positional _)
  · split
    · exact hsign (isNumberChar_positional _)
    · exact hsign (isNumberChar_scientific _ _)

/-- The text of a finite number stays as it is in lower case. -/
theorem lowers_text {x : Binary64} (hfinite : x.isFinite = true) (f : NumberFormat) :
    Text.Lowers (x.text f) (x.text f) :=
  Text.lowers_self fun c hc => lowerChar_of_isNumberChar (isNumberChar_text hfinite f c hc)

/-! ## Values -/

namespace Datum

mutual

/-- The datum is a value that JSON can write: every number in it is a finite floating-point number.
-/
def IsValue : Datum → Prop
  | .null | .flag _ | .text _ => True
  | .number (.float x) => x.isFinite = true
  | .list xs => ItemsValue xs
  | .table ms => MembersValue ms
  | .number (.integer _) | .number (.decimal ..) | .number (.single _) | .bytes _ | .instant _
  | .tables _ | .other => False

/-- `IsValue` of every item. -/
def ItemsValue : List Datum → Prop
  | [] => True
  | d :: ds => d.IsValue ∧ ItemsValue ds

/-- `IsValue` of every member. -/
def MembersValue : List (String × Datum) → Prop
  | [] => True
  | (_, d) :: ms => d.IsValue ∧ MembersValue ms

end

mutual

/-- A value in lower case can be written. -/
theorem isWritten_lowered : ∀ {d : Datum}, d.IsValue → (d.withTexts Text.lower).IsWritten
  | .null, _ | .flag _, _ => trivial
  | .text _, _ => ⟨_, rfl⟩
  | .number (.float _), h => h
  | .list _, h => itemsWritten_lowered h
  | .table _, h => membersWritten_lowered h

/-- Values in lower case can be written. -/
theorem itemsWritten_lowered : ∀ {ds : List Datum}, ItemsValue ds →
    ItemsWritten (withTextsItems Text.lower ds)
  | [], _ => trivial
  | _ :: _, h => ⟨isWritten_lowered h.1, itemsWritten_lowered h.2⟩

/-- Members in lower case can be written. -/
theorem membersWritten_lowered : ∀ {ms : List (String × Datum)}, MembersValue ms →
    MembersWritten (withTextsMembers Text.lower ms)
  | [], _ => trivial
  | (_, _) :: _, h => ⟨⟨_, rfl⟩, isWritten_lowered h.1, membersWritten_lowered h.2⟩

end

mutual

/-- A value that is read back can be represented. -/
theorem isRepresentable_reread : ∀ {d : Datum}, d.IsValue →
    ((d.withTexts Text.lower).withNumbers Json.reread).isRepresentable = true
  | .null, _ | .flag _, _ | .text _, _ => rfl
  | .number (.float x), h => by
    show ((Json.reread (.float x)).toBinary64?).isSome = true
    rw [Json.toBinary64?_reread h]
    rfl
  | .list _, h => allRepresentable_reread h
  | .table _, h => membersRepresentable_reread h

/-- Values that are read back can be represented. -/
theorem allRepresentable_reread : ∀ {ds : List Datum}, ItemsValue ds →
    allRepresentable (withNumbersItems Json.reread (withTextsItems Text.lower ds)) = true
  | [], _ => rfl
  | _ :: _, h => by
    rw [withTextsItems, withNumbersItems, allRepresentable, isRepresentable_reread h.1,
      allRepresentable_reread h.2]
    rfl

/-- Members that are read back can be represented. -/
theorem membersRepresentable_reread : ∀ {ms : List (String × Datum)}, MembersValue ms →
    membersRepresentable (withNumbersMembers Json.reread (withTextsMembers Text.lower ms)) = true
  | [], _ => rfl
  | (_, _) :: _, h => by
    rw [withTextsMembers, withNumbersMembers, membersRepresentable, isRepresentable_reread h.1,
      membersRepresentable_reread h.2]
    rfl

end

end Datum

/-! ## Written values -/

namespace Json

/-- A character behind the marks of ASCII is written as it is, unless it separates lines. -/
theorem writeChar_behind {c : Char} (h : 0x5C < c.toNat) (h₁ : c.toNat ≠ 0x2028)
    (h₂ : c.toNat ≠ 0x2029) : writeChar c = [c] := by
  have hne {d : Char} (hd : d.toNat ≤ 0x5C) : c ≠ d := by
    rintro rfl
    omega
  unfold writeChar
  split
  · exact absurd rfl (hne (by decide))
  · exact absurd rfl (hne (by decide))
  · exact absurd rfl (hne (by decide))
  · exact absurd rfl (hne (by decide))
  · exact absurd rfl (hne (by decide))
  · rw [if_neg (by simp; omega), if_neg (by simp; omega), if_neg]
    simp only [Bool.or_eq_true, decide_eq_true_eq, beq_iff_eq, not_or]
    exact ⟨⟨⟨⟨⟨by omega, hne (by decide)⟩, hne (by decide)⟩, hne (by decide)⟩, h₁⟩, h₂⟩

/-- Characters of ASCII are written in lower case as in their own. -/
theorem writeChar_lowerChar_ascii : ∀ n < 0x80,
    writeChar (Text.lowerChar (Char.ofNat n)) = (writeChar (Char.ofNat n)).map Text.lowerChar := by
  decide +kernel

/-- A character in lower case is written as it was written, in lower case. -/
theorem writeChar_lowerChar (c : Char) :
    writeChar (Text.lowerChar c) = (writeChar c).map Text.lowerChar := by
  by_cases hascii : c.toNat < 0x80
  · have h := writeChar_lowerChar_ascii c.toNat hascii
    rwa [Char.ofNat_toNat] at h
  have hself {d : Char} {n : Nat} (h : d.toNat = n) : d = Char.ofNat n := by
    rw [← h, Char.ofNat_toNat]
  rcases Text.lowerChar_cases (Nat.le_of_not_lt hascii) with hsame | ⟨⟨h₁, h₂⟩, hlow, h₃, h₄⟩
  · rw [hsame]
    by_cases h₁ : c.toNat = 0x2028
    · rw [hself h₁]
      decide
    by_cases h₂ : c.toNat = 0x2029
    · rw [hself h₂]
      decide
    rw [writeChar_behind (by omega) h₁ h₂, List.map_singleton, hsame]
  · rw [writeChar_behind (by omega) h₁ h₂, writeChar_behind hlow h₃ h₄, List.map_singleton]

/-- A string in lower case is written as it was written, in lower case. -/
theorem lowers_writeString (s : String) :
    Text.Lowers (writeString s) (writeString (Text.lower s)) := by
  refine ⟨Text.isPlain_ofCharacters _, ?_⟩
  have hquote : Text.lowerChar '"' = '"' := by decide
  rw [writeString, writeString, Text.lower_ofCharacters, Text.characters_lower]
  simp only [List.map_cons, List.map_append, List.map_flatMap, List.flatMap_map, List.map_nil,
    hquote, writeChar_lowerChar]

/-- A line break stays as it is. -/
theorem lowers_newline (n : Nat) : Text.Lowers (newline n) (newline n) := by
  refine Text.lowers_self fun c hc => ?_
  rw [newline, String.toList_ofList, List.mem_cons] at hc
  rcases hc with rfl | hc
  · decide
  · rw [(List.mem_replicate.1 hc).2]
    decide

/-- A row between brackets changes item by item. -/
theorem lowers_bracket {op cl : String} (hop : Text.Lowers op op) (hcl : Text.Lowers cl cl)
    (level : Option Nat) {ws ws' : List String} (h : List.Forall₂ Text.Lowers ws ws') :
    Text.Lowers (bracket op cl level ws) (bracket op cl level ws') := by
  have hcomma : Text.Lowers "," "," := Text.lowers_word (by decide)
  cases h with
  | nil => exact hop.append hcl
  | cons hw hws =>
    cases level with
    | none => exact (hop.append (Text.lowers_join hcomma (.cons hw hws))).append hcl
    | some n =>
      have hrow := Text.lowers_join (hcomma.append (lowers_newline (n + 1))) (.cons hw hws)
      exact (((hop.append (lowers_newline (n + 1))).append hrow).append (lowers_newline n)).append hcl

mutual

/-- A value in lower case is written as it was written, in lower case. -/
theorem lowers_write (level : Option Nat) : ∀ {d : Datum}, d.IsValue →
    Text.Lowers (write level d) (write level (d.withTexts Text.lower))
  | .null, _ => Text.lowers_word (s := "null") (by decide)
  | .flag true, _ => Text.lowers_word (s := "true") (by decide)
  | .flag false, _ => Text.lowers_word (s := "false") (by decide)
  | .text s, _ => lowers_writeString s
  | .number (.float _), h => lowers_text h .document
  | .list _, h => lowers_bracket (Text.lowers_word (by decide)) (Text.lowers_word (by decide)) level
    (lowers_writeItems _ h)
  | .table _, h => lowers_bracket (Text.lowers_word (by decide)) (Text.lowers_word (by decide)) level
    (lowers_writeMembers _ h)

/-- Items in lower case are written as they were written, in lower case. -/
theorem lowers_writeItems (level : Option Nat) : ∀ {ds : List Datum}, Datum.ItemsValue ds →
    List.Forall₂ Text.Lowers (writeItems level ds)
      (writeItems level (Datum.withTextsItems Text.lower ds))
  | [], _ => .nil
  | _ :: _, h => .cons (lowers_write level h.1) (lowers_writeItems level h.2)

/-- Members in lower case are written as they were written, in lower case. -/
theorem lowers_writeMembers (level : Option Nat) : ∀ {ms : List (String × Datum)},
    Datum.MembersValue ms →
    List.Forall₂ Text.Lowers (writeMembers level ms)
      (writeMembers level (Datum.withTextsMembers Text.lower ms))
  | [], _ => .nil
  | (k, _) :: _, h => by
    have hcolon : Text.Lowers (if level.isSome then ": " else ":")
        (if level.isSome then ": " else ":") := by
      split <;> exact Text.lowers_word (by decide)
    exact .cons (((lowers_writeString k).append hcolon).append (lowers_write level h.1))
      (lowers_writeMembers level h.2)

end

end Json

/-- The text of a value, in lower case, is read as the value in lower case, but for the form of its
numbers, if the value is no deeper than a text may be. -/
theorem Datum.ofJson?_lower_write (level : Option Nat) {d : Datum} (hd : d.IsValue)
    (hdepth : d.depth ≤ Json.maxDepth) :
    ofJson? (Text.lower (Json.write level d)) =
      some ((d.withTexts Text.lower).withNumbers Json.reread) := by
  rw [(Json.lowers_write level hd).lower_eq]
  exact (ofJson?_write level (isWritten_lowered hd) (by rwa [depth_withTexts])).2

end InfraSmells
