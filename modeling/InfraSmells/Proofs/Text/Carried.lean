import InfraSmells.Text.Bytes

/-!
# Texts made of characters

A text that comes from characters is read back from its bytes as it was (`Text.ofBytes_toBytes`),
and its reader sees these characters (`Text.characters_ofCharacters`), whether or not reserved
characters are among them. This rests on `Text.firstChar_encode`: a decoder meets the character
that was encoded.
-/

namespace InfraSmells.Text

/-! ## Decoding what was encoded -/

/-- No character lies past the end of Unicode, and none is a surrogate. -/
theorem toNat_char (c : Char) :
    c.toNat ≤ 0x10FFFF ∧ ¬(0xD800 ≤ c.toNat ∧ c.toNat ≤ 0xDFFF) := by
  have h : c.toNat < 0xD800 ∨ 0xDFFF < c.toNat ∧ c.toNat < 0x110000 := c.valid
  omega

/-- The number of a valid character. -/
theorem toNat_ofNat_char {n : Nat} (h : n.isValidChar) : (Char.ofNat n).toNat = n := by
  rw [Char.ofNat, dif_pos h]
  rfl

/-- The continuation bytes are those from `0x80` to `0xBF`. -/
theorem isTail_iff {b : UInt8} : isTail b = true ↔ 0x80 ≤ b.toNat ∧ b.toNat ≤ 0xBF := by
  simp [isTail, UInt8.le_iff_toNat_le]

/-- Is a byte within bounds? -/
theorem between_iff {low high b : UInt8} :
    (low ≤ b && b ≤ high) = true ↔ low.toNat ≤ b.toNat ∧ b.toNat ≤ high.toNat := by
  simp [UInt8.le_iff_toNat_le]

section
variable {a b c d : UInt8} {v : Nat} (rest : List UInt8)

/-- A character of one byte. -/
theorem firstChar_one (ha : a.toNat = v) (hv : v < 0x80) :
    firstChar (a :: rest) = some (Char.ofNat v, 1) := by
  have h₁ : a < 0x80 := by simpa [UInt8.lt_iff_toNat_lt, ha] using hv
  simp only [firstChar, if_pos h₁, ha]

/-- A character of two bytes. -/
theorem firstChar_two (ha : a.toNat = v / 64 + 0xC0) (hb : b.toNat = v % 64 + 0x80)
    (hv : 0x80 ≤ v ∧ v ≤ 0x7FF) : firstChar (a :: b :: rest) = some (Char.ofNat v, 2) := by
  have h₁ : ¬a < 0x80 := by
    simp only [UInt8.lt_iff_toNat_lt, ha, UInt8.reduceToNat]
    omega
  have h₂ : (0xC2 ≤ a && a ≤ 0xDF) = true := by
    simp only [between_iff, ha, UInt8.reduceToNat]
    omega
  have hb' : isTail b = true := isTail_iff.2 (by omega)
  have h : a.toNat % 32 * 64 + tailBits b = v := by
    unfold tailBits
    omega
  simp only [firstChar, if_neg h₁, if_pos h₂, if_pos hb', h]

/-- A byte that begins a character of three or four bytes begins no shorter one. -/
theorem not_short (h : 0xE0 ≤ a.toNat) : ¬a < 0x80 ∧ ¬(0xC2 ≤ a && a ≤ 0xDF) = true := by
  simp only [UInt8.lt_iff_toNat_lt, between_iff, UInt8.reduceToNat]
  omega

/-- A character of three bytes. -/
theorem firstChar_three (ha : a.toNat = v / 4096 + 0xE0) (hb : b.toNat = v / 64 % 64 + 0x80)
    (hc : c.toNat = v % 64 + 0x80) (hv : 0x800 ≤ v ∧ v ≤ 0xFFFF)
    (hs : ¬(0xD800 ≤ v ∧ v ≤ 0xDFFF)) :
    firstChar (a :: b :: c :: rest) = some (Char.ofNat v, 3) := by
  obtain ⟨h₁, h₂⟩ := not_short (a := a) (by omega)
  have h₃ : (0xE0 ≤ a && a ≤ 0xEF) = true := by
    simp only [between_iff, ha, UInt8.reduceToNat]
    omega
  have hb' : isTail b = true := isTail_iff.2 (by omega)
  have hc' : isTail c = true := isTail_iff.2 (by omega)
  have h : (a.toNat % 16 * 64 + tailBits b) * 64 + tailBits c = v := by
    unfold tailBits
    omega
  have hs' : (!(decide (0xD800 ≤ v) && decide (v ≤ 0xDFFF))) = true := by
    rw [← Bool.decide_and, decide_eq_false hs]
    rfl
  simp only [firstChar, if_neg h₁, if_neg h₂, if_pos h₃, h, hb', hc', hs', decide_eq_true hv.1,
    Bool.and_self, if_true]

/-- A character of four bytes. -/
theorem firstChar_four (ha : a.toNat = v / 262144 + 0xF0) (hb : b.toNat = v / 4096 % 64 + 0x80)
    (hc : c.toNat = v / 64 % 64 + 0x80) (hd : d.toNat = v % 64 + 0x80)
    (hv : 0x10000 ≤ v ∧ v ≤ 0x10FFFF) :
    firstChar (a :: b :: c :: d :: rest) = some (Char.ofNat v, 4) := by
  obtain ⟨h₁, h₂⟩ := not_short (a := a) (by omega)
  have h₃ : ¬(0xE0 ≤ a && a ≤ 0xEF) = true := by
    simp only [between_iff, ha, UInt8.reduceToNat]
    omega
  have h₄ : (0xF0 ≤ a && a ≤ 0xF4) = true := by
    simp only [between_iff, ha, UInt8.reduceToNat]
    omega
  have hb' : isTail b = true := isTail_iff.2 (by omega)
  have hc' : isTail c = true := isTail_iff.2 (by omega)
  have hd' : isTail d = true := isTail_iff.2 (by omega)
  have h : ((a.toNat % 8 * 64 + tailBits b) * 64 + tailBits c) * 64 + tailBits d = v := by
    unfold tailBits
    omega
  simp only [firstChar, if_neg h₁, if_neg h₂, if_neg h₃, if_pos h₄, h, hb', hc', hd',
    decide_eq_true hv.1, decide_eq_true hv.2, Bool.and_self, if_true]

end

/-- A small number is the value of its byte. -/
theorem toNat_ofNat_byte {n : Nat} (h : n < 256) : (UInt8.ofNat n).toNat = n := by
  simpa using h

/-- The first character of encoded text is the one that was encoded first. -/
theorem firstChar_encode (c : Char) (rest : List UInt8) :
    firstChar (String.utf8EncodeChar c ++ rest) = some (c, (String.utf8EncodeChar c).length) := by
  have ⟨hle, hs⟩ := toNat_char c
  have hc : Char.ofNat c.toNat = c := Char.ofNat_toNat c
  have hv : c.val.toNat = c.toNat := rfl
  unfold String.utf8EncodeChar
  simp only [hv]
  generalize c.toNat = v at *
  subst hc
  split
  · exact firstChar_one rest (toNat_ofNat_byte (by omega)) (by omega)
  split
  · refine firstChar_two rest ?_ (toNat_ofNat_byte (by omega)) (by omega)
    rw [toNat_ofNat_byte (by omega)]
    omega
  split
  · refine firstChar_three rest ?_ (toNat_ofNat_byte (by omega)) (toNat_ofNat_byte (by omega))
      (by omega) hs
    rw [toNat_ofNat_byte (by omega)]
    omega
  · refine firstChar_four rest ?_ (toNat_ofNat_byte (by omega)) (toNat_ofNat_byte (by omega))
      (toNat_ofNat_byte (by omega)) (by omega)
    rw [toNat_ofNat_byte (by omega)]
    omega

/-- No character begins with a continuation byte. -/
theorem firstChar_tail {b : UInt8} (h : isTail b = true) (rest : List UInt8) :
    firstChar (b :: rest) = none := by
  have ⟨hlow, hhigh⟩ := isTail_iff.1 h
  have h₁ : ¬b < 0x80 := by
    simp only [UInt8.lt_iff_toNat_lt, UInt8.reduceToNat]
    omega
  have hlate (low : UInt8) {high : UInt8} (hl : 0xBF < low.toNat) :
      ¬(low ≤ b && b ≤ high) = true := by
    rw [between_iff]
    omega
  simp only [firstChar, if_neg h₁, if_neg (hlate 0xC2 (by decide)), if_neg (hlate 0xE0 (by decide)),
    if_neg (hlate 0xF0 (by decide))]

/-! ## Reserved characters -/

/-- A byte outside ASCII is carried by a character that stands for this byte. -/
theorem charBytes_stray {b : UInt8} (h : 0x80 ≤ b.toNat) :
    isStray (stray b) = true ∧ charBytes (stray b) = [b] := by
  have hb := b.toNat_lt
  have hval : (stray b).toNat = 0xF1E00 + b.toNat := by
    exact toNat_ofNat_char (.inr ⟨by omega, by omega⟩)
  have hstray : isStray (stray b) = true := by
    simp only [isStray, hval, Bool.and_eq_true, decide_eq_true_eq]
    omega
  refine ⟨hstray, ?_⟩
  rw [charBytes, if_pos hstray, hval, Nat.add_sub_cancel_left, UInt8.ofNat_toNat]

/-- The encoding of a reserved character: a first byte outside ASCII and continuation bytes. -/
theorem encode_stray {c : Char} (h : isStray c = true) :
    ∃ b bs, String.utf8EncodeChar c = b :: bs ∧ 0x80 ≤ b.toNat ∧ ∀ t ∈ bs, isTail t = true := by
  have hv : c.val.toNat = c.toNat := rfl
  simp only [isStray, Bool.and_eq_true, decide_eq_true_eq] at h
  unfold String.utf8EncodeChar
  simp only [hv]
  generalize c.toNat = v at *
  rw [if_neg (by omega), if_neg (by omega), if_neg (by omega)]
  refine ⟨_, _, rfl, ?_, fun t ht => ?_⟩
  · rw [toNat_ofNat_byte (by omega)]
    omega
  · simp only [List.mem_cons, List.not_mem_nil, or_false] at ht
    rcases ht with rfl | rfl | rfl <;>
    · rw [isTail_iff, toNat_ofNat_byte (by omega)]
      omega

/-- The characters that carry a character stand for its encoding. -/
theorem charBytes_carry (c : Char) :
    (carry c).flatMap charBytes = String.utf8EncodeChar c := by
  unfold carry
  split
  · next h =>
    obtain ⟨b, bs, heq, hb, hbs⟩ := encode_stray h
    have hmap (t : UInt8) (ht : t ∈ String.utf8EncodeChar c) : charBytes (stray t) = [t] := by
      rw [heq] at ht
      rcases List.mem_cons.1 ht with rfl | ht
      · exact (charBytes_stray hb).2
      · exact (charBytes_stray (isTail_iff.1 (hbs t ht)).1).2
    rw [List.flatMap_map, List.flatMap_def, List.map_congr_left hmap, ← List.flatMap_def,
      List.flatMap_singleton']
  · next h =>
    rw [List.flatMap_singleton, charBytes, if_neg h]

/-! ## Characters, texts and bytes -/

/-- Bytes that belong to the character before are passed over. -/
theorem carriersFrom_skip (bs rest : List UInt8) :
    carriersFrom bs.length (bs ++ rest) = carriersFrom 0 rest := by
  induction bs with
  | nil => rfl
  | cons b bs ih => exact ih

/-- Continuation bytes without a first byte are carried one by one. -/
theorem carriersFrom_tails {bs : List UInt8} (h : ∀ b ∈ bs, isTail b = true)
    (rest : List UInt8) : carriersFrom 0 (bs ++ rest) = bs.map stray ++ carriersFrom 0 rest := by
  induction bs with
  | nil => rfl
  | cons b bs ih =>
    rw [List.cons_append, carriersFrom, firstChar_tail (h b (.head _)),
      ih fun t ht => h t (.tail _ ht)]
    rfl

/-- An encoded character is read as the characters that carry it. -/
theorem carriersFrom_encode (c : Char) (rest : List UInt8) :
    carriersFrom 0 (String.utf8EncodeChar c ++ rest) = carry c ++ carriersFrom 0 rest := by
  have hfirst := firstChar_encode c rest
  unfold carry
  split
  · next h =>
    obtain ⟨b, bs, heq, -, hbs⟩ := encode_stray h
    rw [heq] at hfirst ⊢
    rw [List.cons_append] at hfirst ⊢
    simp only [carriersFrom, hfirst, h, if_true, carriersFrom_tails hbs, List.map_cons,
      List.cons_append]
  · next h =>
    cases heq : String.utf8EncodeChar c with
    | nil => exact absurd heq String.utf8EncodeChar_ne_nil
    | cons b bs =>
      rw [heq, List.cons_append] at hfirst
      simp only [List.cons_append, carriersFrom, hfirst, h, List.length_cons,
        Nat.add_sub_cancel, carriersFrom_skip, List.nil_append]
      rfl

/-- The bytes of characters are their encodings. -/
theorem toBytes_ofCharacters (cs : List Char) :
    toBytes (ofCharacters cs) = cs.flatMap String.utf8EncodeChar := by
  rw [toBytes, ofCharacters, String.toList_ofList, List.flatMap_assoc]
  exact congrArg (cs.flatMap ·) (funext charBytes_carry)

/-- Encoded characters are read as the text of these characters. -/
theorem ofBytes_encode (cs : List Char) :
    ofBytes (cs.flatMap String.utf8EncodeChar) = ofCharacters cs := by
  rw [ofBytes, ofCharacters]
  congr 1
  induction cs with
  | nil => rfl
  | cons c cs ih => rw [List.flatMap_cons, carriersFrom_encode, ih, List.flatMap_cons]

/-- Bytes that belong to the character before make no glyph. -/
theorem glyphsFrom_skip (bs rest : List UInt8) :
    glyphsFrom bs.length (bs ++ rest) = glyphsFrom 0 rest := by
  induction bs with
  | nil => rfl
  | cons b bs ih => exact ih

/-- The glyphs of encoded characters are these characters. -/
theorem glyphsFrom_encode (cs : List Char) :
    glyphsFrom 0 (cs.flatMap String.utf8EncodeChar) = cs.map .char := by
  induction cs with
  | nil => rfl
  | cons c cs ih =>
    have hfirst := firstChar_encode c (cs.flatMap String.utf8EncodeChar)
    rw [List.flatMap_cons, List.map_cons, ← ih]
    cases heq : String.utf8EncodeChar c with
    | nil => exact absurd heq String.utf8EncodeChar_ne_nil
    | cons b bs =>
      rw [heq, List.cons_append] at hfirst
      simp only [List.cons_append, glyphsFrom, hfirst, List.length_cons, Nat.add_sub_cancel,
        glyphsFrom_skip]

/-- The characters of a text are known by its bytes. -/
theorem characters_eq (s : String) : characters s = (glyphsFrom 0 (toBytes s)).map Glyph.shown := by
  rw [characters, glyphs]
  split
  · rfl
  · next hplain =>
    have hbytes : toBytes s = s.toList.flatMap String.utf8EncodeChar := by
      rw [toBytes, List.flatMap_def, List.flatMap_def]
      congr 1
      refine List.map_congr_left fun c hc => ?_
      rw [charBytes, if_neg fun hstray => hplain (List.any_eq_true.2 ⟨c, hc, hstray⟩)]
    rw [hbytes, glyphsFrom_encode, List.map_map]
    exact (List.map_id _).symm

/-- The reader of a text of characters sees these characters. -/
theorem characters_ofCharacters (cs : List Char) : characters (ofCharacters cs) = cs := by
  unfold characters glyphs
  split
  · rw [toBytes_ofCharacters, glyphsFrom_encode, List.map_map]
    exact List.map_id cs
  · next h =>
    -- Without carriers no character was reserved.
    rw [ofCharacters, String.toList_ofList] at h ⊢
    induction cs with
    | nil => rfl
    | cons c cs ih =>
      rw [List.flatMap_cons, List.any_append, Bool.or_eq_true, not_or] at h
      have hc : carry c = [c] := by
        unfold carry
        split
        · next hstray =>
          obtain ⟨b, bs, heq, hb, -⟩ := encode_stray hstray
          refine absurd ?_ h.1
          rw [carry, if_pos hstray, heq, List.map_cons, List.any_cons, (charBytes_stray hb).1]
          rfl
        · rfl
      rw [List.flatMap_cons, hc, ih h.2]
      rfl

/-- Characters in a row make the texts of their parts in a row. -/
theorem ofCharacters_append (as bs : List Char) :
    ofCharacters (as ++ bs) = ofCharacters as ++ ofCharacters bs := by
  rw [ofCharacters, List.flatMap_append, String.ofList_append]
  rfl

/-- ASCII characters are carried by themselves. -/
theorem ofCharacters_ascii {cs : List Char} (h : ∀ c ∈ cs, c.toNat < 0x80) :
    ofCharacters cs = String.ofList cs := by
  have hcarry (c : Char) (hc : c ∈ cs) : carry c = [c] := by
    have := h c hc
    rw [carry, if_neg]
    simp only [isStray, Bool.and_eq_true, decide_eq_true_eq]
    omega
  rw [ofCharacters, List.flatMap_def, List.map_congr_left hcarry, ← List.flatMap_def,
    List.flatMap_singleton']

/-- The text comes from characters: it has no byte outside them. -/
def IsPlain (s : String) : Prop :=
  ∃ cs, s = ofCharacters cs

/-- A text of characters is plain. -/
theorem isPlain_ofCharacters (cs : List Char) : IsPlain (ofCharacters cs) :=
  ⟨cs, rfl⟩

/-- The text as its reader sees it, each byte that belongs to no character replaced. -/
def readable (s : String) : String :=
  ofCharacters (characters s)

/-- What a reader sees of a text is plain. -/
theorem isPlain_readable (s : String) : IsPlain (readable s) :=
  isPlain_ofCharacters _

/-- Whether every character of the text is an ASCII one. -/
def isAscii (s : String) : Bool :=
  s.toList.all (·.toNat < 0x80)

/-- A text of ASCII characters is plain. -/
theorem isPlain_ascii {s : String} (h : isAscii s = true) : IsPlain s := by
  have hall : ∀ c ∈ s.toList, c.toNat < 0x80 := by simpa [isAscii] using h
  exact ⟨s.toList, by rw [ofCharacters_ascii hall, String.ofList_toList]⟩

/-- Encoded characters are well formed. -/
theorem isUtf8_encode (cs : List Char) : isUtf8 (cs.flatMap String.utf8EncodeChar) = true := by
  have hskip (bs rest : List UInt8) : wellFormed bs.length (bs ++ rest) = wellFormed 0 rest := by
    induction bs with
    | nil => rfl
    | cons b bs ih => exact ih
  rw [isUtf8]
  induction cs with
  | nil => rfl
  | cons c cs ih =>
    have hfirst := firstChar_encode c (cs.flatMap String.utf8EncodeChar)
    rw [List.flatMap_cons]
    cases heq : String.utf8EncodeChar c with
    | nil => exact absurd heq String.utf8EncodeChar_ne_nil
    | cons b bs =>
      rw [heq, List.cons_append] at hfirst
      simp only [List.cons_append, wellFormed, hfirst, List.length_cons, Nat.add_sub_cancel,
        hskip, ih]

/-- A plain text holds no byte outside characters. -/
theorem IsPlain.hasStray {s : String} (h : IsPlain s) : hasStray s = false := by
  obtain ⟨cs, rfl⟩ := h
  rw [Text.hasStray, toBytes_ofCharacters, isUtf8_encode, Bool.not_true]

/-- A plain text is read back from its bytes. -/
theorem IsPlain.ofBytes_toBytes {s : String} (h : IsPlain s) : ofBytes (toBytes s) = s := by
  obtain ⟨cs, rfl⟩ := h
  rw [toBytes_ofCharacters, ofBytes_encode]

/-- A text of ASCII is read back from its bytes. -/
theorem ofBytes_ascii {cs : List Char} (h : ∀ c ∈ cs, c.toNat < 0x80) :
    ofBytes (cs.flatMap charBytes) = String.ofList cs := by
  have hplain : IsPlain (String.ofList cs) := isPlain_ascii (by simpa [isAscii] using h)
  have hread := hplain.ofBytes_toBytes
  rwa [toBytes, String.toList_ofList] at hread

end InfraSmells.Text
