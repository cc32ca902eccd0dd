import InfraSmells.Proofs.Text.Carried

/-!
# Texts and the bytes they stand for

Every byte sequence is read as a text that stands for it (`Text.toBytes_ofBytes`). Of all texts that
stand for the same bytes only this one is read from them; it is carried (`Text.IsCarried`), and what
comes from outside, such as names of files, is carried throughout. Carried texts are therefore known
by their bytes (`Text.IsCarried.eq_of_toBytes`). A slash belongs to no longer character, so that a
text with a slash in it is carried if and only if the parts before and behind the slash are
(`Text.isCarried_slash`).
-/

namespace InfraSmells.Text

/-! ## Encoding what was decoded -/

section
variable {a b c d : UInt8}

/-- The encoding of a character by its number. -/
theorem encode_ofNat {v : Nat} (h : v.isValidChar) : String.utf8EncodeChar (Char.ofNat v) =
    if v ≤ 0x7F then [UInt8.ofNat v]
    else if v ≤ 0x7FF then [UInt8.ofNat (v / 64 % 32 + 0xC0), UInt8.ofNat (v % 64 + 0x80)]
    else if v ≤ 0xFFFF then
      [UInt8.ofNat (v / 4096 % 16 + 0xE0), UInt8.ofNat (v / 64 % 64 + 0x80),
        UInt8.ofNat (v % 64 + 0x80)]
    else
      [UInt8.ofNat (v / 262144 % 8 + 0xF0), UInt8.ofNat (v / 4096 % 64 + 0x80),
        UInt8.ofNat (v / 64 % 64 + 0x80), UInt8.ofNat (v % 64 + 0x80)] := by
  have hval : (Char.ofNat v).val.toNat = v := toNat_ofNat_char h
  unfold String.utf8EncodeChar
  simp only [hval]

/-- A number that a byte has is written as this byte. -/
theorem ofNat_eq_byte {n : Nat} (h : n = a.toNat) : UInt8.ofNat n = a := by
  rw [h, UInt8.ofNat_toNat]

/-- The character that one byte makes is encoded as this byte. -/
theorem encode_one (ha : a.toNat < 0x80) :
    String.utf8EncodeChar (Char.ofNat a.toNat) = [a] := by
  rw [encode_ofNat (.inl (by omega)), if_pos (by omega), UInt8.ofNat_toNat]

/-- The character that two bytes make is encoded as these bytes. -/
theorem encode_two (ha : 0xC2 ≤ a.toNat ∧ a.toNat ≤ 0xDF)
    (hb : 0x80 ≤ b.toNat ∧ b.toNat ≤ 0xBF) :
    String.utf8EncodeChar (Char.ofNat (a.toNat % 32 * 64 + tailBits b)) = [a, b] := by
  unfold tailBits
  rw [encode_ofNat (.inl (by omega)), if_neg (by omega), if_pos (by omega),
    ofNat_eq_byte (a := a) (by omega), ofNat_eq_byte (a := b) (by omega)]

/-- The character that three bytes make is encoded as these bytes. -/
theorem encode_three (ha : 0xE0 ≤ a.toNat ∧ a.toNat ≤ 0xEF)
    (hb : 0x80 ≤ b.toNat ∧ b.toNat ≤ 0xBF) (hc : 0x80 ≤ c.toNat ∧ c.toNat ≤ 0xBF)
    (hv : 0x800 ≤ (a.toNat % 16 * 64 + tailBits b) * 64 + tailBits c)
    (hs : ¬(0xD800 ≤ (a.toNat % 16 * 64 + tailBits b) * 64 + tailBits c ∧
      (a.toNat % 16 * 64 + tailBits b) * 64 + tailBits c ≤ 0xDFFF)) :
    String.utf8EncodeChar (Char.ofNat ((a.toNat % 16 * 64 + tailBits b) * 64 + tailBits c)) =
      [a, b, c] := by
  unfold tailBits at *
  rw [encode_ofNat (by unfold Nat.isValidChar; omega), if_neg (by omega), if_neg (by omega),
    if_pos (by omega), ofNat_eq_byte (a := a) (by omega), ofNat_eq_byte (a := b) (by omega),
    ofNat_eq_byte (a := c) (by omega)]

/-- The character that four bytes make is encoded as these bytes. -/
theorem encode_four (ha : 0xF0 ≤ a.toNat ∧ a.toNat ≤ 0xF4)
    (hb : 0x80 ≤ b.toNat ∧ b.toNat ≤ 0xBF) (hc : 0x80 ≤ c.toNat ∧ c.toNat ≤ 0xBF)
    (hd : 0x80 ≤ d.toNat ∧ d.toNat ≤ 0xBF)
    (hv : 0x10000 ≤ ((a.toNat % 8 * 64 + tailBits b) * 64 + tailBits c) * 64 + tailBits d ∧
      ((a.toNat % 8 * 64 + tailBits b) * 64 + tailBits c) * 64 + tailBits d ≤ 0x10FFFF) :
    String.utf8EncodeChar
        (Char.ofNat (((a.toNat % 8 * 64 + tailBits b) * 64 + tailBits c) * 64 + tailBits d)) =
      [a, b, c, d] := by
  unfold tailBits at *
  rw [encode_ofNat (by unfold Nat.isValidChar; omega), if_neg (by omega), if_neg (by omega),
    if_neg (by omega), ofNat_eq_byte (a := a) (by omega), ofNat_eq_byte (a := b) (by omega),
    ofNat_eq_byte (a := c) (by omega), ofNat_eq_byte (a := d) (by omega)]

end

/-- The bytes of the character that is read first are its encoding. -/
theorem encode_of_firstChar {bs : List UInt8} {ch : Char} {n : Nat}
    (h : firstChar bs = some (ch, n)) :
    String.utf8EncodeChar ch = bs.take n ∧ 0 < n ∧ n ≤ bs.length := by
  unfold firstChar at h
  split at h
  · cases h
  next a rest =>
  split at h
  · next ha =>
    cases h
    exact ⟨encode_one (by simpa [UInt8.lt_iff_toNat_lt] using ha), Nat.one_pos,
      Nat.le_add_left 1 _⟩
  split at h
  · next ha =>
    split at h
    · next b _ =>
      split at h
      · next hb =>
        cases h
        exact ⟨encode_two (between_iff.1 ha) (isTail_iff.1 hb), Nat.two_pos,
          Nat.le_add_left 2 _⟩
      · cases h
    · cases h
  split at h
  · next ha =>
    split at h
    · next b c _ =>
      dsimp only at h
      split at h
      · next hok =>
        simp only [Bool.and_eq_true, isTail_iff, Bool.not_eq_true', decide_eq_true_eq,
          ← Bool.decide_and, decide_eq_false_iff_not] at hok
        obtain ⟨⟨⟨hb, hc⟩, hv⟩, hs⟩ := hok
        cases h
        exact ⟨encode_three (between_iff.1 ha) hb hc hv hs, Nat.succ_pos 2,
          Nat.le_add_left 3 _⟩
      · cases h
    · cases h
  split at h
  · next ha =>
    split at h
    · next b c d _ =>
      dsimp only at h
      split at h
      · next hok =>
        simp only [Bool.and_eq_true, isTail_iff, decide_eq_true_eq] at hok
        obtain ⟨⟨⟨⟨hb, hc⟩, hd⟩, hlow⟩, hhigh⟩ := hok
        cases h
        exact ⟨encode_four (between_iff.1 ha) hb hc hd ⟨hlow, hhigh⟩, Nat.succ_pos 3,
          Nat.le_add_left 4 _⟩
      · cases h
    · cases h
  · cases h

/-- A byte that begins no character lies outside ASCII. -/
theorem high_of_firstChar {b : UInt8} {bs : List UInt8} (h : firstChar (b :: bs) = none) :
    0x80 ≤ b.toNat := by
  refine Nat.le_of_not_lt fun hlow => ?_
  rw [firstChar_one bs rfl hlow] at h
  cases h

/-- What is read from bytes stands for them. -/
theorem bytes_carriersFrom : ∀ (skip : Nat) (bs : List UInt8),
    (carriersFrom skip bs).flatMap charBytes = bs.drop skip
  | 0, [] => rfl
  | _ + 1, [] => rfl
  | skip + 1, b :: bs => bytes_carriersFrom skip bs
  | 0, b :: bs => by
    rw [carriersFrom]
    split
    · next ch n hfirst =>
      obtain ⟨hencode, hn, -⟩ := encode_of_firstChar hfirst
      split
      · next hstray =>
        obtain ⟨b', bs', heq, hb', -⟩ := encode_stray hstray
        obtain ⟨k, rfl⟩ := Nat.exists_eq_add_one.2 hn
        rw [heq, List.take_succ_cons] at hencode
        cases hencode
        rw [List.flatMap_cons, bytes_carriersFrom, (charBytes_stray hb').2]
        rfl
      · next hstray =>
        obtain ⟨k, rfl⟩ := Nat.exists_eq_add_one.2 hn
        rw [List.flatMap_cons, bytes_carriersFrom, charBytes, if_neg hstray, hencode,
          List.take_succ_cons, Nat.add_sub_cancel, List.cons_append, List.take_append_drop]
        rfl
    · next hnone =>
      rw [List.flatMap_cons, bytes_carriersFrom, (charBytes_stray (high_of_firstChar hnone)).2]
      rfl

/-- A text that is read from bytes stands for them. -/
theorem toBytes_ofBytes (bs : List UInt8) : toBytes (ofBytes bs) = bs := by
  rw [toBytes, ofBytes, String.toList_ofList, bytes_carriersFrom, List.drop_zero]

/-- Bytes that are well formed are the encodings of characters, behind those that are skipped. -/
theorem exists_of_wellFormed : ∀ (skip : Nat) (bs : List UInt8), wellFormed skip bs = true →
    ∃ cs : List Char, bs.drop skip = cs.flatMap String.utf8EncodeChar
  | 0, [], _ => ⟨[], rfl⟩
  | _ + 1, [], _ => ⟨[], rfl⟩
  | skip + 1, _ :: bs, h => exists_of_wellFormed skip bs h
  | 0, b :: bs, h => by
    rw [wellFormed] at h
    split at h
    · next ch n hfirst =>
      obtain ⟨hencode, hn, -⟩ := encode_of_firstChar hfirst
      obtain ⟨k, rfl⟩ := Nat.exists_eq_add_one.2 hn
      obtain ⟨cs, hcs⟩ := exists_of_wellFormed k bs h
      refine ⟨ch :: cs, ?_⟩
      rw [List.flatMap_cons, ← hcs, hencode, List.take_succ_cons, List.cons_append,
        List.take_append_drop, List.drop_zero]
    · cases h

/-- Bytes are UTF-8 if they are the encodings of characters. -/
theorem isUtf8_iff {bs : List UInt8} :
    isUtf8 bs = true ↔ ∃ cs : List Char, bs = cs.flatMap String.utf8EncodeChar := by
  constructor
  · exact exists_of_wellFormed 0 bs
  · rintro ⟨cs, rfl⟩
    exact isUtf8_encode cs

/-! ## Carried texts -/

/-- The text is the one that is read from its bytes. -/
def IsCarried (s : String) : Prop :=
  ofBytes (toBytes s) = s

instance : DecidablePred IsCarried :=
  fun s => inferInstanceAs (Decidable (ofBytes (toBytes s) = s))

/-- Carried texts that stand for the same bytes are the same. -/
theorem IsCarried.eq_of_toBytes {s t : String} (hs : IsCarried s) (ht : IsCarried t)
    (h : toBytes s = toBytes t) : s = t := by
  rw [← hs, h, ht]

/-- The bytes of a text are those of its parts. -/
theorem toBytes_append (s t : String) : toBytes (s ++ t) = toBytes s ++ toBytes t := by
  rw [toBytes, String.toList_append, List.flatMap_append]
  rfl

/-- A byte of ASCII is in no longer character: what begins before it ends before it. -/
theorem firstChar_append {b : UInt8} (bs : List UInt8) {c : UInt8} (hc : c.toNat < 0x80)
    (rest : List UInt8) : firstChar (b :: bs ++ c :: rest) = firstChar (b :: bs) := by
  have htail : isTail c = false := by
    rw [Bool.eq_false_iff, ne_eq, isTail_iff]
    omega
  unfold firstChar
  rw [List.cons_append]
  rcases bs with _ | ⟨x, _ | ⟨y, _ | ⟨z, bs⟩⟩⟩
  · cases rest with
    | nil => simp [htail]
    | cons _ rest => cases rest <;> simp [htail]
  · cases rest <;> simp [htail]
  · simp [htail]
  · rfl

/-- What is read from bytes around a byte of ASCII is read from those before and behind it. -/
theorem carriersFrom_append {c : UInt8} (hc : c.toNat < 0x80) (rest : List UInt8) :
    ∀ (skip : Nat) (bs : List UInt8), skip ≤ bs.length → carriersFrom skip (bs ++ c :: rest) =
      carriersFrom skip bs ++ Char.ofNat c.toNat :: carriersFrom 0 rest
  | 0, [], _ => by
    have hplain : isStray (Char.ofNat c.toNat) = false := by
      rw [isStray, toNat_ofNat_char (.inl (by omega))]
      simp
      omega
    simp [carriersFrom, firstChar_one rest rfl hc, hplain]
  | _ + 1, [], h => absurd h (by simp)
  | skip + 1, b :: bs, h => carriersFrom_append hc rest skip bs (Nat.le_of_succ_le_succ h)
  | 0, b :: bs, _ => by
    have hfirst := firstChar_append (b := b) bs hc rest
    rw [List.cons_append] at hfirst ⊢
    rw [carriersFrom, carriersFrom, hfirst]
    split
    · next ch n hsome =>
      have hn : n - 1 ≤ bs.length := Nat.sub_le_of_le_add (encode_of_firstChar hsome).2.2
      split
      · rw [carriersFrom_append hc rest 0 bs (Nat.zero_le _), List.cons_append]
      · rw [carriersFrom_append hc rest (n - 1) bs hn, List.cons_append]
    · rw [carriersFrom_append hc rest 0 bs (Nat.zero_le _), List.cons_append]

/-- A character stands for at least one byte. -/
theorem charBytes_ne_nil (c : Char) : charBytes c ≠ [] := by
  unfold charBytes
  split
  · exact List.cons_ne_nil _ _
  · exact String.utf8EncodeChar_ne_nil

/-- A text without bytes has no characters. -/
theorem eq_nil_of_bytes {cs : List Char} (h : cs.flatMap charBytes = []) : cs = [] := by
  cases cs with
  | nil => rfl
  | cons c cs =>
    rw [List.flatMap_cons, List.append_eq_nil_iff] at h
    exact absurd h.1 (charBytes_ne_nil c)

/-- Of texts that stand for the same bytes none is a proper beginning of another. -/
theorem eq_of_append {as bs cs ds : List Char} (h : as ++ cs = bs ++ ds)
    (hbytes : as.flatMap charBytes = bs.flatMap charBytes) : as = bs ∧ cs = ds := by
  rcases List.append_eq_append_iff.1 h with ⟨es, rfl, rfl⟩ | ⟨es, rfl, rfl⟩
  · rw [List.flatMap_append, List.self_eq_append_right] at hbytes
    simp [eq_nil_of_bytes hbytes]
  · rw [List.flatMap_append, List.append_right_eq_self] at hbytes
    simp [eq_nil_of_bytes hbytes]

/-- A text with a slash is carried if and only if the parts before and behind the slash are. -/
theorem isCarried_slash {s t : String} :
    IsCarried (s ++ "/" ++ t) ↔ IsCarried s ∧ IsCarried t := by
  have hread : (ofBytes (toBytes (s ++ "/" ++ t))).toList =
      (ofBytes (toBytes s)).toList ++ '/' :: (ofBytes (toBytes t)).toList := by
    have hslash : toBytes "/" = [0x2F] := by decide
    simp only [toBytes_append, hslash, List.append_assoc, List.singleton_append, ofBytes,
      String.toList_ofList]
    exact carriersFrom_append (by decide) _ 0 _ (Nat.zero_le _)
  have hparts : (s ++ "/" ++ t).toList = s.toList ++ '/' :: t.toList := by
    rw [String.toList_append, String.toList_append, List.append_assoc]
    rfl
  unfold IsCarried
  rw [← String.toList_inj, hread, hparts, ← String.toList_inj, ← String.toList_inj]
  constructor
  · intro h
    obtain ⟨hs, hrest⟩ := eq_of_append h (toBytes_ofBytes (toBytes s))
    exact ⟨hs, (List.cons.inj hrest).2⟩
  · rintro ⟨hs, ht⟩
    rw [hs, ht]

end InfraSmells.Text
