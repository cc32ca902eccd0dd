import InfraSmells.Datum.Pack
import InfraSmells.Proofs.Datum.Written
import InfraSmells.Proofs.Decimal.Rounding

/-!
# Reading written MessagePack

`Datum.ofPack?_toPack`: written data of fewer than `2 ^ 32` bytes are read back as they were. A
number is written most significant byte first (`Pack.readNat_writeNat`), a size behind the mark of
its family (`Pack.readValue_textSize` and its like), and a value is read by induction over its
parts, given two steps for each of its bytes.
-/

namespace InfraSmells.Pack

/-! ## Bytes -/

/-- The number of bytes a number is written in. -/
@[simp] theorem length_writeNat (n value : Nat) : (writeNat n value).length = n := by
  induction n generalizing value with
  | zero => rfl
  | succ n ih => rw [writeNat, List.length_append, ih, List.length_singleton]

/-- One more byte at the end of others. -/
theorem bigEndian_append (bs : List UInt8) (b : UInt8) :
    bigEndian (bs ++ [b]) = 256 * bigEndian bs + b.toNat := by
  rw [bigEndian, List.foldl_append]
  rfl

/-- The value of the bytes of a number is the number. -/
theorem bigEndian_writeNat {n value : Nat} (h : value < 256 ^ n) :
    bigEndian (writeNat n value) = value := by
  induction n generalizing value with
  | zero =>
    rw [Nat.pow_zero, Nat.lt_one_iff] at h
    rw [h]
    rfl
  | succ n ih =>
    rw [Nat.pow_succ] at h
    rw [writeNat, bigEndian_append, ih (Nat.div_lt_of_lt_mul (by omega)),
      Text.toNat_ofNat_byte (Nat.mod_lt _ (by decide)), Nat.div_add_mod]

/-- As many bytes as there are in front of others are taken. -/
theorem takeBytes_append (bs rest : List UInt8) :
    takeBytes bs.length (bs ++ rest) = some (bs, rest) := by
  simp only [takeBytes, List.take_left, List.drop_left, if_true]

/-- A written number is read back. -/
theorem readNat_writeNat {n value : Nat} (h : value < 256 ^ n) (rest : List UInt8) :
    readNat n (writeNat n value ++ rest) = some (value, rest) := by
  have := takeBytes_append (writeNat n value) rest
  rw [length_writeNat] at this
  rw [readNat, this, Option.map_some]
  dsimp only
  rw [bigEndian_writeNat h]

/-- What a mark that holds a number or a size itself begins. -/
theorem readValue_mark (fuel : Nat) {c : Nat} (hc : c < 256) (hrange : c ≤ 0xBF ∨ 0xE0 ≤ c)
    (bs : List UInt8) :
    readValue (fuel + 1) (UInt8.ofNat c :: bs) =
      if c ≤ 0x7F then some (.number (.integer c), bs)
      else if 0xE0 ≤ c then some (.number (.integer ((c : Int) - 256)), bs)
      else if c ≤ 0x8F then (readPairs fuel (c - 0x80) bs).map fun (ps, rest) => (tableOf ps, rest)
      else if c ≤ 0x9F then (readItems fuel (c - 0x90) bs).map fun (xs, rest) => (.list xs, rest)
      else readText (c - 0xA0) bs := by
  -- What other marks begin stays out of the way.
  obtain ⟨other, hother⟩ : ∃ other, readValue (fuel + 1) (UInt8.ofNat c :: bs) =
      if (UInt8.ofNat c).toNat ≤ 0x7F then some (.number (.integer (UInt8.ofNat c).toNat), bs)
      else if 0xE0 ≤ (UInt8.ofNat c).toNat then
        some (.number (.integer (((UInt8.ofNat c).toNat : Int) - 256)), bs)
      else if (UInt8.ofNat c).toNat ≤ 0x8F then
        (readPairs fuel ((UInt8.ofNat c).toNat - 0x80) bs).map fun (ps, rest) => (tableOf ps, rest)
      else if (UInt8.ofNat c).toNat ≤ 0x9F then
        (readItems fuel ((UInt8.ofNat c).toNat - 0x90) bs).map fun (xs, rest) => (.list xs, rest)
      else if (UInt8.ofNat c).toNat ≤ 0xBF then readText ((UInt8.ofNat c).toNat - 0xA0) bs
      else other := ⟨_, rfl⟩
  rw [hother, Text.toNat_ofNat_byte hc]
  rcases hrange with hsize | hnegative
  · rw [if_pos hsize]
  · rw [if_pos hnegative, if_pos hnegative]

/-! ## Sizes -/

/-- What is read behind a size, in whichever form the size is written. -/
theorem read_writeSize {α : Type} {f : List UInt8 → Option α} {g : Nat → List UInt8 → Option α}
    (fix small : Nat) (one : Option UInt8) (two four : UInt8)
    (hfix : ∀ n < small, ∀ bs, f (UInt8.ofNat (fix + n) :: bs) = g n bs)
    (hone : ∀ m ∈ one, ∀ bs, f (m :: bs) = (readNat 1 bs).bind fun (n, rest) => g n rest)
    (htwo : ∀ bs, f (two :: bs) = (readNat 2 bs).bind fun (n, rest) => g n rest)
    (hfour : ∀ bs, f (four :: bs) = (readNat 4 bs).bind fun (n, rest) => g n rest)
    {n : Nat} (h : n < 2 ^ 32) (bs : List UInt8) :
    f (writeSize fix small one two four n ++ bs) = g n bs := by
  unfold writeSize
  split
  · next hsmall => exact hfix n hsmall bs
  split
  · next m hle =>
    rw [List.cons_append, hone m rfl, readNat_writeNat (by simp at hle; omega)]
    rfl
  split
  · next hle =>
    rw [List.cons_append, htwo, readNat_writeNat (by omega)]
    rfl
  · rw [List.cons_append, hfour, readNat_writeNat (by omega)]
    rfl

section
variable (fuel : Nat) {n : Nat} (h : n < 2 ^ 32) (bs : List UInt8)
include h

/-- A text is read behind its size. -/
theorem readValue_textSize :
    readValue (fuel + 1) (writeSize 0xA0 32 (some 0xD9) 0xDA 0xDB n ++ bs) = readText n bs := by
  refine read_writeSize (f := readValue (fuel + 1)) 0xA0 32 (some 0xD9) 0xDA 0xDB
    (fun n hn bs => ?_) (fun m hm bs => ?_) (fun bs => rfl) (fun bs => rfl) h bs
  · rw [readValue_mark fuel (by omega) (by omega), if_neg (by omega), if_neg (by omega),
      if_neg (by omega), if_neg (by omega), Nat.add_sub_cancel_left]
  · cases hm
    rfl

/-- The items of a list are read behind their number. -/
theorem readValue_listSize :
    readValue (fuel + 1) (writeSize 0x90 16 none 0xDC 0xDD n ++ bs) =
      (readItems fuel n bs).map fun (xs, rest) => (.list xs, rest) := by
  refine read_writeSize (f := readValue (fuel + 1))
    (g := fun n bs => (readItems fuel n bs).map fun (xs, rest) => (.list xs, rest))
    0x90 16 none 0xDC 0xDD (fun n hn bs => ?_) (fun m hm => by cases hm) (fun bs => rfl)
    (fun bs => rfl) h bs
  rw [readValue_mark fuel (by omega) (by omega), if_neg (by omega), if_neg (by omega),
    if_neg (by omega), if_pos (by omega), Nat.add_sub_cancel_left]

/-- The members of a table are read behind their number. -/
theorem readValue_tableSize :
    readValue (fuel + 1) (writeSize 0x80 16 none 0xDE 0xDF n ++ bs) =
      (readPairs fuel n bs).map fun (ps, rest) => (tableOf ps, rest) := by
  refine read_writeSize (f := readValue (fuel + 1))
    (g := fun n bs => (readPairs fuel n bs).map fun (ps, rest) => (tableOf ps, rest))
    0x80 16 none 0xDE 0xDF (fun n hn bs => ?_) (fun m hm => by cases hm) (fun bs => rfl)
    (fun bs => rfl) h bs
  rw [readValue_mark fuel (by omega) (by omega), if_neg (by omega), if_neg (by omega),
    if_pos (by omega), Nat.add_sub_cancel_left]

end

/-! ## Numbers -/

/-- A negative integer is read back from its two's complement. -/
theorem readNat_signed {n : Nat} {i : Int} (hn : 0 < n) (hneg : i < 0)
    (hlow : -twoPow (8 * n - 1) ≤ i) (rest : List UInt8) :
    (readNat n (writeNat n (i + twoPow (8 * n)).toNat ++ rest)).map (fun (v, rest) =>
      (Datum.number (.integer (signed n v)), rest)) = some (.number (.integer i), rest) := by
  have htwice : twoPow (8 * n) = 2 * twoPow (8 * n - 1) := by
    show 2 ^ (8 * n) = 2 * 2 ^ (8 * n - 1)
    rw [← Nat.pow_succ', Nat.succ_eq_add_one, Nat.sub_add_cancel (by omega)]
  have hpow : 256 ^ n = twoPow (8 * n) := by
    show 256 ^ n = 2 ^ (8 * n)
    rw [Nat.pow_mul]
  rw [readNat_writeNat (by omega), Option.map_some]
  dsimp only
  rw [signed, if_pos (by omega)]
  congr 4
  omega

/-- A number of one byte is written as this byte. -/
theorem writeNat_one {v : Nat} (h : v < 256) : writeNat 1 v = [UInt8.ofNat v] := by
  show [UInt8.ofNat (v % 256)] = _
  rw [Nat.mod_eq_of_lt h]

section
variable (fuel : Nat) (rest : List UInt8)

/-- A written integer that is not negative is read back. -/
theorem readValue_writeInt_natCast {v : Nat} (hv : v < 256 ^ 8) :
    readValue (fuel + 1) (writeInt v ++ rest) = some (.number (.integer v), rest) := by
  -- The marks in front of one byte up to eight.
  have hread {n : Nat} (hn : v < 256 ^ n) {mark : UInt8} (hmark : ∀ bs,
      readValue (fuel + 1) (mark :: bs) =
        (readNat n bs).map fun (v, rest) => (.number (.integer v), rest)) :
      readValue (fuel + 1) (mark :: writeNat n v ++ rest) = some (.number (.integer v), rest) := by
    rw [List.cons_append, hmark, readNat_writeNat hn]
    rfl
  rw [writeInt, if_pos (Int.natCast_nonneg v), Int.toNat_natCast]
  dsimp only
  split
  · next hsmall =>
    rw [writeNat_one (by omega), List.singleton_append, readValue_mark fuel (by omega) (by omega),
      if_pos hsmall]
  split
  · exact hread (by omega) fun bs => rfl
  split
  · exact hread (by omega) fun bs => rfl
  split
  · exact hread (by omega) fun bs => rfl
  · exact hread hv fun bs => rfl

/-- A written negative integer is read back. -/
theorem readValue_writeInt_neg {i : Int} (hneg : i < 0) (hlow : -twoPow 63 ≤ i) :
    readValue (fuel + 1) (writeInt i ++ rest) = some (.number (.integer i), rest) := by
  rw [writeInt, if_neg (Int.not_le.2 hneg)]
  split
  · next hsmall =>
    obtain ⟨v, rfl⟩ : ∃ v : Nat, i = (v : Int) - 256 := ⟨(i + 256).toNat, by omega⟩
    have hvalue : ((v : Int) - 256 + ((twoPow 8 : Nat) : Int)).toNat = v := by
      show ((v : Int) - 256 + 256).toNat = v
      omega
    rw [hvalue, writeNat_one (by omega), List.singleton_append,
      readValue_mark fuel (by omega) (by omega), if_neg (by omega), if_pos (by omega)]
  split
  · next hone => exact readNat_signed (n := 1) (by decide) hneg hone rest
  split
  · next htwo => exact readNat_signed (n := 2) (by decide) hneg htwo rest
  split
  · next hfour => exact readNat_signed (n := 4) (by decide) hneg hfour rest
  · exact readNat_signed (n := 8) (by decide) hneg hlow rest

/-- A written integer is read back. -/
theorem readValue_writeInt {i : Int} (h : fitsInt64 i = true) :
    readValue (fuel + 1) (writeInt i ++ rest) = some (.number (.integer i), rest) := by
  simp only [fitsInt64, Bool.and_eq_true, decide_eq_true_eq] at h
  rcases lt_or_ge i 0 with hneg | hpos
  · exact readValue_writeInt_neg fuel rest hneg h.1
  · obtain ⟨v, rfl⟩ : ∃ v : Nat, i = v := ⟨i.toNat, by omega⟩
    refine readValue_writeInt_natCast fuel rest ?_
    have : (v : Int) ≤ ((2 ^ 63 : Nat) : Int) - 1 := h.2
    omega

end

/-- A written floating-point number is read back. -/
theorem readValue_writeFloat (x : Binary64) (fuel : Nat) (rest : List UInt8) :
    readValue (fuel + 1) (writeFloat x ++ rest) = some (.number (.float x), rest) := by
  have hmark (bs : List UInt8) : readValue (fuel + 1) (0xCB :: bs) =
      (readNat 8 bs).map fun (n, rest) => (.number (.float ⟨UInt64.ofNat n⟩), rest) := rfl
  rw [writeFloat, List.cons_append, hmark, readNat_writeNat x.bits.toNat_lt, Option.map_some]
  dsimp only
  rw [UInt64.ofNat_toNat]

/-! ## Values -/

/-- A written text is read back. -/
theorem readValue_writeText {s : String} (hs : Text.IsPlain s) (h : (writeText s).length < 2 ^ 32)
    (fuel : Nat) (rest : List UInt8) :
    readValue (fuel + 1) (writeText s ++ rest) = some (.text s, rest) := by
  rw [writeText, List.length_append] at h
  rw [writeText, List.append_assoc, readValue_textSize fuel (by omega), readText, takeBytes_append,
    Option.map_some]
  dsimp only
  rw [hs.ofBytes_toBytes]

/-- A size is written in at least one byte. -/
theorem length_writeSize_pos (fix small : Nat) (one : Option UInt8) (two four : UInt8) (n : Nat) :
    0 < (writeSize fix small one two four n).length := by
  unfold writeSize
  split
  · exact Nat.succ_pos _
  split
  · exact Nat.succ_pos _
  split <;> exact Nat.succ_pos _

/-- A text is written in at least one byte. -/
theorem length_writeText_pos (s : String) : 0 < (writeText s).length := by
  have := length_writeSize_pos 0xA0 32 (some 0xD9) 0xDA 0xDB (Text.toBytes s).length
  rw [writeText, List.length_append]
  omega

/-- An integer is written in at least one byte. -/
theorem length_writeInt_pos (n : Int) : 0 < (writeInt n).length := by
  unfold writeInt
  dsimp only
  repeat' split
  all_goals simp

/-- Written data have at least one byte. -/
theorem length_write_pos {d : Datum} (h : d.IsWritten) : 0 < (write d).length := by
  match d, h with
  | .null, _ | .flag _, _ | .number (.float _), _ => exact Nat.succ_pos _
  | .text s, _ => exact length_writeText_pos s
  | .number (.integer n), _ => exact length_writeInt_pos n
  | .list xs, _ =>
    have := length_writeSize_pos 0x90 16 none 0xDC 0xDD xs.length
    rw [write, List.length_append]
    omega
  | .table ms, _ =>
    have := length_writeSize_pos 0x80 16 none 0xDE 0xDF ms.length
    rw [write, List.length_append]
    omega

/-- A list is written in at least one byte for each of its items. -/
theorem length_le_writeItems {ds : List Datum} (h : Datum.ItemsWritten ds) :
    ds.length ≤ (writeItems ds).length := by
  induction ds with
  | nil => exact Nat.zero_le _
  | cons d ds ih =>
    have hd := length_write_pos h.1
    have hds := ih h.2
    rw [writeItems, List.length_append, List.length_cons]
    omega

/-- A table is written in at least one byte for each of its members. -/
theorem length_le_writeMembers {ms : List (String × Datum)} (h : Datum.MembersWritten ms) :
    ms.length ≤ (writeMembers ms).length := by
  induction ms with
  | nil => exact Nat.zero_le _
  | cons m ms ih =>
    obtain ⟨k, d⟩ := m
    have hk := length_writeText_pos k
    have hms := ih h.2.2
    rw [writeMembers, List.length_append, List.length_append, List.length_cons]
    omega

/-- The pairs of the names and values of members make a table of these members. -/
theorem tableOf_texts (ms : List (String × Datum)) :
    tableOf (ms.map fun m => (.text m.1, m.2)) = .table ms := by
  have : (ms.map fun m => (Datum.text m.1, m.2)).mapM (fun p => (keyName? p.1).map (·, p.2)) =
      some ms := by
    induction ms with
    | nil => rfl
    | cons m ms ih =>
      rw [List.map_cons, List.mapM_cons, ih]
      rfl
  rw [tableOf, this]

-- A value may take two steps for each of its bytes, but one: a list takes one step itself and one
-- for each item, which has a byte of its own.
mutual

/-- Written data are read back. -/
theorem readValue_write : ∀ (d : Datum) (fuel : Nat) (rest : List UInt8), d.IsWritten →
    (write d).length < 2 ^ 32 → 2 * (write d).length ≤ fuel + 1 →
    readValue fuel (write d ++ rest) = some (d, rest)
  | d, 0, rest, h, _, hfuel => by
    have := length_write_pos h
    omega
  | .null, fuel + 1, rest, _, _, _ => rfl
  | .flag true, fuel + 1, rest, _, _, _ => rfl
  | .flag false, fuel + 1, rest, _, _, _ => rfl
  | .text _, fuel + 1, rest, h, hsize, _ => readValue_writeText h hsize fuel rest
  | .number (.integer _), fuel + 1, rest, h, _, _ => readValue_writeInt fuel rest h
  | .number (.float x), fuel + 1, rest, _, _, _ => readValue_writeFloat x fuel rest
  | .list xs, fuel + 1, rest, h, hsize, hfuel => by
    have hpos := length_writeSize_pos 0x90 16 none 0xDC 0xDD xs.length
    have hle := length_le_writeItems h
    rw [write, List.length_append] at hsize hfuel
    rw [write, List.append_assoc, readValue_listSize fuel (by omega),
      readItems_write xs fuel rest h (by omega) (by omega)]
    rfl
  | .table ms, fuel + 1, rest, h, hsize, hfuel => by
    have hpos := length_writeSize_pos 0x80 16 none 0xDE 0xDF ms.length
    have hle := length_le_writeMembers h
    rw [write, List.length_append] at hsize hfuel
    rw [write, List.append_assoc, readValue_tableSize fuel (by omega),
      readPairs_write ms fuel rest h (by omega) (by omega), Option.map_some]
    dsimp only
    rw [tableOf_texts]

/-- The written items of a list are read back. -/
theorem readItems_write : ∀ (ds : List Datum) (fuel : Nat) (rest : List UInt8),
    Datum.ItemsWritten ds → (writeItems ds).length < 2 ^ 32 → 2 * (writeItems ds).length ≤ fuel →
    readItems fuel ds.length (writeItems ds ++ rest) = some (ds, rest)
  | [], fuel, rest => fun _ _ _ => by cases fuel <;> rfl
  | d :: ds, 0, rest => fun h _ hfuel => by
    have := length_write_pos h.1
    rw [writeItems, List.length_append] at hfuel
    omega
  | d :: ds, fuel + 1, rest => fun h hsize hfuel => by
    have hpos := length_write_pos h.1
    rw [writeItems, List.length_append] at hsize hfuel
    rw [writeItems, List.append_assoc, List.length_cons, readItems,
      readValue_write d fuel _ h.1 (by omega) (by omega)]
    simp only [Option.bind_eq_bind, Option.bind_some,
      readItems_write ds fuel rest h.2 (by omega) (by omega)]
    rfl

/-- The written members of a table are read back, their names as texts. -/
theorem readPairs_write : ∀ (ms : List (String × Datum)) (fuel : Nat) (rest : List UInt8),
    Datum.MembersWritten ms → (writeMembers ms).length < 2 ^ 32 →
    2 * (writeMembers ms).length ≤ fuel →
    readPairs fuel ms.length (writeMembers ms ++ rest) =
      some (ms.map fun m => (.text m.1, m.2), rest)
  | [], fuel, rest => fun _ _ _ => by cases fuel <;> rfl
  | (k, d) :: ms, 0, rest => fun h _ hfuel => by
    have := length_writeText_pos k
    rw [writeMembers, List.length_append, List.length_append] at hfuel
    omega
  | (k, d) :: ms, fuel + 1, rest => fun h hsize hfuel => by
    have hpos := length_write_pos h.2.1
    have hk := length_writeText_pos k
    rw [writeMembers, List.length_append, List.length_append] at hsize hfuel
    obtain ⟨fuel, rfl⟩ : ∃ f, fuel = f + 1 := ⟨fuel - 1, by omega⟩
    rw [writeMembers, List.append_assoc, List.append_assoc, List.length_cons, readPairs,
      readValue_writeText h.1 (by omega)]
    simp only [Option.bind_eq_bind, Option.bind_some,
      readValue_write d (fuel + 1) _ h.2.1 (by omega) (by omega),
      readPairs_write ms (fuel + 1) rest h.2.2 (by omega) (by omega)]
    rfl

end

end InfraSmells.Pack

namespace InfraSmells.Datum

/-- Written data of fewer than `2 ^ 32` bytes are read back. -/
theorem ofPack?_toPack {d : Datum} (h : d.IsWritten) (hsize : d.toPack.length < 2 ^ 32) :
    ofPack? d.toPack = some d := by
  have := Pack.readValue_write d (2 * d.toPack.length + 2) [] h hsize (Nat.le_add_right _ 3)
  rw [List.append_nil] at this
  rw [ofPack?]
  show (Pack.readValue _ (Pack.write d)).map _ = _
  rw [this]
  rfl

end InfraSmells.Datum
