import InfraSmells.Proofs.Text.Lines
import InfraSmells.Text.Search

/-!
# Texts in parts

A character of ASCII is no part of a longer one, so a reader sees a text part by part around it
(`Text.characters_append`, `Text.characters_ascii_append`). Beginnings of characters are prefixes
(`Text.beginsWith_iff`), and a separator tells how far a beginning reaches: what has no separator
begins the part before it (`Text.prefix_append_cons_iff`), and what has one agrees with the text up
to there (`Text.append_cons_prefix_iff`).
-/

namespace InfraSmells.Text

/-! ## Characters -/

/-- What is read from bytes in front of a byte of ASCII does not depend on what follows. -/
theorem glyphsFrom_append {c : UInt8} (hc : c.toNat < 0x80) (rest : List UInt8) :
    ∀ (skip : Nat) (bs : List UInt8), skip ≤ bs.length →
      glyphsFrom skip (bs ++ c :: rest) = glyphsFrom skip bs ++ glyphsFrom 0 (c :: rest)
  | 0, [], _ => rfl
  | _ + 1, [], h => absurd h (by simp)
  | skip + 1, b :: bs, h => glyphsFrom_append hc rest skip bs (Nat.le_of_succ_le_succ h)
  | 0, b :: bs, _ => by
    have hfirst := firstChar_append (b := b) bs hc rest
    rw [List.cons_append] at hfirst ⊢
    rw [glyphsFrom, glyphsFrom, hfirst]
    split
    · next ch n hsome =>
      have hn : n - 1 ≤ bs.length := Nat.sub_le_of_le_add (encode_of_firstChar hsome).2.2
      rw [glyphsFrom_append hc rest (n - 1) bs hn, List.cons_append]
    · rw [glyphsFrom_append hc rest 0 bs (Nat.zero_le _), List.cons_append]

/-- The byte of a character of ASCII. -/
theorem charBytes_ascii {c : Char} (hc : c.toNat < 0x80) :
    charBytes c = [UInt8.ofNat c.toNat] ∧ (UInt8.ofNat c.toNat).toNat = c.toNat := by
  refine ⟨?_, toNat_ofNat_byte (by omega)⟩
  rw [charBytes, if_neg (by simp [isStray]; omega)]
  have hval : c.val.toNat = c.toNat := rfl
  simp only [String.utf8EncodeChar, hval, if_pos (show c.toNat ≤ 127 by omega)]

/-- A character of ASCII at the start of a text is read by itself. -/
theorem characters_cons {c : Char} (hc : c.toNat < 0x80) (cs : List Char) :
    characters (String.ofList (c :: cs)) = c :: characters (String.ofList cs) := by
  obtain ⟨hbytes, hbyte⟩ := charBytes_ascii hc
  have hfirst (rest : List UInt8) : firstChar (UInt8.ofNat c.toNat :: rest) = some (c, 1) := by
    rw [firstChar_one rest hbyte hc, Char.ofNat_toNat]
  simp only [characters_eq, toBytes, String.toList_ofList, List.flatMap_cons, hbytes,
    List.singleton_append, glyphsFrom, hfirst, List.map_cons, Glyph.shown]

/-- A text that begins with ASCII is read apart from what is in front of it. -/
theorem characters_append (s : String) {t : String}
    (h : t.toList.head?.all (·.toNat < 0x80) = true) :
    characters (s ++ t) = characters s ++ characters t := by
  rw [characters_eq, characters_eq, characters_eq, toBytes_append, ← List.map_append]
  congr 1
  cases ht : t.toList with
  | nil =>
    have hbytes : toBytes t = [] := by rw [toBytes, ht, List.flatMap_nil]
    rw [hbytes, List.append_nil]
    exact (List.append_nil _).symm
  | cons c cs =>
    have hc : c.toNat < 0x80 := by
      rw [ht] at h
      exact of_decide_eq_true h
    obtain ⟨hbytes, hbyte⟩ := charBytes_ascii hc
    have htail : toBytes t = UInt8.ofNat c.toNat :: cs.flatMap charBytes := by
      rw [toBytes, ht, List.flatMap_cons, hbytes, List.singleton_append]
    rw [htail]
    exact glyphsFrom_append (by omega) _ 0 (toBytes s) (Nat.zero_le _)

/-- A text of ASCII is read apart from what follows it. -/
theorem characters_ascii_append {s : String} (h : isAscii s = true) (t : String) :
    characters (s ++ t) = s.toList ++ characters t := by
  have hall : ∀ c ∈ s.toList, c.toNat < 0x80 := by simpa [isAscii] using h
  have hcs : ∀ cs : List Char, (∀ c ∈ cs, c.toNat < 0x80) →
      characters (String.ofList (cs ++ t.toList)) = cs ++ characters t := by
    intro cs hcs
    induction cs with
    | nil => rw [List.nil_append, String.ofList_toList, List.nil_append]
    | cons c cs ih =>
      obtain ⟨hc, hrest⟩ := List.forall_mem_cons.1 hcs
      rw [List.cons_append, characters_cons hc, ih hrest, List.cons_append]
  have hparts : s ++ t = String.ofList (s.toList ++ t.toList) := by
    rw [← String.toList_append, String.ofList_toList]
  rw [hparts, hcs s.toList hall]

/-- ASCII in the midst of a text parts what is read before it from what is read behind it. -/
theorem characters_around {m : String} (hm : isAscii m = true) (hne : m.toList ≠ []) (s t : String) :
    characters (s ++ (m ++ t)) = characters s ++ (m.toList ++ characters t) := by
  have hall : ∀ c ∈ m.toList, c.toNat < 0x80 := by simpa [isAscii] using hm
  rw [characters_append, characters_ascii_append hm]
  cases hcs : m.toList with
  | nil => exact absurd hcs hne
  | cons a as =>
    rw [String.toList_append, hcs, List.cons_append, List.head?_cons, Option.all_some]
    exact decide_eq_true (hall a (hcs ▸ List.mem_cons_self))

/-- A text of ASCII is read as it is. -/
theorem characters_ascii {s : String} (h : isAscii s = true) : characters s = s.toList := by
  obtain ⟨cs, rfl⟩ := isPlain_ascii h
  have hall : ∀ c ∈ (ofCharacters cs).toList, c.toNat < 0x80 := by simpa [isAscii] using h
  have hself := ofCharacters_ascii hall
  rw [String.ofList_toList] at hself
  rw [← hself, characters_ofCharacters, hself]

/-- A character that begins with a byte outside ASCII lies outside ASCII. -/
theorem toNat_of_firstChar {b : UInt8} {bs : List UInt8} {c : Char} {n : Nat}
    (h : firstChar (b :: bs) = some (c, n)) (hb : 0x80 ≤ b.toNat) : 0x80 ≤ c.toNat := by
  by_contra hlow
  obtain ⟨hbytes, hbyte⟩ := charBytes_ascii (Nat.lt_of_not_le hlow)
  obtain ⟨hencode, hn, -⟩ := encode_of_firstChar h
  obtain ⟨k, rfl⟩ := Nat.exists_eq_add_one.2 hn
  rw [charBytes, if_neg (by simp [isStray]; omega), hencode, List.take_succ_cons] at hbytes
  have hhead : b = UInt8.ofNat c.toNat := (List.cons.inj hbytes).1
  rw [hhead, hbyte] at hb
  exact hlow hb

/-- A character of ASCII that is seen first stands first in the text. -/
theorem exists_of_characters_cons {c : Char} (hc : c.toNat < 0x80) {cs seen : List Char}
    (h : characters (String.ofList cs) = c :: seen) :
    ∃ rest, cs = c :: rest ∧ characters (String.ofList rest) = seen := by
  cases cs with
  | nil => cases h
  | cons x cs =>
    by_cases hx : x.toNat < 0x80
    · rw [characters_cons hx] at h
      cases h
      exact ⟨cs, rfl, rfl⟩
    · exfalso
      rw [characters_eq, toBytes, String.toList_ofList, List.flatMap_cons] at h
      cases hbytes : charBytes x with
      | nil => exact charBytes_ne_nil x hbytes
      | cons b bs =>
        have hb : 0x80 ≤ b.toNat :=
          high_of_mem_charBytes (Nat.le_of_not_lt hx) (hbytes ▸ List.mem_cons_self)
        rw [hbytes, List.cons_append, glyphsFrom] at h
        split at h
        · next ch n hfirst =>
          have hch := toNat_of_firstChar hfirst hb
          obtain rfl : ch = c := (List.cons.inj h).1
          exact absurd hc (Nat.not_lt_of_le hch)
        · obtain rfl : replacement = c := (List.cons.inj h).1
          exact absurd hc (by decide)

/-- A text that is seen as ASCII is what is seen. -/
theorem eq_of_characters : ∀ {seen : List Char}, (∀ c ∈ seen, c.toNat < 0x80) → ∀ {cs : List Char},
    characters (String.ofList cs) = seen → cs = seen
  | [], _, cs, h => by
    rw [characters_eq, List.map_eq_nil_iff, toBytes, String.toList_ofList] at h
    refine eq_nil_of_bytes ?_
    cases hbytes : cs.flatMap charBytes with
    | nil => rfl
    | cons b bs =>
      rw [hbytes, glyphsFrom] at h
      split at h <;> cases h
  | c :: seen, hall, cs, h => by
    obtain ⟨hc, hseen⟩ := List.forall_mem_cons.1 hall
    obtain ⟨rest, rfl, hrest⟩ := exists_of_characters_cons hc h
    rw [eq_of_characters hseen hrest]

/-- A text that is seen to begin with ASCII begins with it. -/
theorem prefix_characters_iff {m : String} (hm : isAscii m = true) {s : String} :
    m.toList <+: characters s ↔ m.toList <+: s.toList := by
  have hall : ∀ c ∈ m.toList, c.toNat < 0x80 := by simpa [isAscii] using hm
  constructor
  · have hcs : ∀ ms : List Char, (∀ c ∈ ms, c.toNat < 0x80) →
        ∀ cs, ms <+: characters (String.ofList cs) → ms <+: cs := by
      intro ms hms
      induction ms with
      | nil => exact fun cs _ => List.nil_prefix
      | cons c ms ih =>
        rintro cs ⟨seen, hseen⟩
        obtain ⟨hc, hrest⟩ := List.forall_mem_cons.1 hms
        obtain ⟨rest, rfl, hcharacters⟩ := exists_of_characters_cons hc hseen.symm
        exact List.cons_prefix_cons.2 ⟨rfl, ih hrest rest ⟨seen, hcharacters.symm⟩⟩
    intro h
    rw [← String.ofList_toList (s := s)] at h
    exact hcs m.toList hall s.toList h
  · rintro ⟨rest, hrest⟩
    have hs : s = m ++ String.ofList rest := by
      rw [← String.toList_inj, String.toList_append, String.toList_ofList, hrest]
    rw [hs, characters_ascii_append hm]
    exact List.prefix_append _ _

/-- Joined texts in two parts have the separator between them. -/
theorem join_append (sep : String) {as bs : List String} (ha : as ≠ []) (hb : bs ≠ []) :
    join sep (as ++ bs) = join sep as ++ (sep ++ join sep bs) := by
  have hcons (s : String) {rest : List String} (h : rest ≠ []) :
      join sep (s :: rest) = s ++ sep ++ join sep rest := by
    cases rest with
    | nil => exact absurd rfl h
    | cons => rfl
  induction as with
  | nil => exact absurd rfl ha
  | cons a as ih =>
    by_cases has : as = []
    · rw [has, List.singleton_append, hcons a hb, join, String.append_assoc]
    · rw [List.cons_append, hcons a (List.append_ne_nil_of_left_ne_nil has bs), hcons a has, ih has]
      simp only [String.append_assoc]

/-! ## Beginnings -/

/-- The rest behind a beginning is what makes the whole with it. -/
theorem afterStart_eq_some_iff {start cs rest : List Char} :
    afterStart start cs = some rest ↔ cs = start ++ rest := by
  refine ⟨eq_append_of_afterStart, ?_⟩
  rintro rfl
  induction start with
  | nil => rfl
  | cons s start ih => rwa [List.cons_append, afterStart, if_pos rfl]

/-- Characters begin with their prefixes. -/
theorem beginsWith_iff {start cs : List Char} : beginsWith start cs = true ↔ start <+: cs := by
  rw [beginsWith, Option.isSome_iff_exists]
  simp only [afterStart_eq_some_iff]
  exact exists_congr fun _ => eq_comm

/-- What has no separator begins the part before it. -/
theorem prefix_append_cons_iff {c : Char} {p s t : List Char} (hc : c ∉ p) :
    p <+: s ++ c :: t ↔ p <+: s := by
  refine ⟨fun h => ?_, fun h => h.trans (List.prefix_append s _)⟩
  rcases Nat.lt_or_ge s.length p.length with hlt | hle
  · have hwhole : s ++ [c] <+: s ++ c :: t := ⟨t, by rw [List.append_assoc, List.singleton_append]⟩
    have hlen : (s ++ [c]).length ≤ p.length := by simpa using Nat.succ_le_of_lt hlt
    have hsep : s ++ [c] <+: p := List.prefix_of_prefix_length_le hwhole h hlen
    exact absurd (hsep.subset (by simp)) hc
  · exact List.prefix_of_prefix_length_le h (List.prefix_append s _) hle

/-- What has a separator agrees with a text up to the first one there. -/
theorem append_cons_prefix_iff {c : Char} {k u v : List Char} (hk : c ∉ k) :
    ∀ {l : List Char}, c ∉ l → (k ++ c :: u <+: l ++ c :: v ↔ k = l ∧ u <+: v) := by
  induction k with
  | nil =>
    intro l hl
    cases l with
    | nil => simp
    | cons x l => simp [List.ne_of_not_mem_cons hl]
  | cons y k ih =>
    intro l hl
    cases l with
    | nil => simp [(List.ne_of_not_mem_cons hk).symm]
    | cons x l =>
      rw [List.cons_append, List.cons_append, List.cons_prefix_cons, List.cons.injEq,
        ih (List.not_mem_of_not_mem_cons hk) (List.not_mem_of_not_mem_cons hl), and_assoc]

end InfraSmells.Text
