import InfraSmells.Proofs.Datum.JsonNumber
import InfraSmells.Proofs.Datum.Written

/-!
# Reading written JSON

`Datum.ofJson?_write`: written data, on one line or broken into lines, are read back as they were,
but for the form of their numbers. A text is read character by character
(`Json.readString_write`), and a value by induction over its parts: `Json.Reads` states that a
text, followed by anything that could not belong to it, is read as a datum, given as many steps as
it has characters. Data without numbers are read back as they were (`Datum.IsFixed.ofJson?_toJson`),
and data whose texts hold bytes outside characters are read back as their reader sees them
(`Datum.IsShown.ofJson?_write`).
-/

namespace InfraSmells.Json

/-! ## Strings -/

/-- A hexadecimal digit is read back. -/
theorem hex?_hexDigit : ∀ n < 16, hex? (Text.hexDigit n) = some n := by
  decide

/-- Four hexadecimal digits are read back. -/
theorem hex4?_hexDigits {n : Nat} (h : n < 65536) (rest : List Char) :
    hex4? (Text.hexDigits 4 n ++ rest) = some (n, rest) := by
  have hn : ((n / 16 / 16 / 16 % 16 * 16 + n / 16 / 16 % 16) * 16 + n / 16 % 16) * 16 + n % 16 =
      n := by omega
  simp only [Text.hexDigits, List.nil_append, List.cons_append, hex4?,
    hex?_hexDigit _ (Nat.mod_lt _ (by decide : 0 < 16)), Option.bind_eq_bind, Option.bind_some,
    Option.pure_def, hn]

/-- A backslash begins an escape: it neither ends a string nor is it refused in one. -/
theorem backslash_escapes :
    ('\\' == '"') = false ∧ ¬ ('\\' : Char).toNat < 0x20 ∧ ('\\' == '\\') = true := by
  decide

/-- A character that is written as an escape with its number is read back. -/
theorem readString_number {c : Char} (h : c.toNat < 0xD800) (fuel : Nat) (rest : List Char) :
    readString (fuel + 1) ('\\' :: 'u' :: (Text.hexDigits 4 c.toNat ++ rest)) =
      (readString fuel rest).map fun (s, r) => (c :: s, r) := by
  have hhigh : isHigh c.toNat = false := by
    simp only [isHigh, Bool.and_eq_false_iff, decide_eq_false_iff_not]
    omega
  have hlow : isLow c.toNat = false := by
    simp only [isLow, Bool.and_eq_false_iff, decide_eq_false_iff_not]
    omega
  have ⟨hquote, hcontrol, hescape⟩ := backslash_escapes
  conv_lhs => unfold readString
  simp only [hquote, hcontrol, hescape, hex4?_hexDigits (show c.toNat < 65536 by omega) rest,
    Option.bind_eq_bind, Option.bind_some, hhigh, hlow, Char.ofNat_toNat, Bool.or_self,
    Bool.false_eq_true, if_false, if_true]
  cases readString fuel rest <;> rfl

/-- A character that is written as it is, is read back. -/
theorem readString_raw {c : Char} (hq : c ≠ '"') (hb : c ≠ '\\') (h : 0x20 ≤ c.toNat) (fuel : Nat)
    (rest : List Char) :
    readString (fuel + 1) (c :: rest) = (readString fuel rest).map fun (s, r) => (c :: s, r) := by
  have hq' : (c == '"') = false := by simpa using hq
  have hb' : (c == '\\') = false := by simpa using hb
  conv_lhs => unfold readString
  simp only [hq', hb', Nat.not_lt.2 h, Bool.false_eq_true, if_false]
  cases readString fuel rest <;> rfl

/-- A character that is written as an escape of one letter is read back. -/
theorem readString_letter {e c : Char} (hu : e ≠ 'u') (he : escape? e = some c) (fuel : Nat)
    (rest : List Char) :
    readString (fuel + 1) ('\\' :: e :: rest) =
      (readString fuel rest).map fun (s, r) => (c :: s, r) := by
  have ⟨hquote, hcontrol, hescape⟩ := backslash_escapes
  conv_lhs => unfold readString
  simp only [hquote, hcontrol, hescape, Bool.false_eq_true, if_false, if_true]
  rw [he]
  cases readString fuel rest <;> rfl

/-- A written character is read back. -/
theorem readString_writeChar (c : Char) (fuel : Nat) (rest : List Char) :
    readString (fuel + 1) (writeChar c ++ rest) =
      (readString fuel rest).map fun (s, r) => (c :: s, r) := by
  unfold writeChar
  split
  · exact readString_letter (by decide) rfl fuel rest
  · exact readString_letter (by decide) rfl fuel rest
  · exact readString_letter (by decide) rfl fuel rest
  · exact readString_letter (by decide) rfl fuel rest
  · exact readString_letter (by decide) rfl fuel rest
  · next hq hb _ _ _ =>
    have hself (n : Nat) (h : (c.toNat == n) = true) : Char.ofNat n = c := by
      rw [← eq_of_beq h, Char.ofNat_toNat]
    split
    · next h =>
      rw [← hself 8 h]
      exact readString_letter (by decide) rfl fuel rest
    split
    · next h =>
      rw [← hself 12 h]
      exact readString_letter (by decide) rfl fuel rest
    split
    · next h =>
      refine readString_number ?_ fuel rest
      simp only [Bool.or_eq_true, decide_eq_true_eq, beq_iff_eq] at h
      rcases h with ((((h | rfl) | rfl) | rfl) | h) | h
      all_goals first | omega | decide
    · next h =>
      simp only [Bool.or_eq_true, decide_eq_true_eq, not_or] at h
      exact readString_raw hq hb (by omega) fuel rest

/-- A written character is written with at least one. -/
theorem length_writeChar_pos (c : Char) : 0 < (writeChar c).length := by
  unfold writeChar
  split <;> try exact Nat.succ_pos _
  split <;> try exact Nat.succ_pos _
  split <;> try exact Nat.succ_pos _
  split <;> exact Nat.succ_pos _

/-- A written string is read back. -/
theorem readString_write (cs rest : List Char) {fuel : Nat}
    (h : (cs.flatMap writeChar).length < fuel) :
    readString fuel (cs.flatMap writeChar ++ '"' :: rest) = some (cs, rest) := by
  induction cs generalizing fuel with
  | nil =>
    obtain ⟨fuel, rfl⟩ := Nat.exists_eq_add_one_of_ne_zero (Nat.ne_of_gt h)
    rfl
  | cons c cs ih =>
    obtain ⟨fuel, rfl⟩ := Nat.exists_eq_add_one_of_ne_zero (Nat.ne_zero_of_lt h)
    have hc := length_writeChar_pos c
    rw [List.flatMap_cons, List.length_append] at h
    rw [List.flatMap_cons, List.append_assoc, readString_writeChar, ih (by omega)]
    rfl

/-- What stands behind the quote that opens a string is enough fuel for the string. -/
theorem readString_self (cs rest : List Char) :
    readString ((cs.flatMap writeChar ++ '"' :: rest).length + 1)
      (cs.flatMap writeChar ++ '"' :: rest) = some (cs, rest) := by
  refine readString_write cs rest ?_
  rw [List.length_append]
  omega

/-! ## Numbers -/

/-- The number that is read where one was written. -/
def reread (n : Numeral) : Numeral :=
  ((readNumber (writeNumber n).toList).map Prod.fst).getD n

/-- Nothing could go on with a number at the end of a text. -/
theorem ends_nil : Ends [] := by
  rintro c ⟨⟩

/-- An integer is read as a decimal number without an exponent. -/
theorem reread_integer (n : Int) : reread (.integer n) = .decimal (n < 0) n.natAbs 0 true := by
  have h := readNumber_integer n ends_nil
  rw [List.append_nil] at h
  rw [reread, h]
  rfl

/-- A finite floating-point number is read as a number that is rounded to it. -/
theorem toBinary64?_reread {x : Binary64} (hx : x.isFinite = true) :
    (reread (.float x)).toBinary64? = some x := by
  obtain ⟨n, hn, hread⟩ := readNumber_float hx
  have h := hread [] ends_nil
  rw [List.append_nil] at h
  rw [reread, h]
  exact hn

/-- A written number is read, whatever follows it. -/
theorem readNumber_writeNumber {n : Numeral} (h : (Datum.number n).IsWritten) {rest : List Char}
    (hr : Ends rest) :
    readNumber ((writeNumber n).toList ++ rest) = some (reread n, rest) := by
  cases n with
  | integer n => rw [readNumber_integer n hr, reread_integer]
  | float x =>
    obtain ⟨n, hn, hread⟩ := readNumber_float (x := x) h
    have h := hread [] ends_nil
    rw [List.append_nil] at h
    rw [hread rest hr, reread, h]
    rfl
  | decimal => exact absurd h (by simp [Datum.IsWritten])
  | single => exact absurd h (by simp [Datum.IsWritten])

/-! ## Values -/

/-- The characters begin with one that is neither white space nor the end of a list or table. -/
def Opens (cs : List Char) : Prop :=
  ∃ c cs', cs = c :: cs' ∧ isSpace c = false ∧ c ≠ ']' ∧ c ≠ '\x7d'

/-- The text, followed by anything that could not go on with it, is read as a datum of at most
`depth` levels, given as many steps as it has characters. -/
def Reads (depth : Nat) (s : String) (d : Datum) : Prop :=
  ∃ cs, s = Text.ofCharacters cs ∧ Opens cs ∧ ∀ fuel rest, cs.length ≤ fuel → Ends rest →
    readValue fuel depth (cs ++ rest) = some (d, rest)

/-- White space in front of other characters is dropped. -/
theorem dropWhile_space {lead cs : List Char} (hlead : ∀ c ∈ lead, isSpace c = true) :
    (lead ++ cs).dropWhile isSpace = cs.dropWhile isSpace :=
  List.dropWhile_append_of_pos hlead

/-- Characters that open a value are kept when white space is dropped. -/
theorem Opens.dropWhile_append {cs : List Char} (h : Opens cs) (rest : List Char) :
    (cs ++ rest).dropWhile isSpace = cs ++ rest := by
  obtain ⟨c, cs', rfl, hc, -⟩ := h
  rw [List.cons_append, List.dropWhile_cons_of_neg (by simp [hc])]

/-- White space in front of a value does not matter. -/
theorem readValue_space {lead : List Char} (hlead : ∀ c ∈ lead, isSpace c = true)
    (fuel depth : Nat) (cs : List Char) :
    readValue fuel depth (lead ++ cs) = readValue fuel depth cs := by
  cases fuel with
  | zero => simp only [readValue]
  | succ fuel => simp only [readValue, dropWhile_space hlead]

/-- A sign and a digit open a value. -/
theorem opens_number {c : Char} (hc : c = '-' ∨ Text.isDigit c = true) :
    isSpace c = false ∧ c ≠ ']' ∧ c ≠ '\x7d' := by
  refine ⟨?_, ?_, ?_⟩
  · rw [← Bool.not_eq_true]
    intro h
    simp only [isSpace, Bool.or_eq_true, beq_iff_eq] at h
    rcases h with ((rfl | rfl) | rfl) | rfl <;> exact absurd hc (by decide)
  · rintro rfl
    exact absurd hc (by decide)
  · rintro rfl
    exact absurd hc (by decide)

/-- What begins with a sign or a digit is read as a number. -/
theorem readValue_number {c : Char} (hc : c = '-' ∨ Text.isDigit c = true) (fuel depth : Nat)
    (cs : List Char) :
    readValue (fuel + 1) depth (c :: cs) =
      (readNumber (c :: cs)).map fun (n, rest) => (.number n, rest) := by
  have hspace : ¬isSpace c = true := by
    rw [(opens_number hc).1]
    exact Bool.false_ne_true
  have hne (d : Char) (hd : ¬(d = '-' ∨ Text.isDigit d = true)) : c ≠ d :=
    fun h => hd (h ▸ hc)
  simp only [readValue, List.dropWhile_cons_of_neg hspace]
  split
  all_goals first
    | rfl
    | next heq => exact absurd (List.cons.inj heq).1 (hne _ (by decide))

/-! ## Items between brackets -/

section
variable {α : Type} {close : Char} {read : Nat → List Char → Option (List α × List Char)}

/-- How the reader of a row goes on behind an item: past a comma with the other items, past the
closing bracket with none. -/
def goOn (close : Char) (read : List Char → Option (List α × List Char)) (a : α)
    (rest : List Char) : Option (List α × List Char) :=
  match rest.dropWhile isSpace with
  | ',' :: cs => (read cs).map fun (as, rest) => (a :: as, rest)
  | c :: rest => if c = close then some ([a], rest) else none
  | [] => none

/-- The text, with white space in front, is read as an item of a row. -/
def ReadsItem (close : Char) (read : Nat → List Char → Option (List α × List Char)) (s : String)
    (a : α) : Prop :=
  ∃ cs, s = Text.ofCharacters cs ∧ Opens cs ∧ ∀ fuel lead rest, cs.length ≤ fuel →
    (∀ c ∈ lead, isSpace c = true) → Ends rest →
    read (fuel + 1) (lead ++ (cs ++ rest)) = goOn close (read fuel) a rest

/-- A closing bracket. -/
def Closes (close : Char) : Prop :=
  close = ']' ∨ close = '\x7d'

/-- Nothing that goes on with a number stands at the end of a row. -/
theorem ends_close (hclose : Closes close) {tail : List Char}
    (htail : ∀ c ∈ tail, isSpace c = true) (rest : List Char) : Ends (tail ++ close :: rest) := by
  have hspace (c : Char) (hc : isSpace c = true) :
      Text.isDigit c = false ∧ c ≠ '.' ∧ c ≠ 'e' ∧ c ≠ 'E' := by
    simp only [isSpace, Bool.or_eq_true, beq_iff_eq] at hc
    rcases hc with ((rfl | rfl) | rfl) | rfl <;> decide
  cases tail with
  | nil =>
    rintro c ⟨⟩
    rcases hclose with rfl | rfl <;> decide
  | cons t tail =>
    rintro c ⟨⟩
    exact hspace _ (htail _ (.head _))

/-- Nothing is read where neither a comma nor the closing bracket stands. -/
theorem goOn_none {read : List Char → Option (List α × List Char)} {a : α} {rest : List Char}
    (hcomma : ∀ cs, rest.dropWhile isSpace = ',' :: cs → False)
    (hclosed : ∀ cs, rest.dropWhile isSpace = close :: cs → False) :
    goOn close read a rest = none := by
  unfold goOn
  split
  · next heq => exact absurd heq (hcomma _)
  · next heq =>
    rw [if_neg]
    rintro rfl
    exact hclosed _ heq
  · rfl

/-- Behind the last item the row is closed. -/
theorem goOn_close (hclose : Closes close) (read : List Char → Option (List α × List Char)) (a : α)
    {tail : List Char} (htail : ∀ c ∈ tail, isSpace c = true) (rest : List Char) :
    goOn close read a (tail ++ close :: rest) = some ([a], rest) := by
  unfold goOn
  rw [dropWhile_space htail]
  rcases hclose with rfl | rfl <;> rfl

/-- Items that are separated by commas are read one after the other. -/
theorem read_join (hclose : Closes close) {sep : String} {lead tail : List Char}
    (hlead : ∀ c ∈ lead, isSpace c = true) (htail : ∀ c ∈ tail, isSpace c = true)
    (hsep : sep = Text.ofCharacters (',' :: lead)) {ws : List String} {as : List α}
    (h : List.Forall₂ (ReadsItem close read) ws as) (hne : ws ≠ []) :
    ∃ cs, Text.join sep ws = Text.ofCharacters cs ∧ Opens cs ∧
      ∀ fuel front rest, cs.length < fuel → (∀ c ∈ front, isSpace c = true) →
        read fuel (front ++ (cs ++ (tail ++ close :: rest))) = some (as, rest) := by
  induction h with
  | nil => exact absurd rfl hne
  | @cons w a ws as hitem hrest ih =>
    obtain ⟨cs, rfl, hopens, hread⟩ := hitem
    cases hrest with
    | nil =>
      refine ⟨cs, rfl, hopens, fun fuel front rest hfuel hfront => ?_⟩
      obtain ⟨fuel, rfl⟩ := Nat.exists_eq_add_one_of_ne_zero (Nat.ne_zero_of_lt hfuel)
      rw [hread fuel front _ (by omega) hfront (ends_close hclose htail rest),
        goOn_close hclose _ _ htail]
    | @cons w' a' ws' as' hitem' hrest' =>
      obtain ⟨cs', hjoin, -, hread'⟩ := ih (List.cons_ne_nil _ _)
      refine ⟨cs ++ ',' :: (lead ++ cs'), ?_, ?_, fun fuel front rest hfuel hfront => ?_⟩
      · show Text.ofCharacters cs ++ sep ++ Text.join sep (w' :: ws') = _
        rw [hjoin, hsep, Text.ofCharacters_append, ← List.cons_append, Text.ofCharacters_append,
          String.append_assoc]
      · obtain ⟨c, cs'', rfl, hc⟩ := hopens
        exact ⟨c, _, rfl, hc⟩
      · obtain ⟨fuel, rfl⟩ := Nat.exists_eq_add_one_of_ne_zero (Nat.ne_zero_of_lt hfuel)
        simp only [List.length_append, List.length_cons] at hfuel
        have hends : Ends (',' :: (lead ++ cs' ++ (tail ++ close :: rest))) := by
          rintro c ⟨⟩
          decide
        rw [List.append_assoc, List.cons_append, hread fuel front _ (by omega) hfront hends]
        show (read fuel (lead ++ cs' ++ (tail ++ close :: rest))).map _ = _
        rw [List.append_assoc, hread' fuel lead rest (by omega) hlead]
        rfl

/-- A line break and its indentation are white space. -/
theorem newline_eq (n : Nat) : ∃ cs, newline n = Text.ofCharacters cs ∧
    ∀ c ∈ cs, isSpace c = true := by
  have hspace : ∀ c ∈ '\n' :: List.replicate (2 * n) ' ', isSpace c = true ∧ c.toNat < 0x80 := by
    intro c hc
    rcases List.mem_cons.1 hc with rfl | hc
    · decide
    · rw [(List.mem_replicate.1 hc).2]
      decide
  exact ⟨_, (Text.ofCharacters_ascii fun c hc => (hspace c hc).2).symm, fun c hc => (hspace c hc).1⟩

/-- A written row consists of brackets, white space and the items between commas. -/
theorem bracket_eq (op cl : String) (level : Option Nat) {ws : List String} (hne : ws ≠ []) :
    ∃ lead tail, (∀ c ∈ lead, isSpace c = true) ∧ (∀ c ∈ tail, isSpace c = true) ∧
      bracket op cl level ws =
        op ++ Text.ofCharacters lead ++ Text.join (Text.ofCharacters (',' :: lead)) ws ++
          Text.ofCharacters tail ++ cl := by
  cases ws with
  | nil => exact absurd rfl hne
  | cons w ws =>
    cases level with
    | none =>
      refine ⟨[], [], by simp, by simp, ?_⟩
      show op ++ Text.join "," (w :: ws) ++ cl = op ++ "" ++ Text.join "," (w :: ws) ++ "" ++ cl
      rw [String.append_empty, String.append_empty]
    | some n =>
      obtain ⟨lead, hlead, hspace⟩ := newline_eq (n + 1)
      obtain ⟨tail, htail, hspace'⟩ := newline_eq n
      refine ⟨lead, tail, hspace, hspace', ?_⟩
      have hsep : Text.ofCharacters (',' :: lead) = "," ++ Text.ofCharacters lead :=
        Text.ofCharacters_append [','] lead
      rw [hsep, ← hlead, ← htail]
      rfl

/-- A row between brackets is read behind the opening one, past the white space there. -/
theorem read_bracket (hclose : Closes close) (level : Option Nat) (opening : Char)
    {op cl : String} (hop : op = Text.ofCharacters [opening]) (hcl : cl = Text.ofCharacters [close])
    {ws : List String} {as : List α} (h : List.Forall₂ (ReadsItem close read) ws as)
    (hne : ws ≠ []) :
    ∃ cs row, bracket op cl level ws = Text.ofCharacters (opening :: cs) ∧ Opens row ∧
      ∀ fuel rest, cs.length ≤ fuel → ∃ rest', (cs ++ rest).dropWhile isSpace = row ++ rest' ∧
        read fuel (row ++ rest') = some (as, rest) := by
  obtain ⟨lead, tail, hlead, htail, heq⟩ := bracket_eq op cl level hne
  obtain ⟨row, hjoin, hopens, hread⟩ := read_join hclose hlead htail rfl h hne
  refine ⟨lead ++ (row ++ (tail ++ [close])), row, ?_, hopens, fun fuel rest hfuel =>
    ⟨tail ++ close :: rest, ?_, ?_⟩⟩
  · rw [heq, hjoin, hop, hcl]
    simp only [← Text.ofCharacters_append, List.append_assoc, List.cons_append, List.nil_append]
  · simp only [List.append_assoc, dropWhile_space hlead, List.singleton_append,
      hopens.dropWhile_append]
  · simp only [List.length_append, List.length_singleton] at hfuel
    exact hread fuel [] rest (by omega) (by simp)

end

section
variable {depth : Nat} {ws : List String}

/-- A written row is read as a value, if its items are read and the reader of values goes on with them
behind the opening bracket. -/
theorem reads_row {α : Type} {read : Nat → List Char → Option (List α × List Char)} {op cl : String}
    {as : List α} {close : Char} (opening : Char) (wrap : List α → Datum) (hclose : Closes close)
    (hop : op = Text.ofCharacters [opening]) (hcl : cl = Text.ofCharacters [close])
    (hopening : isSpace opening = false ∧ opening ≠ ']' ∧ opening ≠ '\x7d')
    (hnone : ∀ fuel rest,
      readValue (fuel + 1) (depth + 1) (opening :: close :: rest) = some (wrap [], rest))
    (hrow : ∀ fuel cs c cs', cs.dropWhile isSpace = c :: cs' → c ≠ close →
      readValue (fuel + 1) (depth + 1) (opening :: cs) =
        (read fuel (c :: cs')).map fun (as, rest) => (wrap as, rest))
    (level : Option Nat) (h : List.Forall₂ (ReadsItem close read) ws as) :
    Reads (depth + 1) (bracket op cl level ws) (wrap as) := by
  cases ws with
  | nil =>
    cases h
    refine ⟨[opening, close], by rw [hop, hcl]; exact (Text.ofCharacters_append [opening] [close]).symm,
      ⟨_, _, rfl, hopening⟩, fun fuel rest hfuel _ => ?_⟩
    obtain ⟨fuel, rfl⟩ := Nat.exists_eq_add_one_of_ne_zero (Nat.ne_zero_of_lt hfuel)
    exact hnone fuel rest
  | cons w ws =>
    obtain ⟨cs, row, heq, ⟨c, row', rfl, -, hlist, htable⟩, hread⟩ :=
      read_bracket hclose level opening hop hcl h (List.cons_ne_nil _ _)
    refine ⟨opening :: cs, heq, ⟨_, _, rfl, hopening⟩, fun fuel rest hfuel _ => ?_⟩
    obtain ⟨fuel, rfl⟩ := Nat.exists_eq_add_one_of_ne_zero (Nat.ne_zero_of_lt hfuel)
    obtain ⟨rest', hdrop, hitems⟩ := hread fuel rest (Nat.le_of_succ_le_succ hfuel)
    have hc : c ≠ close := by
      rcases hclose with rfl | rfl
      · exact hlist
      · exact htable
    rw [List.cons_append] at hdrop hitems
    rw [List.cons_append, hrow fuel _ c _ hdrop hc, hitems]
    rfl

/-- A written list is read, if its items are. -/
theorem reads_list (level : Option Nat) {ds : List Datum}
    (h : List.Forall₂ (ReadsItem ']' (readItems · depth)) ws ds) :
    Reads (depth + 1) (bracket "[" "]" level ws) (.list ds) := by
  refine reads_row '[' .list (.inl rfl) rfl rfl (by decide) (fun _ _ => rfl)
    (fun fuel cs c cs' hdrop hc => ?_) level h
  rw [readValue, List.dropWhile_cons_of_neg (by decide)]
  simp only [Nat.add_one_ne_zero, if_false, hdrop, Nat.add_sub_cancel]
  split
  · next hclosed => exact absurd (List.cons.inj hclosed).1 hc
  · rfl

/-- A written table is read, if its members are. -/
theorem reads_table (level : Option Nat) {ms : List (String × Datum)}
    (h : List.Forall₂ (ReadsItem '\x7d' (readMembers · depth)) ws ms) :
    Reads (depth + 1) (bracket "\x7b" "\x7d" level ws) (.table ms) := by
  refine reads_row '\x7b' .table (.inr rfl) rfl rfl (by decide) (fun _ _ => rfl)
    (fun fuel cs c cs' hdrop hc => ?_) level h
  rw [readValue, List.dropWhile_cons_of_neg (by decide)]
  simp only [Nat.add_one_ne_zero, if_false, hdrop, Nat.add_sub_cancel]
  split
  · next hclosed => exact absurd (List.cons.inj hclosed).1 hc
  · rfl

/-- A value that is read is read as an item of a list. -/
theorem Reads.item {w : String} {d : Datum} (h : Reads depth w d) :
    ReadsItem ']' (readItems · depth) w d := by
  obtain ⟨cs, hw, hopens, hread⟩ := h
  refine ⟨cs, hw, hopens, fun fuel lead rest hfuel hlead hends => ?_⟩
  show readItems (fuel + 1) depth _ = _
  rw [readItems, readValue_space hlead, hread fuel rest hfuel hends]
  simp only [Option.bind_eq_bind, Option.bind_some]
  split
  · next heq =>
    simp only [goOn, heq]
    cases readItems fuel depth _ <;> rfl
  · next heq => simp only [goOn, heq]; rfl
  · next hcomma hclosed => exact (goOn_none hcomma hclosed).symm

/-- A written string. -/
theorem writeString_eq {k : String} {cs : List Char} (hk : k = Text.ofCharacters cs) :
    writeString k = Text.ofCharacters ('"' :: (cs.flatMap writeChar ++ ['"'])) := by
  rw [writeString, hk, Text.characters_ofCharacters]
  rfl

/-- A text is written as its reader sees it. -/
theorem writeString_readable (s : String) : writeString (Text.readable s) = writeString s :=
  writeString_eq rfl

/-- A value that is read is read as the value of a member, behind its name. -/
theorem Reads.member {k w : String} {d : Datum} (h : Reads depth w d) (hk : Text.IsPlain k)
    (broken : Bool) :
    ReadsItem '\x7d' (readMembers · depth) (writeString k ++ (if broken then ": " else ":") ++ w)
      (k, d) := by
  obtain ⟨name, rfl⟩ := hk
  obtain ⟨cs, hw, hopens, hread⟩ := h
  obtain ⟨gap, hgap, hspace⟩ : ∃ gap,
      (if broken then ": " else ":") = Text.ofCharacters (':' :: gap) ∧
        ∀ c ∈ gap, isSpace c = true := by
    cases broken with
    | true => exact ⟨[' '], rfl, by simp [isSpace]⟩
    | false => exact ⟨[], rfl, by simp⟩
  refine ⟨'"' :: (name.flatMap writeChar ++ '"' :: ':' :: (gap ++ cs)), ?_,
    ⟨_, _, rfl, rfl, by decide⟩, fun fuel lead rest hfuel hlead hends => ?_⟩
  · rw [writeString_eq rfl, hgap, hw]
    simp only [← Text.ofCharacters_append, List.append_assoc, List.cons_append, List.nil_append]
  · simp only [List.length_cons, List.length_append] at hfuel
    show readMembers (fuel + 1) depth _ = _
    have hcolon : ¬isSpace ':' = true := by decide
    rw [readMembers, dropWhile_space hlead, List.cons_append,
      List.dropWhile_cons_of_neg (by decide), List.append_assoc, List.cons_append]
    simp only [readString_self, List.cons_append, List.dropWhile_cons_of_neg hcolon,
      List.append_assoc, readValue_space hspace, hread fuel rest (by omega) hends,
      Option.bind_eq_bind, Option.bind_some]
    split
    · next heq =>
      simp only [goOn, heq]
      cases readMembers fuel depth _ <;> rfl
    · next heq => simp only [goOn, heq]; rfl
    · next hcomma hclosed => exact (goOn_none hcomma hclosed).symm

end

/-! ## Written data -/

/-- A word that stands for a value is read. -/
theorem reads_word {depth : Nat} {d : Datum} (c : Char) (cs : List Char) {s : String}
    (hs : s = Text.ofCharacters (c :: cs)) (hc : isSpace c = false ∧ c ≠ ']' ∧ c ≠ '\x7d')
    (h : ∀ fuel rest, readValue (fuel + 1) depth (c :: cs ++ rest) = some (d, rest)) :
    Reads depth s d := by
  refine ⟨c :: cs, hs, ⟨c, cs, rfl, hc⟩, fun fuel rest hfuel _ => ?_⟩
  obtain ⟨fuel, rfl⟩ := Nat.exists_eq_add_one_of_ne_zero (Nat.ne_zero_of_lt hfuel)
  exact h fuel rest

/-- A written string is read. -/
theorem reads_string (depth : Nat) {s : String} (hs : Text.IsPlain s) :
    Reads depth (writeString s) (.text s) := by
  obtain ⟨cs, rfl⟩ := hs
  refine reads_word _ _ (writeString_eq rfl) (by decide) fun fuel rest => ?_
  rw [List.cons_append, readValue, List.dropWhile_cons_of_neg (by decide)]
  simp only [List.append_assoc, List.singleton_append, readString_self]
  rfl

/-- A written number is read, but for its form. -/
theorem reads_number (depth : Nat) {n : Numeral} (h : (Datum.number n).IsWritten) :
    Reads depth (writeNumber n) (.number (reread n)) := by
  have hread := readNumber_writeNumber h ends_nil
  rw [List.append_nil] at hread
  obtain ⟨⟨c, cs, hcs, hc⟩, used, hused, hascii⟩ := readNumber_ascii hread
  rw [List.append_nil] at hused
  rw [← hused, hcs] at hascii
  have htext : writeNumber n = Text.ofCharacters (c :: cs) := by
    rw [Text.ofCharacters_ascii hascii, ← hcs, String.ofList_toList]
  refine ⟨c :: cs, htext, ⟨c, cs, rfl, opens_number hc⟩, fun fuel rest hfuel hends => ?_⟩
  obtain ⟨fuel, rfl⟩ := Nat.exists_eq_add_one_of_ne_zero (Nat.ne_zero_of_lt hfuel)
  rw [List.cons_append, readValue_number hc, ← List.cons_append, ← hcs,
    readNumber_writeNumber h hends]
  rfl

mutual

/-- Written data are read. -/
theorem reads_write (level : Option Nat) : ∀ (d : Datum) {depth : Nat}, d.IsWritten →
    d.depth ≤ depth → Reads depth (write level d) (d.withNumbers reread)
  | .null, _, _, _ => reads_word 'n' ['u', 'l', 'l'] rfl (by decide) fun _ _ => rfl
  | .flag true, _, _, _ => reads_word 't' ['r', 'u', 'e'] rfl (by decide) fun _ _ => rfl
  | .flag false, _, _, _ => reads_word 'f' ['a', 'l', 's', 'e'] rfl (by decide) fun _ _ => rfl
  | .text _, _, h, _ => reads_string _ h
  | .number _, _, h, _ => reads_number _ h
  | .list xs, depth, h, hdepth => by
    simp only [Datum.depth] at hdepth
    obtain ⟨depth, rfl⟩ := Nat.exists_eq_add_one_of_ne_zero (Nat.ne_zero_of_lt hdepth)
    exact reads_list level (reads_writeItems _ xs h (Nat.le_of_succ_le_succ hdepth))
  | .table ms, depth, h, hdepth => by
    simp only [Datum.depth] at hdepth
    obtain ⟨depth, rfl⟩ := Nat.exists_eq_add_one_of_ne_zero (Nat.ne_zero_of_lt hdepth)
    exact reads_table level (reads_writeMembers _ ms h (Nat.le_of_succ_le_succ hdepth))

/-- The written items of a list are read. -/
theorem reads_writeItems (level : Option Nat) : ∀ (ds : List Datum) {depth : Nat},
    Datum.ItemsWritten ds → Datum.itemsDepth ds ≤ depth →
    List.Forall₂ (ReadsItem ']' (readItems · depth)) (writeItems level ds)
      (Datum.withNumbersItems reread ds)
  | [], _, _, _ => .nil
  | d :: ds, _, h, hdepth =>
    .cons (reads_write level d h.1 (le_trans (le_max_left _ _) hdepth)).item
      (reads_writeItems level ds h.2 (le_trans (le_max_right _ _) hdepth))

/-- The written members of a table are read. -/
theorem reads_writeMembers (level : Option Nat) : ∀ (ms : List (String × Datum)) {depth : Nat},
    Datum.MembersWritten ms → Datum.membersDepth ms ≤ depth →
    List.Forall₂ (ReadsItem '\x7d' (readMembers · depth)) (writeMembers level ms)
      (Datum.withNumbersMembers reread ms)
  | [], _, _, _ => .nil
  | (_, d) :: ms, _, h, hdepth =>
    .cons ((reads_write level d h.2.1 (le_trans (le_max_left _ _) hdepth)).member h.1 level.isSome)
      (reads_writeMembers level ms h.2.2 (le_trans (le_max_right _ _) hdepth))

end

/-! ## Data that are read -/

/-- A number that is read is a decimal one. -/
theorem readNumber_decimal {cs rest : List Char} {n : Numeral}
    (h : readNumber cs = some (n, rest)) :
    ∃ negative mantissa exponent whole, n = .decimal negative mantissa exponent whole := by
  unfold readNumber at h
  simp only [Option.bind_eq_bind, Option.bind_eq_some_iff] at h
  obtain ⟨_, -, ⟨f, u⟩, -, ⟨scaled, e, v⟩, -, heq⟩ := h
  cases heq
  exact ⟨_, _, _, _, rfl⟩

mutual

/-- A value that is read holds what JSON can write. -/
theorem isRead_readValue : ∀ (fuel depth : Nat) {cs rest : List Char} {d : Datum},
    readValue fuel depth cs = some (d, rest) → d.IsRead
  | 0, _, _, _, _, h => by simp [readValue] at h
  | fuel + 1, depth, cs, rest, d, h => by
    rw [readValue] at h
    split at h
    · obtain ⟨⟨s, r⟩, -, heq⟩ := Option.map_eq_some_iff.1 h
      cases heq
      exact Text.isPlain_ofCharacters s
    · split at h
      · cases h
      split at h
      · cases h
        exact trivial
      · obtain ⟨⟨ms, r⟩, hms, heq⟩ := Option.map_eq_some_iff.1 h
        cases heq
        exact isRead_readMembers fuel _ hms
    · split at h
      · cases h
      split at h
      · cases h
        exact trivial
      · obtain ⟨⟨xs, r⟩, hxs, heq⟩ := Option.map_eq_some_iff.1 h
        cases heq
        exact isRead_readItems fuel _ hxs
    · cases h
      exact trivial
    · cases h
      exact trivial
    · cases h
      exact trivial
    · obtain ⟨⟨n, r⟩, hn, heq⟩ := Option.map_eq_some_iff.1 h
      cases heq
      obtain ⟨negative, mantissa, exponent, whole, rfl⟩ := readNumber_decimal hn
      exact trivial

/-- The items that are read hold what JSON can write. -/
theorem isRead_readItems : ∀ (fuel depth : Nat) {cs rest : List Char} {ds : List Datum},
    readItems fuel depth cs = some (ds, rest) → Datum.ItemsRead ds
  | 0, _, _, _, _, h => by simp [readItems] at h
  | fuel + 1, depth, cs, rest, ds, h => by
    simp only [readItems, Option.bind_eq_bind, Option.bind_eq_some_iff] at h
    obtain ⟨⟨d, cs'⟩, hd, h⟩ := h
    have hd := isRead_readValue fuel depth hd
    split at h
    · obtain ⟨⟨ds', r⟩, hds, heq⟩ := Option.bind_eq_some_iff.1 h
      cases heq
      exact ⟨hd, isRead_readItems fuel depth hds⟩
    · cases h
      exact ⟨hd, trivial⟩
    · cases h

/-- The members that are read hold what JSON can write. -/
theorem isRead_readMembers : ∀ (fuel depth : Nat) {cs rest : List Char}
    {ms : List (String × Datum)}, readMembers fuel depth cs = some (ms, rest) → Datum.MembersRead ms
  | 0, _, _, _, _, h => by simp [readMembers] at h
  | fuel + 1, depth, cs, rest, ms, h => by
    rw [readMembers] at h
    split at h
    · obtain ⟨⟨name, cs'⟩, -, h⟩ := Option.bind_eq_some_iff.1 h
      dsimp only at h
      split at h
      · obtain ⟨⟨d, cs''⟩, hd, h⟩ := Option.bind_eq_some_iff.1 h
        have hd := isRead_readValue fuel depth hd
        dsimp only at h
        split at h
        · obtain ⟨⟨ms', r⟩, hms, heq⟩ := Option.bind_eq_some_iff.1 h
          cases heq
          exact ⟨hd, isRead_readMembers fuel depth hms⟩
        · cases h
          exact ⟨hd, trivial⟩
        · cases h
      · cases h
    · cases h

end

end InfraSmells.Json

namespace InfraSmells.Datum

/-- The datum of a JSON text holds what JSON can write. -/
theorem isRead_of_ofJson? {s : String} {d : Datum} (h : ofJson? s = some d) : d.IsRead := by
  simp only [ofJson?, Option.bind_eq_bind, Option.bind_eq_some_iff] at h
  obtain ⟨⟨d', rest⟩, hread, _, -, heq⟩ := h
  cases heq
  exact Json.isRead_readValue _ _ hread

/-- Written data of no more levels than a text may have are read back, but for the form of their
numbers; white space behind them does not matter. -/
theorem ofJson?_write_space (level : Option Nat) {d : Datum} (h : d.IsWritten)
    (hdepth : d.depth ≤ Json.maxDepth) (space : List Char) (hspace : space.all Json.isSpace) :
    ofJson? (Json.write level d ++ Text.ofCharacters space) =
      some (d.withNumbers Json.reread) := by
  obtain ⟨cs, heq, -, hread⟩ := Json.reads_write level d h hdepth
  have hends : Json.Ends space := by
    intro c hc
    have hc := List.all_eq_true.1 hspace c (List.mem_of_mem_head? hc)
    simp only [Json.isSpace, Bool.or_eq_true, beq_iff_eq] at hc
    rcases hc with ((rfl | rfl) | rfl) | rfl <;> decide
  have hlength : cs.length ≤ (cs ++ space).length + 1 := by
    rw [List.length_append]
    omega
  have hguard : (guard (space.all Json.isSpace = true) : Option Unit) = some () := if_pos hspace
  rw [heq, ← Text.ofCharacters_append]
  simp only [ofJson?, Text.characters_ofCharacters, hread _ space hlength hends,
    Option.bind_eq_bind, Option.bind_some]
  exact congrArg (·.bind fun _ => some (d.withNumbers Json.reread)) hguard

/-- Written data of no more levels than a text may have are read back, but for the form of their
numbers. -/
theorem ofJson?_write (level : Option Nat) {d : Datum} (h : d.IsWritten)
    (hdepth : d.depth ≤ Json.maxDepth) :
    Text.IsPlain (Json.write level d) ∧
      ofJson? (Json.write level d) = some (d.withNumbers Json.reread) := by
  obtain ⟨cs, heq, -, -⟩ := Json.reads_write level d h hdepth
  have hread := ofJson?_write_space level h hdepth [] rfl
  rw [heq, ← Text.ofCharacters_append, List.append_nil, ← heq] at hread
  exact ⟨⟨cs, heq⟩, hread⟩

/-! ## Data without numbers -/

/-- Written data of at most `n` levels whose form no reader changes. -/
structure IsFixed (n : Nat) (d : Datum) : Prop where
  written : d.IsWritten
  depth : d.depth ≤ n
  numbers : ∀ f, d.withNumbers f = d

section
variable {n : Nat} {d : Datum}

/-- Such data are read back from their JSON text. -/
theorem IsFixed.ofJson?_toJson (h : IsFixed n d) (hn : n ≤ Json.maxDepth) :
    ofJson? d.toJson = some d :=
  (ofJson?_write none h.written (h.depth.trans hn)).2.trans (congrArg some (h.numbers _))

/-- A list of such data. -/
theorem IsFixed.list {ds : List Datum} (h : ∀ d ∈ ds, IsFixed n d) :
    IsFixed (n + 1) (.list ds) where
  written := itemsWritten_iff.2 fun d hd => (h d hd).written
  depth := Nat.succ_le_succ (itemsDepth_le_iff.2 fun d hd => (h d hd).depth)
  numbers f := by
    rw [withNumbers, withNumbersItems_eq, List.map_congr_left fun d hd => (h d hd).numbers f,
      List.map_id']

/-- A table of such data. -/
theorem IsFixed.table {ms : List (String × Datum)}
    (h : ∀ m ∈ ms, Text.IsPlain m.1 ∧ IsFixed n m.2) : IsFixed (n + 1) (.table ms) where
  written := membersWritten_iff.2 fun m hm => ⟨(h m hm).1, (h m hm).2.written⟩
  depth := Nat.succ_le_succ (membersDepth_le_iff.2 fun m hm => (h m hm).2.depth)
  numbers f := by
    have hsame : ∀ m ∈ ms, (m.1, m.2.withNumbers f) = m :=
      fun m hm => Prod.ext rfl ((h m hm).2.numbers f)
    rw [withNumbers, withNumbersMembers_eq, List.map_congr_left hsame, List.map_id']

/-- A plain text is such a datum. -/
theorem isFixed_text {s : String} (h : Text.IsPlain s) : IsFixed 0 (.text s) :=
  ⟨h, Nat.le_refl 0, fun _ => rfl⟩

/-- A list of plain texts is such a datum. -/
theorem isFixed_texts {ss : List String} (h : ∀ s ∈ ss, Text.IsPlain s) :
    IsFixed 1 (.list (ss.map .text)) :=
  .list (List.forall_mem_map.2 fun s hs => isFixed_text (h s hs))

end

/-! ## Data with any texts -/

mutual

/-- A text is written as its reader sees it. -/
theorem write_readable (level : Option Nat) : ∀ d : Datum,
    Json.write level (d.withTexts Text.readable) = Json.write level d
  | .null | .flag _ | .number _ | .bytes _ | .instant _ | .other => rfl
  | .text s => Json.writeString_readable s
  | .list ds | .tables ds => congrArg (Json.bracket "[" "]" level) (writeItems_readable _ ds)
  | .table ms => congrArg (Json.bracket "\x7b" "\x7d" level) (writeMembers_readable _ ms)

/-- `write_readable` for the items of a list. -/
theorem writeItems_readable (level : Option Nat) : ∀ ds : List Datum,
    Json.writeItems level (withTextsItems Text.readable ds) = Json.writeItems level ds
  | [] => rfl
  | d :: ds => congrArg₂ List.cons (write_readable level d) (writeItems_readable level ds)

/-- `write_readable` for the members of a table. -/
theorem writeMembers_readable (level : Option Nat) : ∀ ms : List (String × Datum),
    Json.writeMembers level (withTextsMembers Text.readable ms) = Json.writeMembers level ms
  | [] => rfl
  | (k, d) :: ms => by
    rw [withTextsMembers, Json.writeMembers, Json.writeMembers, Json.writeString_readable,
      write_readable level d, writeMembers_readable level ms]

end

/-- Data of at most `n` levels that are written whatever bytes their texts hold. -/
structure IsShown (n : Nat) (d : Datum) : Prop where
  written : (d.withTexts Text.readable).IsWritten
  depth : d.depth ≤ n

/-- What is read back is what a reader sees of such data. -/
theorem IsShown.ofJson?_write {n : Nat} {d : Datum} (h : IsShown n d) (hn : n ≤ Json.maxDepth)
    (level : Option Nat) (space : List Char) (hspace : space.all Json.isSpace) :
    ofJson? (Json.write level d ++ Text.ofCharacters space) =
      some ((d.withTexts Text.readable).withNumbers Json.reread) := by
  have hdepth : (d.withTexts Text.readable).depth ≤ Json.maxDepth := by
    rw [depth_withTexts]
    exact h.depth.trans hn
  rw [← write_readable]
  exact ofJson?_write_space level h.written hdepth space hspace

section
variable (n : Nat)

/-- Every text is such a datum. -/
theorem isShown_text (s : String) : IsShown n (.text s) :=
  ⟨Text.isPlain_readable s, Nat.zero_le n⟩

/-- Every truth value is such a datum. -/
theorem isShown_flag (b : Bool) : IsShown n (.flag b) :=
  ⟨trivial, Nat.zero_le n⟩

/-- Every integer of 64 bits is such a datum. -/
theorem isShown_integer {i : Int} (h : fitsInt64 i = true) : IsShown n (.number (.integer i)) :=
  ⟨h, Nat.zero_le n⟩

variable {n}

/-- A list of such data. -/
theorem IsShown.list {ds : List Datum} (h : ∀ d ∈ ds, IsShown n d) :
    IsShown (n + 1) (.list ds) where
  written := by
    show ItemsWritten (withTextsItems _ ds)
    rw [withTextsItems_eq, itemsWritten_iff, List.forall_mem_map]
    exact fun d hd => (h d hd).written
  depth := Nat.succ_le_succ (itemsDepth_le_iff.2 fun d hd => (h d hd).depth)

/-- A table of such data, whatever their names. -/
theorem IsShown.table {ms : List (String × Datum)} (h : ∀ m ∈ ms, IsShown n m.2) :
    IsShown (n + 1) (.table ms) where
  written := by
    show MembersWritten (withTextsMembers _ ms)
    rw [withTextsMembers_eq, membersWritten_iff, List.forall_mem_map]
    exact fun m hm => ⟨Text.isPlain_readable m.1, (h m hm).written⟩
  depth := Nat.succ_le_succ (membersDepth_le_iff.2 fun m hm => (h m hm).depth)

end

end InfraSmells.Datum
