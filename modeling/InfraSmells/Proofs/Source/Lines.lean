import InfraSmells.Proofs.Text.Lines

/-!
# The lines of a source file

A source file is cut into lines after its text has been made of its bytes: the byte order mark is dropped,
the bytes are read as characters, and carriage returns before newlines go. Its lines are nevertheless the
physical lines of the bytes (`SourceFile.lines_are_physical`): what stands between line feeds, without the
one carriage return in front of a line feed. The proof takes the text line by line
(`Text.lines_induction`), and each of the passes is told by what it does to a line
(`Text.dropReturns_line`, `Text.linesOf_line`, `Text.bytesOf_withoutEnd`).
-/

namespace InfraSmells

/-- The list without this element at its end, if it has it there. -/
def withoutEnd {α : Type} [DecidableEq α] (a : α) (as : List α) : List α :=
  if as.getLast? = some a then as.dropLast else as

/-- Nothing is added at the end. -/
theorem withoutEnd_sublist {α : Type} [DecidableEq α] (a : α) (as : List α) :
    (withoutEnd a as).Sublist as := by
  unfold withoutEnd
  split
  · exact List.dropLast_sublist as
  · exact List.Sublist.refl as

namespace Text

variable {line : List Char}

/-! ## A line and what follows it -/

/-- Characters are a line without a newline, or such a line, its newline and further characters. -/
theorem lines_induction {P : List Char → Prop} (last : ∀ line, '\n' ∉ line → P line)
    (next : ∀ line cs, '\n' ∉ line → P cs → P (line ++ '\n' :: cs)) (cs : List Char) : P cs := by
  induction hn : cs.length using Nat.strongRecOn generalizing cs with
  | ind n ih =>
    by_cases h : '\n' ∈ cs
    · obtain ⟨line, rest, rfl, hline⟩ := List.eq_append_cons_of_mem h
      have hshorter : rest.length < n := by
        rw [← hn, List.length_append, List.length_cons]
        omega
      exact next line rest hline (ih _ hshorter rest rfl)
    · exact last cs h

/-- A character stays unless it is a carriage return before a newline. -/
theorem dropReturns_cons {c : Char} {cs : List Char} (h : c = '\r' → cs.head? ≠ some '\n') :
    SourceFile.dropReturns (c :: cs) = c :: SourceFile.dropReturns cs := by
  rw [SourceFile.dropReturns]
  intro rest hc hcs
  exact h hc (by rw [hcs, List.head?_cons])

/-- A line that no newline ends keeps its carriage returns. -/
theorem dropReturns_last (h : '\n' ∉ line) : SourceFile.dropReturns line = line := by
  induction line with
  | nil => rfl
  | cons c line ih =>
    obtain ⟨-, hline⟩ := List.ne_and_not_mem_of_not_mem_cons h
    have hhead : line.head? ≠ some '\n' := fun hhead => hline (List.mem_of_head? hhead)
    rw [dropReturns_cons fun _ => hhead, ih hline]

/-- A line that a newline ends loses the carriage return at its end. -/
theorem dropReturns_line (h : '\n' ∉ line) (cs : List Char) :
    SourceFile.dropReturns (line ++ '\n' :: cs) =
      withoutEnd '\r' line ++ '\n' :: SourceFile.dropReturns cs := by
  induction line with
  | nil => exact dropReturns_cons fun hc => absurd hc (by decide)
  | cons c line ih =>
    obtain ⟨-, hline⟩ := List.ne_and_not_mem_of_not_mem_cons h
    cases line with
    | nil =>
      by_cases hc : c = '\r'
      · rw [hc]
        rfl
      · have hnewline : SourceFile.dropReturns ('\n' :: cs) = '\n' :: SourceFile.dropReturns cs :=
          ih hline
        rw [List.singleton_append, dropReturns_cons fun h => absurd h hc, hnewline]
        simp [withoutEnd, hc]
    | cons d line =>
      have hd : d ≠ '\n' := (List.ne_of_not_mem_cons hline).symm
      have hcons : withoutEnd '\r' (c :: d :: line) = c :: withoutEnd '\r' (d :: line) := by
        rw [withoutEnd, withoutEnd, List.getLast?_cons_cons]
        split <;> rfl
      rw [List.cons_append, dropReturns_cons fun _ => by simpa using hd, ih hline, hcons,
        List.cons_append]

/-- A line that no newline ends is the only one, if there is anything in it. -/
theorem linesOf_last (h : '\n' ∉ line) : linesOf line = if line = [] then [] else [line] := by
  induction line with
  | nil => rfl
  | cons c line ih =>
    obtain ⟨hc, hline⟩ := List.ne_and_not_mem_of_not_mem_cons h
    rw [linesOf, if_neg hc.symm, ih hline, if_neg (List.cons_ne_nil c line)]
    cases line <;> rfl

/-- A line that a newline ends comes first, with its newline. -/
theorem linesOf_line (h : '\n' ∉ line) (cs : List Char) :
    linesOf (line ++ '\n' :: cs) = (line ++ ['\n']) :: linesOf cs := by
  induction line with
  | nil => rw [List.nil_append, linesOf, if_pos rfl, List.nil_append]
  | cons c line ih =>
    obtain ⟨hc, hline⟩ := List.ne_and_not_mem_of_not_mem_cons h
    rw [List.cons_append, linesOf, if_neg hc.symm, ih hline]
    rfl

/-- Lines as they follow each other: a newline ends each of them and stands nowhere else in it; only the
last one may lack it, and is not empty then. -/
inductive AreLines : List (List Char) → Prop
  | nil : AreLines []
  | last {line : List Char} (h : '\n' ∉ line) (hne : line ≠ []) : AreLines [line]
  | next {line : List Char} {lines : List (List Char)} (h : '\n' ∉ line) (hlines : AreLines lines) :
      AreLines ((line ++ ['\n']) :: lines)

/-- Characters are cut into lines. -/
theorem areLines_linesOf (cs : List Char) : AreLines (linesOf cs) ∧ (linesOf cs).flatten = cs := by
  induction cs using lines_induction with
  | last line h =>
    rw [linesOf_last h]
    split
    · next hnil => exact ⟨.nil, hnil.symm⟩
    · next hne => exact ⟨.last h hne, List.flatten_singleton⟩
  | next line cs h ih =>
    rw [linesOf_line h]
    refine ⟨.next h ih.1, ?_⟩
    rw [List.flatten_cons, ih.2, List.append_assoc, List.singleton_append]

/-- The end of a text is looked for from behind. -/
theorem dropEnd_newline (cs : List Char) : dropEnd "\n" (String.ofList cs) =
    match afterStart ['\n'] cs.reverse with
    | some rest => String.ofList rest.reverse
    | none => String.ofList cs := by
  have hmark : "\n".toList.reverse = ['\n'] := rfl
  show (match afterStart "\n".toList.reverse (String.ofList cs).toList.reverse with
    | some rest => String.ofList rest.reverse
    | none => String.ofList cs) = _
  rw [hmark, String.toList_ofList]

/-- A line is shown without its newline. -/
theorem dropEnd_line (line : List Char) :
    dropEnd "\n" (String.ofList (line ++ ['\n'])) = String.ofList line := by
  have hstart : afterStart ['\n'] (line ++ ['\n']).reverse = some line.reverse := by
    simp [afterStart]
  rw [dropEnd_newline, hstart]
  exact congrArg String.ofList line.reverse_reverse

/-- A line that no newline ends is shown as it is. -/
theorem dropEnd_last (h : '\n' ∉ line) :
    dropEnd "\n" (String.ofList line) = String.ofList line := by
  rw [dropEnd_newline]
  cases hrest : afterStart ['\n'] line.reverse with
  | none => rfl
  | some rest =>
    have hline : line.reverse = '\n' :: rest := eq_append_of_afterStart hrest
    refine absurd ?_ h
    rw [← List.mem_reverse, hline]
    exact List.mem_cons_self

/-! ## Lines by their bytes -/

/-- The byte of a carriage return. -/
abbrev carriageReturn : UInt8 := 0x0D

/-- There is a newline among characters if its byte is among theirs. -/
theorem lineFeed_mem_iff {cs : List Char} : lineFeed ∈ bytesOf cs ↔ '\n' ∈ cs := by
  rw [← List.count_pos_iff, count_lineFeed, List.count_pos_iff]

/-- A carriage return at the end is one byte. -/
theorem bytesOf_withoutEnd (cs : List Char) :
    bytesOf (withoutEnd '\r' cs) = withoutEnd carriageReturn (bytesOf cs) := by
  induction cs using List.reverseRecOn with
  | nil => rfl
  | append_singleton cs c =>
    have hbytes : bytesOf (cs ++ [c]) = bytesOf cs ++ charBytes c := by
      rw [bytesOf_append, bytesOf_cons, bytesOf_nil, List.append_nil]
    rw [hbytes]
    by_cases hc : c = '\r'
    · have hreturn : charBytes c = [carriageReturn] := by
        rw [hc]
        decide
      rw [hreturn, hc]
      simp only [withoutEnd, List.getLast?_concat, if_true, List.dropLast_concat]
    · have hother : (bytesOf cs ++ charBytes c).getLast? ≠ some carriageReturn := by
        rw [List.getLast?_append, List.getLast?_eq_some_getLast (charBytes_ne_nil c), Option.some_or]
        intro hlast
        have hmem : carriageReturn ∈ charBytes c := List.mem_of_getLast? (by
          rw [List.getLast?_eq_some_getLast (charBytes_ne_nil c), hlast])
        exact ascii_notMem_charBytes (by decide) hc hmem
      rw [withoutEnd, withoutEnd, List.getLast?_concat, if_neg hother,
        if_neg fun h => hc (Option.some.inj h), hbytes]

/-- What has no separator stands in front of the first piece. -/
theorem splitOn_behind {sep : UInt8} {front : List UInt8} (h : sep ∉ front) (bs : List UInt8) :
    (front ++ bs).splitOn sep = (bs.splitOn sep).modifyHead (front ++ ·) := by
  induction front with
  | nil => cases hpieces : bs.splitOn sep <;> simp [hpieces]
  | cons b front ih =>
    obtain ⟨hb, hfront⟩ := List.ne_and_not_mem_of_not_mem_cons h
    rw [List.cons_append, List.splitOn_cons_eq_if_modifyHead, if_neg (by simpa using hb.symm),
      ih hfront, List.modifyHead_modifyHead]
    rfl

/-- The bytes of the line of this number, counted from one: a piece between line feeds, without the carriage
return in front of the line feed that ends it. Behind the last piece there are only empty lines. -/
def physicalLine (bs : List UInt8) (n : Nat) : List UInt8 :=
  let pieces := bs.splitOn lineFeed
  let piece := pieces[n - 1]?.getD []
  if n < pieces.length then withoutEnd carriageReturn piece else piece

/-- The first line in front of others loses its carriage return. -/
theorem physicalLine_first {first : List UInt8} (h : lineFeed ∉ first) (rest : List UInt8) :
    physicalLine (first ++ lineFeed :: rest) 1 = withoutEnd carriageReturn first := by
  rw [physicalLine, List.splitOn_append_cons_self_of_not_mem h]
  have hrest : 0 < (rest.splitOn lineFeed).length :=
    List.length_pos_iff.2 (List.splitOn_ne_nil _ _)
  exact if_pos (by simpa using hrest)

/-- Behind the first line the others follow. -/
theorem physicalLine_behind {first : List UInt8} (h : lineFeed ∉ first) (rest : List UInt8) (n : Nat) :
    physicalLine (first ++ lineFeed :: rest) (n + 2) = physicalLine rest (n + 1) := by
  have hlater : n + 2 < (rest.splitOn lineFeed).length + 1 ↔ n + 1 < (rest.splitOn lineFeed).length := by
    omega
  simp only [physicalLine, List.splitOn_append_cons_self_of_not_mem h, List.length_cons, hlater]
  rfl

/-- A single line keeps its carriage returns. -/
theorem physicalLine_single {only : List UInt8} (h : lineFeed ∉ only) (n : Nat) :
    physicalLine only (n + 1) = [only][n]?.getD [] := by
  rw [physicalLine, List.splitOn_eq_singleton h]
  exact if_neg (by simp)

/-- The lines that remain of characters have the bytes of their physical lines. -/
theorem toBytes_linesOf (cs : List Char) (i : Nat) :
    toBytes (dropEnd "\n" (String.ofList ((linesOf (SourceFile.dropReturns cs))[i]?.getD []))) =
      physicalLine (bytesOf cs) (i + 1) := by
  have htoBytes (cs : List Char) : toBytes (String.ofList cs) = bytesOf cs := by
    rw [toBytes, String.toList_ofList, bytesOf]
  induction cs using lines_induction generalizing i with
  | last line h =>
    have hsame : (linesOf line)[i]?.getD [] = [line][i]?.getD [] := by
      rw [linesOf_last h]
      split
      · next hnil => cases i <;> simp [hnil]
      · rfl
    rw [dropReturns_last h, hsame, physicalLine_single (mt lineFeed_mem_iff.1 h)]
    cases i with
    | zero => rw [List.getElem?_cons_zero, Option.getD_some, dropEnd_last h, htoBytes]; rfl
    | succ i => rfl
  | next line cs h ih =>
    have hbytes : lineFeed ∉ bytesOf line := mt lineFeed_mem_iff.1 h
    have hline : '\n' ∉ withoutEnd '\r' line := fun hmem => h ((withoutEnd_sublist _ _).mem hmem)
    rw [dropReturns_line h, linesOf_line hline, bytesOf_append, bytesOf_cons, charBytes_newline,
      List.singleton_append]
    cases i with
    | zero =>
      rw [List.getElem?_cons_zero, Option.getD_some, dropEnd_line, htoBytes, bytesOf_withoutEnd,
        physicalLine_first hbytes]
    | succ i => rw [List.getElem?_cons_succ, ih, physicalLine_behind hbytes]

end Text

namespace SourceFile

open Text

/-- The bytes that mark a text as UTF-8. -/
def byteOrderMark : List UInt8 := [0xEF, 0xBB, 0xBF]

/-- One mark at the beginning is dropped. -/
theorem afterMark?_getD {mark content : List UInt8}
    (hmark : mark = byteOrderMark ∨ mark = [] ∧ ¬byteOrderMark <+: content) :
    (afterMark? (mark ++ content)).getD (mark ++ content) = content := by
  rcases hmark with rfl | ⟨rfl, hnone⟩
  · rfl
  · rw [List.nil_append]
    unfold afterMark?
    split
    · next rest => exact absurd ⟨rest, rfl⟩ hnone
    · rfl

variable {path : String} {mark content : List UInt8} {f : SourceFile}

/-- What a source file is made of its bytes behind the mark. -/
theorem eq_of_bytes (hmark : mark = byteOrderMark ∨ mark = [] ∧ ¬byteOrderMark <+: content)
    (hf : ofBytes? path (mark ++ content) = some f) :
    ∃ cs, bytesOf cs = content ∧ f.text = String.ofList (dropReturns cs) ∧
      f.lines = (linesOf (dropReturns cs)).map String.ofList := by
  unfold ofBytes? at hf
  rw [afterMark?_getD hmark] at hf
  obtain ⟨-, hf⟩ := Option.ite_none_right_eq_some.1 hf
  cases hf
  exact ⟨_, toBytes_ofBytes content, rfl, rfl⟩

/-- A line of a source file has the bytes of the physical line of its number. -/
theorem toBytes_line (hmark : mark = byteOrderMark ∨ mark = [] ∧ ¬byteOrderMark <+: content)
    (hf : ofBytes? path (mark ++ content) = some f) {n : Nat} (hn : 1 ≤ n) :
    toBytes (f.line n) = physicalLine content n := by
  obtain ⟨cs, hcs, -, hlines⟩ := eq_of_bytes hmark hf
  obtain ⟨i, rfl⟩ := Nat.exists_eq_add_of_le' hn
  have hline : f.lines[i]?.getD "" = String.ofList ((linesOf (dropReturns cs))[i]?.getD []) := by
    rw [hlines, List.getElem?_map]
    cases (linesOf (dropReturns cs))[i]? <;> rfl
  have hnumber : f.line ((i + 1 : Nat) : Int) = dropEnd "\n" (f.lines[i]?.getD "") :=
    if_neg (by omega)
  rw [hnumber, hline, toBytes_linesOf, hcs]

/-- Bytes have one byte order mark at their beginning or none. -/
theorem exists_mark (bytes : List UInt8) : ∃ mark content, bytes = mark ++ content ∧
    (mark = byteOrderMark ∨ mark = [] ∧ ¬byteOrderMark <+: content) := by
  by_cases h : byteOrderMark <+: bytes
  · obtain ⟨content, rfl⟩ := h
    exact ⟨byteOrderMark, content, rfl, .inl rfl⟩
  · exact ⟨[], bytes, rfl, .inr ⟨rfl, h⟩⟩

/-- Bytes make a source file exactly if they are characters in UTF-8 behind one byte order mark. The lines
make up its text, and a newline ends each of them and stands nowhere else in it; only the last may lack it.
The line of a number is the physical line of the bytes, and behind the last it is empty. The mark, which has
no line feed in it, stands in front of the first line and changes no number. -/
theorem lines_are_physical (path : String) (bytes : List UInt8) :
    ∃ mark content, bytes = mark ++ content ∧
      (mark = byteOrderMark ∨ mark = [] ∧ ¬byteOrderMark <+: content) ∧
      (ofBytes? path bytes = none ↔ ¬∃ cs : List Char, content = cs.flatMap String.utf8EncodeChar) ∧
      (∀ f, ofBytes? path bytes = some f →
        String.join f.lines = f.text ∧ AreLines (f.lines.map String.toList) ∧
        ∀ n : Nat, 1 ≤ n → toBytes (f.line n) = physicalLine content n) ∧
      bytes.splitOn lineFeed = (content.splitOn lineFeed).modifyHead (mark ++ ·) := by
  obtain ⟨mark, content, rfl, hmark⟩ := exists_mark bytes
  refine ⟨mark, content, rfl, hmark, ?_, fun f hf => ?_, ?_⟩
  · unfold ofBytes?
    rw [afterMark?_getD hmark, ← isUtf8_iff]
    dsimp only
    split
    · next htext => exact iff_of_false nofun (not_not_intro htext)
    · next htext => exact iff_of_true rfl htext
  · obtain ⟨cs, -, htext, hlines⟩ := eq_of_bytes hmark hf
    obtain ⟨hare, hflatten⟩ := areLines_linesOf (dropReturns cs)
    have hcharacters : f.lines.map String.toList = linesOf (dropReturns cs) := by
      simp [hlines, Function.comp_def]
    refine ⟨?_, hcharacters ▸ hare, fun n hn => toBytes_line hmark hf hn⟩
    rw [← String.toList_inj, String.toList_join, List.flatMap_def, hcharacters, hflatten, htext,
      String.toList_ofList]
  · refine splitOn_behind ?_ content
    rcases hmark with rfl | ⟨rfl, -⟩
    · decide
    · exact List.not_mem_nil

/-- Behind a mark, a line ends with two carriage returns and a line feed, one is empty, and the last has a
carriage return at its end and one inside. -/
theorem lines_are_physical_returns :
    let bytes := byteOrderMark ++ [0x61, 0x0D, 0x0D, 0x0A, 0x0A, 0x62, 0x0D, 0x63, 0x0D]
    ∃ f, ofBytes? "a.tf" bytes = some f ∧
      String.join f.lines = f.text ∧ toBytes (f.line 1) = [0x61, 0x0D] ∧ toBytes (f.line 2) = [] ∧
      toBytes (f.line 3) = [0x62, 0x0D, 0x63, 0x0D] ∧ toBytes (f.line 4) = [] := by
  intro bytes
  obtain ⟨mark, content, hbytes, hmark, -, hlines, -⟩ := lines_are_physical "a.tf" bytes
  rcases hmark with rfl | ⟨rfl, hnone⟩
  · obtain rfl := List.append_cancel_left hbytes
    cases hf : ofBytes? "a.tf" bytes with
    | none => exact absurd hf (by decide)
    | some f =>
      obtain ⟨hjoin, -, hline⟩ := hlines f hf
      refine ⟨f, rfl, hjoin, ?_, ?_, ?_, ?_⟩
      · exact (hline 1 (by decide)).trans (by decide)
      · exact (hline 2 (by decide)).trans (by decide)
      · exact (hline 3 (by decide)).trans (by decide)
      · exact (hline 4 (by decide)).trans (by decide)
  · exact absurd ⟨_, hbytes⟩ hnone

end SourceFile

end InfraSmells
