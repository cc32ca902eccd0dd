import InfraSmells.Proofs.Design.Windows

/-!
# Repeated spans of a file

Of the windows that a file holds more than once none goes unnoticed: the start of each lies in a window
that is reported, and what is reported has the hash of another window (`duplicates_covered`). Each window is
filed under the number that it spells, and every place that is looked at on the way lies in the file
(`windows_filed`). Windows are reported hash by hash and not in the order of their starts. So a window
never begins inside one that was reported before it, and windows of one hash are apart
(`later_windows_begin_outside`), but one that is reported later may begin in front of another and end in
it (`overlapping_windows_reported`).
-/

namespace InfraSmells.Design

/-- The characters of lines that are no white space. -/
def solid (lines : List String) : List Char :=
  lines.flatMap fun line => (Text.characters line).filter (!Text.isBlank ·)

theorem solid_nil : solid [] = [] := rfl

@[simp] theorem solid_cons (line : String) (lines : List String) :
    solid (line :: lines) = (Text.characters line).filter (!Text.isBlank ·) ++ solid lines := rfl

/-- Of the characters that are no white space, the one at the place `s` stands on the line of the number
`n`, counted from one. -/
structure StandsOn (lines : List String) (s n : Nat) : Prop where
  pos : 0 < n
  behind : (solid (lines.take (n - 1))).length ≤ s
  within : s < (solid (lines.take n)).length

variable {lines : List String} {s n w : Nat}

/-! ## Characters and their lines -/

/-- The line of a character is one of the lines. -/
theorem StandsOn.exists_line (h : StandsOn lines s n) : ∃ line, lines[n - 1]? = some line := by
  rcases Nat.lt_or_ge (n - 1) lines.length with hlt | hge
  · exact ⟨_, List.getElem?_eq_getElem hlt⟩
  · have hwithin := h.within
    have hbehind := h.behind
    rw [List.take_of_length_le hge] at hbehind
    rw [List.take_of_length_le (Nat.le_trans hge (Nat.sub_le n 1))] at hwithin
    exact absurd hwithin (Nat.not_lt.2 hbehind)

/-- Lines counted from `k` on: the number of a character is that of its line. -/
theorem exists_of_getElem?_zipIdx : ∀ (lines : List String) (k : Nat) {s n : Nat} {c : Char},
    ((lines.zipIdx k).flatMap fun (line, n) =>
        ((Text.characters line).filter (!Text.isBlank ·)).map fun c => (c, n))[s]? = some (c, n) →
      ∃ m, n = k + m ∧ (solid (lines.take m)).length ≤ s ∧ s < (solid (lines.take (m + 1))).length
  | [], k, s, n, c, h => by simp at h
  | line :: lines, k, s, n, c, h => by
    rw [List.zipIdx_cons, List.flatMap_cons, List.getElem?_append] at h
    dsimp only at h
    split at h
    · next hlt =>
      rw [List.getElem?_map, Option.map_eq_some_iff] at h
      obtain ⟨_, -, heq⟩ := h
      rw [List.length_map] at hlt
      exact ⟨0, (congrArg Prod.snd heq).symm, Nat.zero_le s, by simpa [solid_nil] using hlt⟩
    · next hge =>
      obtain ⟨m, rfl, hle, hlt⟩ := exists_of_getElem?_zipIdx lines (k + 1) h
      rw [List.length_map] at hge hle hlt
      refine ⟨m + 1, by omega, ?_, ?_⟩
      · rw [List.take_succ_cons, solid_cons, List.length_append]
        omega
      · rw [List.take_succ_cons, solid_cons, List.length_append]
        omega

/-- Each character is listed with the number of its line. -/
theorem standsOn_of_codeChars {c : Char} (h : (codeChars lines)[s]? = some (c, n)) :
    StandsOn lines s n := by
  obtain ⟨m, rfl, hle, hlt⟩ := exists_of_getElem?_zipIdx lines 1 h
  refine ⟨Nat.lt_add_right m Nat.one_pos, ?_, ?_⟩
  · rwa [Nat.add_sub_cancel_left]
  · rwa [Nat.add_comm]

/-- The characters that are listed are those that are no white space. -/
theorem map_fst_codeChars (lines : List String) : (codeChars lines).map Prod.fst = solid lines := by
  have hall (k : Nat) : ((lines.zipIdx k).flatMap fun (line, n) =>
      ((Text.characters line).filter (!Text.isBlank ·)).map fun c => (c, n)).map Prod.fst =
        solid lines := by
    induction lines generalizing k with
    | nil => rfl
    | cons line lines ih =>
      rw [List.zipIdx_cons, List.flatMap_cons, List.map_append, ih, solid_cons, List.map_map]
      exact congrArg (· ++ solid lines) (List.map_id _)
  exact hall 1

/-- There is a character at each place, and the line that it stands on. -/
theorem exists_codeChar (h : s < (solid lines).length) :
    ∃ c n line, (codeChars lines)[s]? = some (c, n) ∧ StandsOn lines s n ∧ lines[n - 1]? = some line := by
  have hlt : s < (codeChars lines).length := by
    rwa [← map_fst_codeChars, List.length_map] at h
  obtain ⟨⟨c, n⟩, hchar⟩ : ∃ x, (codeChars lines)[s]? = some x :=
    ⟨_, List.getElem?_eq_getElem hlt⟩
  have hstands := standsOn_of_codeChars hchar
  obtain ⟨line, hline⟩ := hstands.exists_line
  exact ⟨c, n, line, hchar, hstands, hline⟩

/-! ## Starts to report -/

/-- The starts cover the windows of `w` characters that stand in the code more than once: the start of
each lies in the window of one of them, and each of them has the hash of another window. -/
structure Covers (w : Nat) (code : List Char) (starts : List Nat) : Prop where
  fits : ∀ f ∈ starts, f + w ≤ code.length
  shared : ∀ f ∈ starts, ∃ s, s ≠ f ∧ s + w ≤ code.length ∧
    windowHash (windowAt w code s) = windowHash (windowAt w code f)
  covered : ∀ s t, s ≠ t → s + w ≤ code.length → t + w ≤ code.length →
    windowAt w code s = windowAt w code t → ∃ f ∈ starts, f ≤ s ∧ s < f + w
  nodup : starts.Nodup

/-- A start is repeated in a text if and only if the window there has the hash of another one. -/
theorem mem_repeatedStarts_windowHashes {code : List Char} (hw : 0 < w) (h : w ≤ code.length) :
    s ∈ repeatedStarts (windowHashes w code) ↔ s + w ≤ code.length ∧ ∃ t, t ≠ s ∧
      t + w ≤ code.length ∧ windowHash (windowAt w code t) = windowHash (windowAt w code s) := by
  simp only [mem_repeatedStarts, getElem?_windowHashes hw h, Option.ite_none_right_eq_some,
    Option.some.injEq]
  constructor
  · rintro ⟨_, ⟨hs, rfl⟩, t, hne, ht, hsame⟩
    exact ⟨hs, t, hne, ht, hsame⟩
  · rintro ⟨hs, t, hne, ht, hsame⟩
    exact ⟨_, ⟨hs, rfl⟩, t, hne, ht, hsame⟩

/-- The starts to report are kept among the repeated ones, unless there is no window at all. -/
theorem duplicateStarts_eq {code : List Char} (hw : 0 < w) (h : w ≤ code.length) :
    duplicateStarts w code = uncovered w [] (repeatedStarts (windowHashes w code)) := by
  have hnot : ¬(decide (w = 0) || decide (code.length < w)) = true := by
    simp only [Bool.or_eq_true, decide_eq_true_eq]
    omega
  exact if_neg hnot

/-- Where there is no window nothing is to report. -/
theorem duplicateStarts_of_lt {code : List Char} (h : code.length < w) :
    duplicateStarts w code = [] := by
  unfold duplicateStarts
  rw [if_pos (by simp [h])]

/-- The starts to report cover what is repeated. -/
theorem covers_duplicateStarts (hw : 0 < w) (code : List Char) :
    Covers w code (duplicateStarts w code) := by
  rcases Nat.lt_or_ge code.length w with hlt | h
  · rw [duplicateStarts_of_lt hlt]
    refine ⟨fun f hf => (nomatch hf), fun f hf => (nomatch hf), fun s t _ hs => ?_, .nil⟩
    omega
  rw [duplicateStarts_eq hw h]
  have hrepeated {f : Nat} (hf : f ∈ uncovered w [] (repeatedStarts (windowHashes w code))) :=
    (mem_repeatedStarts_windowHashes hw h).1 ((uncovered_sublist w _ []).subset hf)
  refine ⟨fun f hf => (hrepeated hf).1, fun f hf => (hrepeated hf).2, ?_, ?_⟩
  · intro s t hne hs ht hsame
    have hmem : s ∈ repeatedStarts (windowHashes w code) :=
      (mem_repeatedStarts_windowHashes hw h).2 ⟨hs, t, hne.symm, ht, congrArg windowHash hsame.symm⟩
    obtain ⟨f, hf, hcovers⟩ := exists_uncovered hw _ [] hmem
    exact ⟨f, hf.resolve_left List.not_mem_nil, hcovers⟩
  · refine List.Pairwise.imp ?_ (uncovered_pairwise w _ []).1
    intro f g houtside hfg
    exact houtside ⟨Nat.le_of_eq hfg, by omega⟩

/-- The report about the start of a window: it stands on the line of the first character of the window
and shows this line. -/
def ReportsStart (lines : List String) (b : Block) (path : String) (f : Nat) (d : Finding) : Prop :=
  ∃ n line, StandsOn lines f n ∧ lines[n - 1]? = some line ∧
    d = lineFinding "design_duplicate_block" b path line n

/-- There is one report for each start. -/
theorem forall₂_duplicateBlock {c : Context} {e : Element} {b : Block} (path : String) (hw : 0 < w)
    (hb : fileBlock? c e = some b) :
    List.Forall₂ (ReportsStart c.lines b path) (duplicateStarts w (solid c.lines))
      (duplicateBlock w c e path) := by
  have hfits := (covers_duplicateStarts hw (solid c.lines)).fits
  unfold duplicateBlock
  rw [hb]
  dsimp only
  rw [map_fst_codeChars, Int.toNat_natCast]
  generalize duplicateStarts w (solid c.lines) = starts at hfits
  induction starts with
  | nil => exact .nil
  | cons f starts ih =>
    obtain ⟨hf, hstarts⟩ := List.forall_mem_cons.1 hfits
    have hlt : f < (solid c.lines).length := by omega
    obtain ⟨ch, n, line, hchar, hstands, hline⟩ := exists_codeChar hlt
    rw [List.filterMap_cons_some (b := lineFinding "design_duplicate_block" b path line n)]
    · exact .cons ⟨n, line, hstands, hline, rfl⟩ (ih hstarts)
    · simp [hchar, hline]

/-- The starts that are reported for a file cover all windows of its code that stand there more than
once; each of them is reported once, on the line of its first character, with the text of this line.
Where all windows have different hashes, nothing is reported. -/
theorem duplicates_covered (c : Context) (e : Element) (b : Block) (path : String) (w : Nat)
    (hw : 0 < w) (hb : fileBlock? c e = some b) :
    let code := solid c.lines
    let starts := duplicateStarts w code
    Covers w code starts ∧
      List.Forall₂ (ReportsStart c.lines b path) starts (duplicateBlock w c e path) ∧
      ((∀ s t, s ≠ t → s + w ≤ code.length → t + w ≤ code.length →
          windowHash (windowAt w code s) ≠ windowHash (windowAt w code t)) →
        duplicateBlock w c e path = []) := by
  intro code starts
  have hcovers : Covers w code starts := covers_duplicateStarts hw code
  have hreports : List.Forall₂ (ReportsStart c.lines b path) starts (duplicateBlock w c e path) :=
    forall₂_duplicateBlock path hw hb
  refine ⟨hcovers, hreports, fun hdistinct => ?_⟩
  have hnone : starts = [] := by
    refine List.eq_nil_iff_forall_not_mem.2 fun f hf => ?_
    obtain ⟨s, hne, hs, hsame⟩ := hcovers.shared f hf
    exact hdistinct s f hne hs (hcovers.fits f hf) hsame
  rw [hnone] at hreports
  generalize duplicateBlock w c e path = found at hreports
  cases hreports
  rfl

/-- A script in a file of these lines. -/
def fileOf (lines : List String) : Context :=
  { config := default
    file := some ⟨"a", "", lines, false, false⟩
    newFile := true }

/-- A script without anything in it. -/
def emptyScript : Block :=
  ⟨.nowhere, "b", .script, "a", [], [], [], [], [], [], []⟩

/-- The windows `ab`, `bc` and `ca` of a text with a period stand there more than once. -/
theorem duplicates_covered_periodic :
    let c := fileOf ["ab c", "abc", "ab"]
    0 < 2 ∧ fileBlock? c (.block emptyScript) = some emptyScript ∧
      Covers 2 "abcabcab".toList (duplicateStarts 2 "abcabcab".toList) ∧
      ∃ f ∈ duplicateStarts 2 "abcabcab".toList, f ≤ 2 ∧ 2 < f + 2 := by
  intro c
  have hfile : fileBlock? c (.block emptyScript) = some emptyScript := rfl
  have hcode : solid c.lines = "abcabcab".toList := by decide +kernel
  obtain ⟨hcovers, -, -⟩ := duplicates_covered c _ _ "a" 2 (by decide) hfile
  rw [hcode] at hcovers
  exact ⟨by decide, hfile, hcovers, hcovers.covered 2 5 (by decide) (by decide) (by decide) (by decide)⟩

/-! ## Filing -/

/-- Each window of a text is filed once, under the number that it spells modulo 2 ^ 64. All characters that are
looked up for these hashes are there, and the character at each start stands on one of the lines. -/
theorem windows_filed {w : Nat} {code : List Char} (hw : 1 ≤ w) (h : w ≤ code.length) :
    Files w code (filedUnder w code) ∧ lookedUp? w code = some (windowHashes w code) ∧
      ∀ lines, solid lines = code → ∀ s, s + w ≤ code.length →
        ∃ c n line, (codeChars lines)[s]? = some (c, n) ∧ 1 ≤ n ∧ lines[n - 1]? = some line := by
  refine ⟨files_filedUnder hw h, lookedUp?_eq h, ?_⟩
  rintro lines rfl s hs
  obtain ⟨c, n, line, hchar, hstands, hline⟩ := exists_codeChar (show s < (solid lines).length by omega)
  exact ⟨c, n, line, hchar, hstands.pos, hline⟩

/-- Both windows `abcde` of a text are filed under one number, which has been cut to 64 bits. -/
theorem windows_filed_wrapped :
    let code := "abcdeabcde".toList
    let lines := ["abc", "de a", "", "b cde"]
    let number := 97 * 1000003 ^ 4 + 98 * 1000003 ^ 3 + 99 * 1000003 ^ 2 + 100 * 1000003 + 101
    let filed := filedUnder 5 code (UInt64.ofNat number)
    1 ≤ 5 ∧ 5 ≤ code.length ∧ solid lines = code ∧ 2 ^ 64 < number ∧
      filed.count 0 = 1 ∧ filed.count 5 = 1 ∧
      ∃ c n line, (codeChars lines)[5]? = some (c, n) ∧ 1 ≤ n ∧ lines[n - 1]? = some line := by
  intro code lines number filed
  have hsolid : solid lines = code := by decide +kernel
  obtain ⟨hfiles, -, hlines⟩ :=
    windows_filed (w := 5) (show 1 ≤ 5 by decide) (show 5 ≤ code.length by decide)
  have hstart (s : Nat) (hs : s + 5 ≤ code.length) (hnumber : spelled 5 code s hs = number) :
      filed.count s = 1 := by
    rw [hfiles.once s hs, hnumber, UInt64.toNat_ofNat', if_pos rfl]
  exact ⟨by decide, by decide, hsolid, by decide, hstart 0 (by decide) (by decide),
    hstart 5 (by decide) (by decide), hlines lines hsolid 5 (by decide)⟩

/-! ## Windows that overlap -/

/-- Of these windows, those of `ab` are reported first, since their hash occurs first. -/
theorem duplicateStarts_overlapping : duplicateStarts 2 "ab1xab2xa".toList = [0, 4, 3, 7] := by
  rw [duplicateStarts_eq (by decide) (by decide), repeatedStarts_eq]
  decide +kernel

/-- No window begins inside one that is reported before it, and windows of one hash are apart. So where
two windows overlap, they are of different hashes, and the one in front is reported later. -/
theorem later_windows_begin_outside (w : Nat) (code : List Char) :
    (duplicateStarts w code).Pairwise fun f g => ¬(f ≤ g ∧ g < f + w) ∧
      (windowHash (windowAt w code f) = windowHash (windowAt w code g) → f + w ≤ g) := by
  rcases Nat.eq_zero_or_pos w with rfl | hw
  · rw [show duplicateStarts 0 code = [] from rfl]
    exact .nil
  rcases Nat.lt_or_ge code.length w with hlt | h
  · rw [duplicateStarts_of_lt hlt]
    exact .nil
  have hfits := (covers_duplicateStarts hw code).fits
  rw [duplicateStarts_eq hw h] at hfits ⊢
  have hsub := uncovered_sublist w (repeatedStarts (windowHashes w code)) []
  have houtside := (uncovered_pairwise w (repeatedStarts (windowHashes w code)) []).1
  have hordered := (repeatedStarts_pairwise (windowHashes w code)).sublist hsub
  refine (houtside.and hordered).imp_of_mem fun {f g} hf hg ⟨hfg, hlt⟩ => ⟨hfg, fun hsame => ?_⟩
  rw [getElem?_windowHashes hw h, getElem?_windowHashes hw h, if_pos (hfits f hf),
    if_pos (hfits g hg), hsame] at hlt
  have := hlt rfl
  omega

/-- The windows `xa` at 3 and 7 are of one hash and apart. The one at 3 begins in front of the window
`ab` at 4, which is of another hash and reported before it. -/
theorem later_windows_begin_outside_overlapping :
    let code := "ab1xab2xa".toList
    let hashAt (s : Nat) := windowHash (windowAt 2 code s)
    duplicateStarts 2 code = [0, 4, 3, 7] ∧ hashAt 3 = hashAt 7 ∧ 3 + 2 ≤ 7 ∧
      hashAt 4 ≠ hashAt 3 ∧ ¬(4 ≤ 3 ∧ 3 < 4 + 2) := by
  intro code hashAt
  have houtside := later_windows_begin_outside 2 code
  rw [duplicateStarts_overlapping] at houtside
  obtain ⟨-, hfour, hthree, -⟩ := by simpa only [List.pairwise_cons] using houtside
  have hsame : hashAt 3 = hashAt 7 := by decide +kernel
  exact ⟨duplicateStarts_overlapping, hsame, (hthree 7 (by decide)).2 hsame, by decide +kernel,
    (hfour 3 (by decide)).1⟩

/-- The window `xa` at 3 is reported, although the one at 4, which it overlaps, is reported before it. -/
theorem overlapping_windows_reported :
    let c := fileOf ["ab1", "x", "ab2", "xa"]
    let starts := duplicateStarts 2 (solid c.lines)
    starts = [0, 4, 3, 7] ∧ ¬starts.Pairwise (fun f g => f + 2 ≤ g ∨ g + 2 ≤ f) ∧
      (duplicateBlock 2 c (.block emptyScript) "a").map (·.line) = [1, 3, 2, 4] := by
  intro c starts
  have hcode : solid c.lines = "ab1xab2xa".toList := by decide +kernel
  have hstarts : starts = [0, 4, 3, 7] :=
    (congrArg (duplicateStarts 2) hcode).trans duplicateStarts_overlapping
  refine ⟨hstarts, hstarts ▸ by decide, ?_⟩
  have hfile : fileBlock? c (.block emptyScript) = some emptyScript := rfl
  unfold duplicateBlock
  rw [hfile]
  dsimp only
  rw [map_fst_codeChars, show duplicateStarts (2 : Int).toNat (solid c.lines) = [0, 4, 3, 7] from hstarts]
  decide +kernel

end InfraSmells.Design
