import InfraSmells.Csv.Reading

/-!
# Reading written rows

A written row is read back as its fields, whatever stands behind it (`Csv.readFields_writeFields`):
what is written between quotes ends at the first quote that is not written twice, and what is written
as it is holds no mark that could end it. Rows that are written one behind the other can therefore be
told from their text (`Csv.join_rows_inj`). Quotes keep line feeds as they are, so there are as many as
the fields hold, and one at the end of each row (`Csv.count_join_rows`).
-/

namespace InfraSmells.Csv

section
variable (first : Nat) {mode : Mode}

/-! ## Reading what was written -/

/-- A field that is written as it is holds no mark. -/
theorem marks_notMem {f : List Char} (h : needsQuotes f = false) :
    ∀ c ∈ f, c ≠ ',' ∧ c ≠ '"' ∧ c ≠ '\n' := by
  simp only [needsQuotes, Bool.or_eq_false_iff, List.any_eq_false, Bool.or_eq_true, beq_iff_eq,
    not_or] at h
  exact fun c hc => ⟨(h.1.1 c hc).1.1.1, (h.1.1 c hc).1.1.2, (h.1.1 c hc).2⟩

/-- A comma ends a field, and the others follow. -/
theorem readFields_comma (p : Position) (field rest : List Char) (h : mode ≠ .quoted) : ∃ p',
    readFields first p mode field (',' :: rest) =
      (readFields first p' .opening [] rest).map (field.reverse :: ·) := by
  refine ⟨p.after ',', ?_⟩
  cases mode with
  | quoted => exact absurd rfl h
  | opening | bare | closed =>
    simp only [readFields]
    cases readFields first (p.after ',') .opening [] rest <;> rfl

/-- A line feed ends the last field. -/
theorem readFields_lineFeed (p : Position) (field rest : List Char) (h : mode ≠ .quoted) :
    readFields first p mode field ('\n' :: rest) = .ok [field.reverse] := by
  cases mode with
  | quoted => exact absurd rfl h
  | opening | bare | closed => simp [readFields]

/-- Characters that are no marks are taken into the field. -/
theorem readFields_plain (rest : List Char) : ∀ {f : List Char} {mode : Mode} (p : Position)
    (field : List Char), (∀ c ∈ f, c ≠ ',' ∧ c ≠ '"' ∧ c ≠ '\n') →
    mode = .opening ∨ mode = .bare → ∃ p' mode', mode' ≠ .quoted ∧
      readFields first p mode field (f ++ rest) =
        readFields first p' mode' (f.reverse ++ field) rest
  | [], mode, p, field, _, hmode => by
    refine ⟨p, mode, ?_, rfl⟩
    rcases hmode with rfl | rfl <;> decide
  | c :: f, mode, p, field, hf, hmode => by
    obtain ⟨⟨hcomma, hquote, hfeed⟩, hf⟩ := List.forall_mem_cons.1 hf
    obtain ⟨p', mode', hmode', ih⟩ := readFields_plain rest (p.after c) (c :: field) hf (.inr rfl)
    refine ⟨p', mode', hmode', ?_⟩
    rw [List.reverse_cons, List.append_assoc, List.singleton_append, ← ih, List.cons_append]
    rcases hmode with rfl | rfl <;> simp [readFields, hcomma, hquote, hfeed]

/-- A quoted field is read up to its closing quote. -/
theorem readFields_doubled (rest : List Char) : ∀ (f : List Char) (p : Position)
    (field : List Char), ∃ p',
      readFields first p .quoted field (doubled f ++ '"' :: rest) =
        readFields first p' .closed (f.reverse ++ field) rest
  | [], p, field => ⟨p.after '"', by simp [doubled, readFields]⟩
  | c :: f, p, field => by
    rw [List.reverse_cons, List.append_assoc, List.singleton_append, doubled]
    split
    · next hc =>
      subst hc
      obtain ⟨p', ih⟩ := readFields_doubled rest f ((p.after '"').after '"') ('"' :: field)
      exact ⟨p', by simpa [readFields] using ih⟩
    · next hc =>
      by_cases hfeed : c = '\n'
      · subst hfeed
        obtain ⟨p', ih⟩ := readFields_doubled rest f ⟨p.line + 1, 1⟩ ('\n' :: field)
        exact ⟨p', by simpa [readFields] using ih⟩
      · obtain ⟨p', ih⟩ := readFields_doubled rest f (p.after c) (c :: field)
        exact ⟨p', by simpa [readFields, hc, hfeed] using ih⟩

/-- A written field is read up to its end. -/
theorem readFields_writeField (f : List Char) (p : Position) (rest : List Char) :
    ∃ p' mode, mode ≠ .quoted ∧ readFields first p .opening [] (writeField f ++ rest) =
      readFields first p' mode f.reverse rest := by
  unfold writeField
  split
  · obtain ⟨p', hread⟩ := readFields_doubled first rest f (p.after '"') []
    refine ⟨p', .closed, by decide, ?_⟩
    rw [List.append_nil] at hread
    rw [← hread]
    simp [readFields]
  · next h =>
    have hread := readFields_plain first rest p [] (marks_notMem (Bool.eq_false_iff.2 h)) (.inl rfl)
    rwa [List.append_nil] at hread

/-- The first of several fields ends with a comma. -/
theorem writeFields_cons (f : List Char) {fs : List (List Char)} (h : fs ≠ []) :
    writeFields (f :: fs) = writeField f ++ ',' :: writeFields fs := by
  cases fs with
  | nil => exact absurd rfl h
  | cons => rfl

/-- A written row is read back, whatever stands behind it. -/
theorem readFields_writeFields (rest : List Char) : ∀ (fs : List (List Char)) (p : Position),
    fs ≠ [] → readFields first p .opening [] (writeFields fs ++ '\n' :: rest) = .ok fs
  | [], _, h => absurd rfl h
  | [f], p, _ => by
    obtain ⟨p', mode, hmode, hread⟩ := readFields_writeField first f p ('\n' :: rest)
    rw [writeFields, hread, readFields_lineFeed first p' _ _ hmode, List.reverse_reverse]
  | f :: g :: fs, p, _ => by
    have hne : g :: fs ≠ [] := List.cons_ne_nil g fs
    obtain ⟨p', mode, hmode, hread⟩ := readFields_writeField first f p
      (',' :: (writeFields (g :: fs) ++ '\n' :: rest))
    obtain ⟨p'', hcomma⟩ := readFields_comma first p' f.reverse
      (writeFields (g :: fs) ++ '\n' :: rest) hmode
    rw [writeFields_cons f hne, List.append_assoc, List.cons_append, hread, hcomma,
      readFields_writeFields rest (g :: fs) p'' hne, List.reverse_reverse]
    rfl

end

/-! ## Rows -/

/-- The characters of a row. -/
theorem toList_row (fields : List String) :
    (row fields).toList = writeFields (fields.map String.toList) ++ ['\n'] :=
  String.toList_ofList

/-- A text that begins with a row tells the fields of the row and what stands behind it. -/
theorem row_append_inj {a b : List String} (ha : a ≠ []) (hb : b ≠ []) {s t : String}
    (h : row a ++ s = row b ++ t) : a = b ∧ s = t := by
  have hchars : writeFields (a.map String.toList) ++ '\n' :: s.toList =
      writeFields (b.map String.toList) ++ '\n' :: t.toList := by
    have := congrArg String.toList h
    simpa [String.toList_append, toList_row] using this
  have hfields : a.map String.toList = b.map String.toList := by
    refine Except.ok.inj (ε := Fault) ?_
    rw [← readFields_writeFields 1 s.toList _ ⟨1, 1⟩ (mt List.map_eq_nil_iff.1 ha), hchars,
      readFields_writeFields 1 t.toList _ ⟨1, 1⟩ (mt List.map_eq_nil_iff.1 hb)]
  obtain rfl : a = b := (List.map_inj_right fun _ _ => String.toList_inj.1).1 hfields
  rw [List.append_cancel_left_eq, List.cons.injEq, String.toList_inj] at hchars
  exact ⟨rfl, hchars.2⟩

/-- No row is empty. -/
theorem row_append_ne (fields : List String) (s : String) : row fields ++ s ≠ "" := by
  intro h
  have := congrArg String.toList h
  simp [String.toList_append, toList_row] at this

/-- Rows that are written one behind the other can be told from their text. -/
theorem join_rows_inj : ∀ {as bs : List (List String)}, (∀ a ∈ as, a ≠ []) → (∀ b ∈ bs, b ≠ []) →
    String.join (as.map row) = String.join (bs.map row) → as = bs
  | [], [], _, _, _ => rfl
  | [], b :: bs, _, _, h => by
    rw [List.map_cons, String.join_cons] at h
    exact absurd h.symm (row_append_ne b _)
  | a :: as, [], _, _, h => by
    rw [List.map_cons, String.join_cons] at h
    exact absurd h (row_append_ne a _)
  | a :: as, b :: bs, ha, hb, h => by
    obtain ⟨ha, has⟩ := List.forall_mem_cons.1 ha
    obtain ⟨hb, hbs⟩ := List.forall_mem_cons.1 hb
    rw [List.map_cons, List.map_cons, String.join_cons, String.join_cons] at h
    obtain ⟨rfl, hrest⟩ := row_append_inj ha hb h
    rw [join_rows_inj has hbs hrest]

/-! ## Line feeds -/

/-- Writing a quote twice adds no line feed. -/
theorem count_doubled (f : List Char) : (doubled f).count '\n' = f.count '\n' := by
  induction f with
  | nil => rfl
  | cons c f ih =>
    unfold doubled
    split
    · next hc => simp [hc, ih]
    · simp [List.count_cons, ih]

/-- A written field has the line feeds of the field. -/
theorem count_writeField (f : List Char) : (writeField f).count '\n' = f.count '\n' := by
  unfold writeField
  split
  · simp [count_doubled]
  · rfl

/-- Written fields have line feeds only where the fields have them. -/
theorem lineFeed_notMem_writeFields : ∀ {fs : List (List Char)}, (∀ f ∈ fs, '\n' ∉ f) →
    '\n' ∉ writeFields fs
  | [], _ => List.not_mem_nil
  | [f], h => by
    rw [writeFields, ← List.count_eq_zero, count_writeField, List.count_eq_zero]
    exact h f (.head _)
  | f :: g :: fs, h => by
    obtain ⟨hf, hfs⟩ := List.forall_mem_cons.1 h
    rw [← List.count_eq_zero, ← count_writeField, List.count_eq_zero] at hf
    rw [writeFields_cons f (List.cons_ne_nil g fs), List.mem_append, List.mem_cons]
    rintro (hmem | hmem | hmem)
    · exact hf hmem
    · cases hmem
    · exact lineFeed_notMem_writeFields hfs hmem

/-- Rows whose fields hold no line feeds have one each. -/
theorem count_join_rows : ∀ {as : List (List String)}, (∀ a ∈ as, ∀ s ∈ a, '\n' ∉ s.toList) →
    (String.join (as.map row)).toList.count '\n' = as.length
  | [], _ => rfl
  | a :: as, h => by
    obtain ⟨ha, has⟩ := List.forall_mem_cons.1 h
    have hrow : '\n' ∉ writeFields (a.map String.toList) := by
      refine lineFeed_notMem_writeFields fun f hf => ?_
      obtain ⟨s, hs, rfl⟩ := List.mem_map.1 hf
      exact ha s hs
    rw [List.map_cons, String.join_cons, String.toList_append, List.count_append,
      count_join_rows has, toList_row, List.count_append, List.count_eq_zero.2 hrow]
    simp [Nat.add_comm]

end InfraSmells.Csv
