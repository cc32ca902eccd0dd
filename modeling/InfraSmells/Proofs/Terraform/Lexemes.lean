import InfraSmells.Proofs.Terraform.Position
import InfraSmells.Terraform.Lexer
import Mathlib.Data.List.TakeWhile

/-!
# Lexemes are the bytes of the source

Every cut takes bytes from the front and loses none (`Terraform.Cut.Sound`), in each of the three
modes, so the lexemes of a source are its first bytes (`lexemes_lexed`). A name is cut byte by byte
where its characters are carried as bytes, so bytes are compared and not characters.
-/

namespace InfraSmells.Terraform

open Text (bytesOf)

/-! ## Names -/

/-- A character of a set is cut off without losing bytes. -/
theorem bytes_of_cut? {s : Text.CharSet} {cs front rest : List Char}
    (h : s.cut? cs = some (front, rest)) :
    front ≠ [] ∧ bytesOf front ++ bytesOf rest = bytesOf cs := by
  cases cs with
  | nil => cases h
  | cons c cs =>
    rw [Text.CharSet.cut?] at h
    split at h
    · obtain ⟨n, hn, hsplit⟩ := Option.map_eq_some_iff.1 h
      have hne := Text.splitBytes_ne_nil (pos_of_leadingBytes? hn) (List.cons_ne_nil c cs)
      have hbytes := Text.bytesOf_splitBytes n (c :: cs)
      rw [hsplit] at hne hbytes
      exact ⟨hne, hbytes⟩
    split at h
    · cases h
      exact ⟨List.cons_ne_nil c [], by simp⟩
    · cases h

/-- A character of a name is cut off without losing bytes. -/
theorem bytes_of_nameChar? {isInAscii : Char → Bool} {beyond : Text.CharSet}
    {cs front rest : List Char} (h : nameChar? isInAscii beyond cs = some (front, rest)) :
    front ≠ [] ∧ bytesOf front ++ bytesOf rest = bytesOf cs := by
  cases cs with
  | nil => cases h
  | cons c cs =>
    rw [nameChar?] at h
    split at h
    · obtain ⟨-, h⟩ := Option.ite_none_right_eq_some.1 h
      cases h
      exact ⟨List.cons_ne_nil _ [], by simp⟩
    · exact bytes_of_cut? h

/-- The further characters of a name are cut off without losing bytes. -/
theorem bytes_nameParts (fuel : Nat) (cs : List Char) :
    bytesOf (nameParts fuel cs).1 ++ bytesOf (nameParts fuel cs).2 = bytesOf cs := by
  induction fuel generalizing cs with
  | zero => simp [nameParts]
  | succ fuel ih =>
    rw [nameParts]
    split
    · next front rest hpart =>
      rw [Text.bytesOf_append, List.append_assoc, ih rest, (bytes_of_nameChar? hpart).2]
    · simp

/-- A name is cut off without losing bytes. -/
theorem bytes_of_name? {cs name rest : List Char} (h : name? cs = some (name, rest)) :
    name ≠ [] ∧ bytesOf name ++ bytesOf rest = bytesOf cs := by
  obtain ⟨⟨front, behind⟩, hstart, heq⟩ := Option.map_eq_some_iff.1 h
  have ⟨hne, hbytes⟩ := bytes_of_nameChar? hstart
  have hparts := bytes_nameParts (4 * behind.length) behind
  cases heq
  refine ⟨fun hnil => hne (List.append_eq_nil_iff.1 hnil).1, ?_⟩
  rw [Text.bytesOf_append, List.append_assoc, hparts, hbytes]

/-- The beginning of a text over several lines is cut off without losing bytes. -/
theorem bytes_of_heredocStart? {cs opening marker rest : List Char} {flush : Bool}
    (h : heredocStart? cs = some (opening, flush, marker, rest)) :
    opening ≠ [] ∧ bytesOf opening ++ bytesOf rest = bytesOf cs := by
  obtain ⟨behind, hangles, h⟩ := Option.bind_eq_some_iff.1 h
  split at h
  next flush' dash tail hdash =>
  have hbehind : behind = dash ++ tail := by
    split at hdash <;> cases hdash <;> rfl
  obtain ⟨⟨name, after⟩, hname, h⟩ := Option.bind_eq_some_iff.1 h
  have hcs : bytesOf ('<' :: '<' :: dash ++ name) ++ bytesOf after = bytesOf cs := by
    rw [Text.eq_append_of_afterStart hangles, hbehind, Text.bytesOf_append, List.append_assoc,
      (bytes_of_name? hname).2, ← Text.bytesOf_append]
    rfl
  dsimp only at h
  split at h
  · cases h
    exact ⟨List.cons_ne_nil _ _, by simpa using hcs⟩
  · cases h
    exact ⟨List.cons_ne_nil _ _, by simpa using hcs⟩
  · cases h

/-! ## Cuts -/

/-- What a lexeme of a source is like: it does not mark the end, and blanks hold no newline. -/
structure Lexeme.Regular (l : Lexeme) : Prop where
  kind_ne : l.kind ≠ .eof
  blank : l.kind = .space → '\n' ∉ l.chars

/-- The cut takes the first bytes and leaves the others. -/
structure Cut.Sound (c : Cut) (cs : List Char) : Prop where
  regular : ∀ l ∈ c.lexemes, l.Regular
  last : ∀ l ∈ c.lexemes.getLast?, l.chars ≠ []
  bytes : bytesOf (c.lexemes.flatMap (·.chars)) ++ bytesOf c.rest = bytesOf cs

namespace Cut.Sound

variable {modes below : List Mode} {cs : List Char} {kind : Kind} {n : Nat}

/-- A cut of one lexeme is sound if no bytes are lost. -/
theorem single {l : Lexeme} {rest : List Char} (hregular : l.Regular) (hne : l.chars ≠ [])
    (hbytes : bytesOf l.chars ++ bytesOf rest = bytesOf cs) : Sound ⟨[l], modes, rest⟩ cs where
  regular := List.forall_mem_singleton.2 hregular
  last := by simpa using hne
  bytes := by simpa using hbytes

/-- A cut behind some characters is sound. -/
theorem take (hcs : cs ≠ []) (hn : 0 < n) (hregular : Lexeme.Regular ⟨kind, cs.take n⟩) :
    (Cut.take kind n modes cs).Sound cs := by
  refine single hregular ?_ ?_
  · rw [ne_eq, List.take_eq_nil_iff, not_or]
    exact ⟨Nat.ne_of_gt hn, hcs⟩
  · rw [← Text.bytesOf_append, List.take_append_drop]

/-- A cut behind some characters that are no blanks is sound. -/
theorem solid (hcs : cs ≠ []) (hn : 0 < n) (hkind : kind ≠ .eof ∧ kind ≠ .space) :
    (Cut.take kind n modes cs).Sound cs :=
  take hcs hn ⟨hkind.1, fun h => absurd h hkind.2⟩

end Cut.Sound

open Cut.Sound in
/-- Plain characters are cut without losing bytes. -/
theorem cutPlain_sound (depth : Nat) (nested : Bool) (below : List Mode) {cs : List Char}
    (hcs : cs ≠ []) : (cutPlain depth nested below cs).Sound cs := by
  have hmarks : ∀ m ∈ marks, 0 < m.1.length := by decide
  unfold cutPlain
  extract_lets here closing other
  have hclosing : ∀ {kind : Kind} {n : Nat}, 0 < n → kind ≠ .eof ∧ kind ≠ .space →
      (closing kind n).Sound cs := by
    intro kind n hn hkind
    simp only [closing]
    split
    · exact solid hcs hn (by simp)
    · exact solid hcs hn hkind
  have hother : other.Sound cs := by
    simp only [other]
    split
    · next m mark hfind => exact solid hcs (hmarks _ (List.mem_of_find?_eq_some hfind)) (by simp)
    · exact solid hcs Nat.one_pos (by simp)
  clear_value closing other
  split
  · exact solid hcs Nat.one_pos (by simp)
  · exact solid hcs Nat.two_pos (by simp)
  · exact solid hcs (by simp [lineComment]) (by simp)
  · exact solid hcs (by simp [lineComment]) (by simp)
  · split
    · next comment hcomment =>
      obtain ⟨⟨body, _⟩, -, heq⟩ := Option.map_eq_some_iff.1 hcomment
      exact solid hcs (by rw [← heq]; exact Nat.succ_pos _) (by simp)
    · exact solid hcs Nat.one_pos (by simp)
  · exact solid hcs Nat.one_pos (by simp)
  · exact solid hcs Nat.one_pos (by simp)
  · exact hclosing Nat.one_pos (by simp)
  · exact hclosing Nat.two_pos (by simp)
  · split
    · next opening flush marker rest hstart =>
      have ⟨hne, hbytes⟩ := bytes_of_heredocStart? hstart
      exact single ⟨by simp, by simp⟩ hne hbytes
    · exact hother
  · next c rest _ _ _ _ _ _ _ _ _ _ =>
    split
    · next hblank =>
      refine take hcs (by simp [hblank]) ⟨by simp, fun _ hmem => ?_⟩
      rw [← List.prefix_iff_eq_take.1 (List.takeWhile_prefix _)] at hmem
      simpa using List.mem_takeWhile_imp hmem
    split
    · exact solid hcs (Nat.succ_pos _) (by simp)
    split
    · next name rest hname =>
      have ⟨hne, hbytes⟩ := bytes_of_name? hname
      exact single ⟨by simp, by simp⟩ hne hbytes
    · exact hother
  · exact absurd rfl hcs

/-- The beginning of a value or directive is no blank and no end. -/
theorem of_sequenceStart? {cs : List Char} {kind : Kind} {n : Nat}
    (h : sequenceStart? cs = some (kind, n)) : 0 < n ∧ kind ≠ .eof ∧ kind ≠ .space := by
  unfold sequenceStart? at h
  split at h <;> cases h <;> simp

open Cut.Sound in
/-- A quoted template is cut without losing bytes. -/
theorem cutQuoted_sound (below : List Mode) {cs : List Char} (hcs : cs ≠ []) :
    (cutQuoted below cs).Sound cs := by
  unfold cutQuoted
  split
  · next kind n hstart =>
    have ⟨hn, hkind⟩ := of_sequenceStart? hstart
    exact solid hcs hn hkind
  split
  · exact solid hcs Nat.one_pos (by simp)
  split
  · exact solid hcs Nat.one_pos (by simp)
  · next hn => exact solid hcs (Nat.pos_of_ne_zero hn) (by simp)

open Cut.Sound in
/-- A template over several lines is cut without losing bytes. -/
theorem cutHeredoc_sound (marker : List Char) (lineStart : Bool) (below : List Mode)
    {cs : List Char} (hcs : cs ≠ []) : (cutHeredoc marker lineStart below cs).Sound cs := by
  unfold cutHeredoc
  split
  · next kind n hstart =>
    have ⟨hn, hkind⟩ := of_sequenceStart? hstart
    exact solid hcs hn hkind
  extract_lets line isWhole content
  split
  · exact solid hcs Nat.one_pos (by simp)
  next hline =>
  split
  · next hclose =>
    simp only [Bool.and_eq_true] at hclose
    have hlast : line.getLast? = some '\n' := by simpa [isWhole] using hclose.1.2
    have hparts : content ++ line.drop content.length = line :=
      List.prefix_iff_eq_append.1 (List.takeWhile_prefix _)
    -- the line ends with a newline, so something is left of it behind the marker
    have hnewline : line.drop content.length ≠ [] := by
      intro hnil
      rw [hnil, List.append_nil] at hparts
      have hmem : '\n' ∈ content := hparts ▸ List.mem_of_getLast? hlast
      simpa using List.mem_takeWhile_imp hmem
    refine ⟨?_, by simpa using hnewline, ?_⟩
    · exact List.forall_mem_cons.2
        ⟨⟨by simp, by simp⟩, List.forall_mem_singleton.2 ⟨by simp, by simp⟩⟩
    · show bytesOf (content ++ (line.drop content.length ++ [])) ++ bytesOf (cs.drop line.length) = _
      rw [List.append_nil, hparts, ← Text.bytesOf_append,
        List.prefix_iff_eq_append.1 (List.take_prefix _ cs)]
  · exact solid hcs (by simpa [List.length_pos_iff] using hline) (by simp)

/-- Every cut takes bytes from the front. -/
theorem cut_sound (modes : List Mode) {cs : List Char} (hcs : cs ≠ []) :
    (cut modes cs).Sound cs := by
  unfold cut
  split
  · exact cutPlain_sound _ _ _ hcs
  · exact cutQuoted_sound _ hcs
  · exact cutHeredoc_sound _ _ _ hcs
  · exact cutPlain_sound _ _ _ hcs

/-! ## Lexemes -/

/-- Lexemes are regular, the last of them holds characters, and together they are the first bytes.
-/
structure Lexed (ls : List Lexeme) (bs : List UInt8) : Prop where
  regular : ∀ l ∈ ls, l.Regular
  last : ∀ l ∈ ls.getLast?, l.chars ≠ []
  bytes : bytesOf (ls.flatMap (·.chars)) <+: bs

/-- The lexemes of characters are their first bytes. -/
theorem lexemesFrom_lexed (fuel : Nat) (modes : List Mode) (cs : List Char) :
    Lexed (lexemesFrom fuel modes cs) (bytesOf cs) := by
  induction fuel generalizing modes cs with
  | zero => exact ⟨by simp [lexemesFrom], by simp [lexemesFrom], by simp [lexemesFrom]⟩
  | succ fuel ih =>
    rw [lexemesFrom]
    split
    · exact ⟨by simp, by simp, by simp⟩
    next hcs =>
    have hne : cs ≠ [] := by simpa using hcs
    have hcut := cut_sound modes hne
    have hrest := ih (cut modes cs).modes (cut modes cs).rest
    refine ⟨List.forall_mem_append.2 ⟨hcut.regular, hrest.regular⟩, fun l hl => ?_, ?_⟩
    · rw [List.getLast?_append, Option.mem_def, Option.or_eq_some_iff] at hl
      rcases hl with hl | ⟨-, hl⟩
      · exact hrest.last l hl
      · exact hcut.last l hl
    · rw [List.flatMap_append, Text.bytesOf_append, ← hcut.bytes]
      exact (List.prefix_append_right_inj _).2 hrest.bytes

/-- The lexemes of a source are its first bytes. -/
theorem lexemes_lexed (cs : List Char) : Lexed (lexemes cs) (bytesOf cs) :=
  lexemesFrom_lexed _ _ cs

end InfraSmells.Terraform
