import InfraSmells.Proofs.Terraform.Lexemes
import InfraSmells.Terraform.Grammar

/-!
# The places of tokens

The tokens of a source stand one behind the other, begin on a line of it and end no later than it
does (`Terraform.Stream`, `stream_place`). Only the token that marks the end may stand behind the
last line, and not even it where nothing but blanks and comments comes before it
(`line_le_of_significant_place`). A reader that takes tokens from the front leaves such a stream
behind the last token it took.
-/

namespace InfraSmells.Terraform

open Text (bytesOf lineFeed)

/-! ## Ranges that fit -/

/-- The number of lines of bytes that are not none: what follows the last newline is a line too. -/
def linesIn (bs : List UInt8) : Nat :=
  bs.count lineFeed + if bs.getLast? = some lineFeed then 0 else 1

/-- An end, which is exclusive, in a source of so many lines: on a line of it, or directly behind
the last newline. -/
def Position.Ends (lines : Nat) (p : Position) : Prop :=
  p.line ≤ lines ∨ p.line = lines + 1 ∧ p.column = 1

/-- The range begins on one of so many lines and ends behind its beginning. -/
structure Range.Fits (lines : Nat) (r : Range) : Prop where
  line_pos : 1 ≤ r.start.line
  column_pos : 1 ≤ r.start.column
  line_le : r.start.line ≤ lines
  ordered : r.start ≤ r.stop
  ends : r.stop.Ends lines

/-- The token has a place in a source of so many lines. Only the one that marks the end may begin
behind the last line. -/
structure Token.Fits (lines : Nat) (t : Token) : Prop where
  line_pos : 1 ≤ t.range.start.line
  column_pos : 1 ≤ t.range.start.column
  line_le : t.kind ≠ .eof → t.range.start.line ≤ lines
  ordered : t.range.start ≤ t.range.stop
  ends : t.range.stop.Ends lines

variable {lines : Nat}

/-- The range of a token fits, unless it marks the end. -/
theorem Token.Fits.range {t : Token} (h : t.Fits lines) (hkind : t.kind ≠ .eof) :
    t.range.Fits lines :=
  ⟨h.line_pos, h.column_pos, h.line_le hkind, h.ordered, h.ends⟩

/-- A range fits that begins as one that fits and has a later end. -/
theorem Range.Fits.widen {r : Range} {q : Position} (h : r.Fits lines) (hle : r.stop ≤ q)
    (hq : q.Ends lines) : Range.Fits lines ⟨r.start, q⟩ :=
  ⟨h.line_pos, h.column_pos, h.line_le, h.ordered.trans hle, hq⟩

/-- A range fits that leads from one that fits to a later one. -/
theorem Range.Fits.to {a b : Range} (ha : a.Fits lines) (hb : b.Fits lines)
    (hle : a.stop ≤ b.start) : (a.to b).Fits lines :=
  ha.widen (hle.trans hb.ordered) hb.ends

/-! ## Streams -/

/-- Tokens that stand one behind the other in a source of so many lines, from the position on. -/
def Stream (lines : Nat) : Position → List Token → Prop
  | _, [] => True
  | p, t :: ts => p ≤ t.range.start ∧ t.Fits lines ∧ Stream lines t.range.stop ts

namespace Stream

variable {p q : Position} {t : Token} {ts : List Token}

/-- A stream begins at any earlier position. -/
theorem mono (h : Stream lines p ts) (hle : q ≤ p) : Stream lines q ts := by
  cases ts with
  | nil => trivial
  | cons t ts => exact ⟨hle.trans h.1, h.2⟩

/-- A stream goes on behind its first token. -/
theorem tail (h : Stream lines p (t :: ts)) : Stream lines p ts :=
  h.2.2.mono (h.1.trans h.2.1.ordered)

/-- A stream goes on behind its first tokens. -/
theorem dropWhile (h : Stream lines p ts) (f : Token → Bool) : Stream lines p (ts.dropWhile f) := by
  induction ts with
  | nil => trivial
  | cons t ts ih =>
    rw [List.dropWhile_cons]
    split
    · exact ih h.tail
    · exact h

/-- Every token of a stream fits. -/
theorem fits (h : Stream lines p ts) : ∀ t ∈ ts, t.Fits lines := by
  induction ts with
  | nil => nofun
  | cons t ts ih => exact List.forall_mem_cons.2 ⟨h.2.1, ih h.tail⟩

/-- The tokens that a grammar sees are a stream. -/
theorem significant (h : Stream lines p ts) : Stream lines p (significant ts) := by
  induction ts generalizing p with
  | nil => trivial
  | cons t ts ih =>
    rw [Terraform.significant]
    split
    · next hcomment =>
      split
      · have hfits := h.2.1.range (by rw [hcomment]; decide)
        exact ⟨h.1, ⟨hfits.line_pos, hfits.column_pos, fun _ => hfits.line_le, hfits.ordered,
          hfits.ends⟩, ih h.2.2⟩
      · exact ih h.tail
    · exact ⟨h.1, h.2.1, ih h.2.2⟩

end Stream

/-! ## Places of lexemes -/

namespace Position.Reached

variable {p : Position} {bs more all : List UInt8}

/-- A position behind the first bytes of a source is an end in it. -/
theorem ends (h : p.Reached bs) (hall : bs <+: all) : p.Ends (linesIn all) := by
  obtain ⟨more, rfl⟩ := hall
  have hreached := h.append more
  have hline := hreached.line_le
  rw [Position.Ends, linesIn]
  split
  · next hlast =>
    have := hreached.column_eq hlast
    omega
  · omega

/-- A position that bytes follow is on a line of the source. -/
theorem line_le_linesIn (h : p.Reached bs) (hmore : more ≠ []) (hall : bs ++ more <+: all) :
    p.line ≤ linesIn all := by
  have hline := h.line_le
  obtain ⟨rest, rfl⟩ := hall
  rw [linesIn, List.append_assoc, List.count_append]
  split
  · next hlast =>
    rw [List.getLast?_append_of_ne_nil _ (by simp [hmore])] at hlast
    have := count_pos_of_getLast? hlast
    omega
  · omega

end Position.Reached

/-- The tokens of lexemes that are the bytes of a source from a position on are a stream from there.
-/
theorem stream_place {all : List UInt8} : ∀ {ls : List Lexeme} {p : Position} {bs : List UInt8},
    p.Reached bs → (∀ l ∈ ls, l.Regular) → (∀ l ∈ ls.getLast?, l.chars ≠ []) →
    bs ++ bytesOf (ls.flatMap (·.chars)) <+: all → Stream (linesIn all) p (place p ls)
  | [], p, bs, hp, _, _, hall => by
    rw [List.flatMap_nil, Text.bytesOf_nil, List.append_nil] at hall
    exact ⟨le_refl p, ⟨hp.line_pos, hp.column_pos, fun h => absurd rfl h, le_refl p, hp.ends hall⟩,
      trivial⟩
  | l :: ls, p, bs, hp, hregular, hlast, hall => by
    have hbytes : bytesOf ((l :: ls).flatMap (·.chars)) ≠ [] := by
      have hmem := List.getLast_mem (List.cons_ne_nil l ls)
      have hne := hlast _ (List.getLast?_eq_some_getLast (List.cons_ne_nil l ls))
      exact Text.bytesOf_ne_nil fun hnil => hne (List.flatMap_eq_nil_iff.1 hnil _ hmem)
    have hline := hp.line_le_linesIn hbytes hall
    have hstop := hp.behind l.chars
    rw [List.flatMap_cons, Text.bytesOf_append, ← List.append_assoc] at hall
    have ih := stream_place hstop (fun x hx => hregular x (.tail _ hx))
      (fun x hx => hlast x (by rw [List.getLast?_cons, hx]; rfl)) hall
    rw [place]
    split
    · exact ih.mono (p.le_behind l.chars)
    · exact ⟨le_refl p, ⟨hp.line_pos, hp.column_pos, fun _ => hline, p.le_behind l.chars,
        hstop.ends (List.IsPrefix.trans (List.prefix_append _ _) hall)⟩, ih⟩

/-- A text ends with a newline if this is its last character. -/
theorem endsWith_newline (cs : List Char) :
    Text.endsWith (String.ofList cs) "\n" = true ↔ cs.getLast? = some '\n' := by
  have hstart : ∀ ds : List Char,
      Text.beginsWith ['\n'] ds = true ↔ ds.head? = some '\n' := by
    intro ds
    cases ds with
    | nil => simp [Text.beginsWith, Text.afterStart]
    | cons d ds =>
      simp only [Text.beginsWith, Text.afterStart, List.head?_cons, Option.some_inj]
      split <;> simp_all [eq_comm]
  show Text.beginsWith ['\n'] (String.ofList cs).toList.reverse = true ↔ _
  rw [String.toList_ofList, hstart, List.head?_reverse]

/-- Where only blanks and comments come before the end, and no comment that ends its line, the end
is on a line of the source. -/
theorem line_le_of_significant_place {all : List UInt8} :
    ∀ {ls : List Lexeme} {p : Position} {bs : List UInt8} {t : Token} {ts : List Token},
    p.Reached bs → bs.getLast? ≠ some lineFeed → (∀ l ∈ ls, l.Regular) →
    bs ++ bytesOf (ls.flatMap (·.chars)) <+: all → significant (place p ls) = t :: ts →
    t.kind = .eof → t.range.start.line ≤ linesIn all
  | [], p, bs, t, ts, hp, hlast, _, hall, hfirst, _ => by
    cases hfirst
    rw [List.flatMap_nil, Text.bytesOf_nil, List.append_nil] at hall
    obtain ⟨more, rfl⟩ := hall
    cases more with
    | nil =>
      rw [List.append_nil, linesIn, if_neg hlast]
      exact hp.line_le
    | cons b more => exact hp.line_le_linesIn (List.cons_ne_nil b more) (List.prefix_refl _)
  | l :: ls, p, bs, t, ts, hp, hlast, hregular, hall, hfirst, hkind => by
    have ⟨hl, hls⟩ := List.forall_mem_cons.1 hregular
    rw [List.flatMap_cons, Text.bytesOf_append, ← List.append_assoc] at hall
    -- a lexeme that is passed over does not end with a newline, so none is the last byte behind it
    have hpass (hchars : l.chars.getLast? ≠ some '\n')
        (hfirst : significant (place (p.behind l.chars) ls) = t :: ts) :
        t.range.start.line ≤ linesIn all := by
      refine line_le_of_significant_place (hp.behind l.chars) ?_ hls hall hfirst hkind
      rw [List.getLast?_append, ne_eq, Option.or_eq_some_iff, Text.getLast?_bytesOf]
      tauto
    rw [place] at hfirst
    split at hfirst
    · next hspace =>
      exact hpass (fun hnewline => hl.blank hspace (List.mem_of_getLast? hnewline)) hfirst
    rw [significant] at hfirst
    dsimp only at hfirst
    split at hfirst
    · split at hfirst
      · cases hfirst
        cases hkind
      · next hopen => exact hpass (mt (endsWith_newline _).2 hopen) hfirst
    · cases hfirst
      exact absurd hkind hl.kind_ne

/-! ## The tokens of a source -/

/-- A byte order mark is read as one character. -/
theorem carriersFrom_mark (bs : List UInt8) :
    Text.carriersFrom 0 (0xEF :: 0xBB :: 0xBF :: bs) = '\ufeff' :: Text.carriersFrom 0 bs := by
  rfl

/-- Only a byte order mark is read as this character. -/
theorem afterMark?_of_carriersFrom {bs : List UInt8} {cs : List Char}
    (h : Text.carriersFrom 0 bs = '\ufeff' :: cs) :
    ∃ rest, SourceFile.afterMark? bs = some rest ∧ Text.carriersFrom 0 rest = cs := by
  have hbytes := Text.bytes_carriersFrom 0 bs
  rw [h, List.drop_zero] at hbytes
  subst hbytes
  exact ⟨_, rfl, (List.cons.inj ((carriersFrom_mark _).symm.trans h)).2⟩

/-- The tokens of bytes are the lexemes behind the byte order mark in their places. -/
theorem tokens_ofBytes (bs : List UInt8) : ∃ offset, tokens (Text.ofBytes bs) =
    place ⟨1, 1, offset⟩ (lexemes (Text.ofBytes ((SourceFile.afterMark? bs).getD bs)).toList) := by
  simp only [Text.ofBytes, String.toList_ofList, tokens]
  split
  · next cs hcs =>
    obtain ⟨rest, hrest, hcs⟩ := afterMark?_of_carriersFrom hcs
    rw [hrest, Option.getD_some, hcs]
    exact ⟨3, rfl⟩
  · next hmark =>
    have hnone : SourceFile.afterMark? bs = none := by
      unfold SourceFile.afterMark?
      split
      · exact absurd (carriersFrom_mark _) (hmark _)
      · rfl
    rw [hnone]
    exact ⟨0, rfl⟩

/-- The tokens of bytes are a stream in the lines behind the byte order mark. The first that a
grammar sees is on one of these lines. -/
theorem stream_tokens {bs content : List UInt8}
    (hcontent : (SourceFile.afterMark? bs).getD bs = content) :
    (∃ p, Stream (linesIn content) p (tokens (Text.ofBytes bs))) ∧
      ∀ t ts, significant (tokens (Text.ofBytes bs)) = t :: ts → t.kind = .eof →
        t.range.start.line ≤ linesIn content := by
  obtain ⟨offset, htokens⟩ := tokens_ofBytes bs
  have hlexed := lexemes_lexed (Text.ofBytes content).toList
  have hbytes : bytesOf (Text.ofBytes content).toList = content := Text.toBytes_ofBytes content
  rw [hbytes] at hlexed
  have hprefix : [] ++ bytesOf ((lexemes (Text.ofBytes content).toList).flatMap (·.chars)) <+:
      content := by
    rw [List.nil_append]
    exact hlexed.bytes
  have hstart : Position.Reached [] ⟨1, 1, offset⟩ :=
    ⟨Nat.le_refl 1, Nat.le_refl 1, Nat.le_refl 1, nofun⟩
  rw [htokens, hcontent]
  refine ⟨⟨_, stream_place hstart hlexed.regular hlexed.last hprefix⟩, fun t ts => ?_⟩
  exact line_le_of_significant_place hstart nofun hlexed.regular hprefix

end InfraSmells.Terraform
