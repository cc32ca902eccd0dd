import InfraSmells.Config.BuiltIn
import InfraSmells.Proofs.Text.Classes
import InfraSmells.Security.Comments
import Mathlib.Data.List.Chain

/-!
# Words that can be found in comments

A comment is cut into the longest runs of word characters and of marks (`Security.mem_tokens_iff`), and a
suspicious word is found where it is such a run of a line in lower case. The first word that is found
decides what is reported (`Security.suspiciousComment_eq`). So a word of letters, digits and underscores is
found wherever white space stands around it, and so is a word of marks; a word that mixes the two, such as
one with a hyphen in it, is no run of any line (`Security.suspicious_words_found`,
`Security.hyphenated_word_missed`).
-/

namespace InfraSmells.Security

variable {k : TokenClass} {run cs : List Char}

/-! ## Runs -/

/-- The characters stand in others as a run: all of them are of one class, and their neighbours are not. -/
def IsRun (k : TokenClass) (run cs : List Char) : Prop :=
  ∃ before after, cs = before ++ run ++ after ∧ run ≠ [] ∧ (∀ c ∈ run, tokenClass c = k) ∧
    (∀ c ∈ before.getLast?, tokenClass c ≠ k) ∧ ∀ c ∈ after.head?, tokenClass c ≠ k

/-- Runs of classes that make up a text: none is empty, each is of its class, and neighbours are of
different classes. -/
structure AreRuns (runs : List (TokenClass × List Char)) (cs : List Char) : Prop where
  flatten_eq : runs.flatMap Prod.snd = cs
  uniform : ∀ r ∈ runs, r.2 ≠ [] ∧ ∀ c ∈ r.2, tokenClass c = r.1
  differ : runs.IsChain (·.1 ≠ ·.1)

/-- The first run is of the class of the character that was put in front. -/
theorem head?_addToRuns (c : Char) (runs : List (TokenClass × List Char)) :
    ∃ r, (addToRuns c runs).head? = some r ∧ r.1 = tokenClass c := by
  unfold addToRuns
  split
  · split
    · next h => exact ⟨_, rfl, h⟩
    · exact ⟨_, rfl, rfl⟩
  · exact ⟨_, rfl, rfl⟩

/-- One more character joins the first run or makes a run of its own. -/
theorem AreRuns.add {runs : List (TokenClass × List Char)} (h : AreRuns runs cs) (c : Char) :
    AreRuns (addToRuns c runs) (c :: cs) := by
  obtain ⟨hflat, huniform, hdiffer⟩ := h
  unfold addToRuns
  split
  · next k ds rest =>
    obtain ⟨hfirst, hrest⟩ := List.forall_mem_cons.1 huniform
    split
    · next hk =>
      refine ⟨?_, ?_, ?_⟩
      · simpa using hflat
      · refine List.forall_mem_cons.2 ⟨⟨List.cons_ne_nil c ds, ?_⟩, hrest⟩
        exact List.forall_mem_cons.2 ⟨hk.symm, hfirst.2⟩
      · cases hdiffer with
        | singleton => exact .singleton _
        | cons_cons hne hchain => exact .cons_cons hne hchain
    · next hk =>
      refine ⟨?_, ?_, .cons_cons (Ne.symm hk) hdiffer⟩
      · simpa using hflat
      · exact List.forall_mem_cons.2 ⟨⟨List.cons_ne_nil c [], by simp⟩, huniform⟩
  · obtain rfl : cs = [] := by simpa using hflat.symm
    exact ⟨rfl, by simp, .singleton _⟩

/-- The runs of a text make it up. -/
theorem areRuns_foldr (cs : List Char) : AreRuns (cs.foldr addToRuns []) cs := by
  induction cs with
  | nil => exact ⟨rfl, nofun, .nil⟩
  | cons c cs ih => exact ih.add c

/-- Runs of another class stay as they are when characters are put in front. -/
theorem foldr_addToRuns {rest : List (TokenClass × List Char)} : ∀ {cs : List Char},
    (∀ c ∈ cs.getLast?, ∀ r ∈ rest.head?, r.1 ≠ tokenClass c) →
      cs.foldr addToRuns rest = cs.foldr addToRuns [] ++ rest
  | [], _ => rfl
  | [c], h => by
    cases rest with
    | nil => rfl
    | cons r rest => simpa [addToRuns] using h c rfl r rfl
  | c :: d :: cs, h => by
    obtain ⟨r, hr, -⟩ := head?_addToRuns d (cs.foldr addToRuns [])
    obtain ⟨runs, hruns⟩ := List.head?_eq_some_iff.1 hr
    have hrest : (d :: cs).foldr addToRuns rest = (d :: cs).foldr addToRuns [] ++ rest :=
      foldr_addToRuns (by simpa using h)
    have hnil : (d :: cs).foldr addToRuns [] = r :: runs := hruns
    have hcons (ds : List Char) (e : List (TokenClass × List Char)) :
        (c :: ds).foldr addToRuns e = addToRuns c (ds.foldr addToRuns e) := rfl
    rw [hcons, hcons, hrest, hnil, List.cons_append]
    simp only [addToRuns]
    split <;> rfl

/-- Characters of one class are one run. -/
theorem foldr_addToRuns_uniform : ∀ {run : List Char}, run ≠ [] → (∀ c ∈ run, tokenClass c = k) →
    run.foldr addToRuns [] = [(k, run)]
  | [c], _, h => by simp [addToRuns, h c]
  | c :: d :: run, _, h => by
    obtain ⟨hc, hrest⟩ := List.forall_mem_cons.1 h
    rw [List.foldr_cons, foldr_addToRuns_uniform (List.cons_ne_nil d run) hrest]
    simp [addToRuns, hc]

/-- Of runs that make up a text, each stands in it as a run. -/
theorem AreRuns.isRun {runs : List (TokenClass × List Char)} (h : AreRuns runs cs)
    (hrun : (k, run) ∈ runs) : IsRun k run cs := by
  obtain ⟨hflat, huniform, hdiffer⟩ := h
  obtain ⟨before, after, rfl⟩ := List.append_of_mem hrun
  obtain ⟨hne, hclass⟩ := huniform (k, run) (by simp)
  obtain ⟨-, hafter, hbefore⟩ := List.isChain_append.1 hdiffer
  refine ⟨before.flatMap Prod.snd, after.flatMap Prod.snd, by simp [← hflat], hne, hclass, ?_, ?_⟩
  · rcases List.eq_nil_or_concat' before with rfl | ⟨before, r, rfl⟩
    · exact nofun
    · obtain ⟨hrne, hr⟩ := huniform r (by simp)
      intro c hc
      rw [List.flatMap_append, List.flatMap_singleton, List.getLast?_append_of_ne_nil _ hrne] at hc
      rw [hr c (List.mem_of_getLast? hc)]
      exact hbefore r (by simp) (k, run) rfl
  · cases after with
    | nil => exact nofun
    | cons r after =>
      obtain ⟨hrne, hr⟩ := huniform r (by simp)
      intro c hc
      rw [List.flatMap_cons, List.head?_append_of_ne_nil _ hrne] at hc
      rw [hr c (List.mem_of_head? hc)]
      exact Ne.symm (List.isChain_cons_cons.1 hafter).1

/-- What stands in a text as a run is one of its runs. -/
theorem IsRun.mem_runs (h : IsRun k run cs) : (k, run) ∈ cs.foldr addToRuns [] := by
  obtain ⟨before, after, rfl, hne, hclass, hbefore, hafter⟩ := h
  have hrest : ∀ r ∈ (after.foldr addToRuns []).head?, r.1 ≠ k := by
    cases after with
    | nil => exact nofun
    | cons c after =>
      intro r hr
      obtain ⟨r', hr', hc⟩ := head?_addToRuns c (after.foldr addToRuns [])
      cases hr'.symm.trans hr
      rw [hc]
      exact hafter c rfl
  have hlast : ∀ c ∈ run.getLast?, tokenClass c = k := fun c hc =>
    hclass c (List.mem_of_getLast? hc)
  have hrun : run.foldr addToRuns (after.foldr addToRuns []) =
      (k, run) :: after.foldr addToRuns [] := by
    rw [foldr_addToRuns fun c hc r hr => by rw [hlast c hc]; exact hrest r hr,
      foldr_addToRuns_uniform hne hclass]
    rfl
  rw [List.append_assoc, List.foldr_append, List.foldr_append, hrun, foldr_addToRuns]
  · simp
  · intro c hc r hr
    cases hr
    exact (hbefore c hc).symm

/-- The runs of a text are those that stand in it as runs. -/
theorem mem_runs_iff : (k, run) ∈ cs.foldr addToRuns [] ↔ IsRun k run cs :=
  ⟨(areRuns_foldr cs).isRun, IsRun.mem_runs⟩

/-! ## Tokens -/

/-- The word is a token of the line: in lower case, a run of word characters or of marks. -/
def IsToken (w line : String) : Prop :=
  ∃ k, k ≠ .space ∧ IsRun k w.toList (Text.lower line).toList

/-- The tokens of a text are its runs but for white space. -/
theorem mem_tokens_iff {w text : String} :
    w ∈ tokens text ↔ ∃ k, k ≠ .space ∧ IsRun k w.toList text.toList := by
  simp only [tokens, List.mem_map, List.mem_filter, bne_iff_ne, ← mem_runs_iff, Prod.exists]
  constructor
  · rintro ⟨k, run, ⟨hrun, hk⟩, rfl⟩
    exact ⟨k, hk, by rwa [String.toList_ofList]⟩
  · rintro ⟨k, hk, hrun⟩
    exact ⟨k, w.toList, ⟨hrun, hk⟩, String.ofList_toList⟩

instance (w : String) : DecidablePred (IsToken w) := fun line =>
  decidable_of_iff (w ∈ tokens (Text.lower line)) mem_tokens_iff

/-- The word consists of characters of one class. -/
def IsOfClass (k : TokenClass) (w : String) : Prop :=
  w.toList ≠ [] ∧ ∀ c ∈ w.toList, tokenClass c = k

/-- A token is of one class. -/
theorem IsToken.isOfClass {w line : String} (h : IsToken w line) :
    IsOfClass .word w ∨ IsOfClass .mark w := by
  obtain ⟨k, hk, _, _, _, hne, hclass, -⟩ := h
  cases k with
  | word => exact .inl ⟨hne, hclass⟩
  | mark => exact .inr ⟨hne, hclass⟩
  | space => exact absurd rfl hk

/-- A token is a part of the line in lower case. -/
theorem IsToken.infix {w line : String} (h : IsToken w line) :
    w.toList <:+: (Text.lower line).toList := by
  obtain ⟨k, -, before, after, hline, -⟩ := h
  exact ⟨before, after, hline.symm⟩

/-! ## Words between delimiters -/

/-- The classes in ASCII. -/
theorem tokenClass_ascii {c : Char} (hc : c.toNat < 0x80) : tokenClass c =
    if Text.isWordChar c then .word
    else if c == ' ' || c == '\t' || c == '\n' || c == '\r' || c.toNat == 12 then .space
    else .mark := by
  have hword : (c == '_' || Text.isLetter c || Text.isNumber c) = Text.isWordChar c := by
    rw [Text.isLetter_ascii hc, Text.isNumber_ascii hc, Text.isWordChar, Bool.eq_iff_iff]
    simp only [Bool.or_eq_true]
    tauto
  rw [tokenClass, hword]

/-- The word stands in the line in some letter case, with delimiters or the ends of the line around it. -/
def IsDelimited (delimits : Char → Bool) (w line : String) : Prop :=
  ∃ before inside after, Text.characters line = before ++ inside ++ after ∧
    Text.lower (Text.ofCharacters inside) = w ∧
    before.getLast?.all delimits = true ∧ after.head?.all delimits = true

/-- Does the character divide words and marks? -/
def divides (c : Char) : Bool :=
  tokenClass c == .space

/-- A blank is no part of a word. -/
theorem tokenClass_blank {c : Char} (h : Text.isBlank c = true) : tokenClass c ≠ .word := by
  have hunderscore : c ≠ '_' := by
    rintro rfl
    cases h
  simp only [tokenClass, Text.isLetter_blank h, Text.isNumber_blank h, beq_eq_false_iff_ne.2 hunderscore]
  simp only [Bool.or_self, Bool.false_eq_true, if_false]
  split <;> simp

/-- What divides words and marks is a blank. -/
theorem isBlank_of_divides {c : Char} (h : divides c = true) : Text.isBlank c = true := by
  rw [divides, beq_iff_eq, tokenClass] at h
  split at h
  · cases h
  split at h
  · next hspace =>
    simp only [Bool.or_eq_true, beq_iff_eq] at hspace
    rcases hspace with (((rfl | rfl) | rfl) | rfl) | hfeed
    · rfl
    · rfl
    · rfl
    · rfl
    · simp [Text.isBlank, hfeed]
  · cases h

/-- A blank is carried by itself. -/
theorem carry_blank {c : Char} (h : Text.isBlank c = true) : Text.carry c = [c] := by
  obtain ⟨r, hr, -, hhi⟩ := Text.isBlank_iff.1 h
  have hlow : ∀ r ∈ Text.blankRanges, r.2 < 0xF1E80 := by decide
  have hstray : Text.isStray c = false := by
    have := hlow r hr
    simp [Text.isStray]
    omega
  rw [Text.carry, hstray]
  rfl

/-- A word of one class is a run where blanks of another class delimit it. -/
theorem IsDelimited.isRun {delimits : Char → Bool} {w line : String} (h : IsDelimited delimits w line)
    (hw : IsOfClass k w)
    (hdelimits : ∀ c, delimits c = true → Text.isBlank c = true ∧ tokenClass c ≠ k) :
    IsRun k w.toList (Text.lower line).toList := by
  obtain ⟨before, inside, after, hline, rfl, hbefore, hafter⟩ := h
  have hlower (cs : List Char) : (Text.ofCharacters (cs.map Text.lowerChar)).toList =
      cs.flatMap fun c => Text.carry (Text.lowerChar c) := by
    rw [Text.ofCharacters, String.toList_ofList, List.flatMap_map]
  have hkept {c : Char} (hc : Text.isBlank c = true) : Text.carry (Text.lowerChar c) = [c] := by
    rw [Text.lowerChar_blank hc, carry_blank hc]
  refine ⟨(Text.ofCharacters (before.map Text.lowerChar)).toList,
    (Text.ofCharacters (after.map Text.lowerChar)).toList, ?_, hw.1, hw.2, ?_, ?_⟩
  · rw [Text.lower, hline, Text.lower_ofCharacters, List.map_append, List.map_append,
      Text.ofCharacters_append, Text.ofCharacters_append, String.toList_append, String.toList_append]
  · rcases List.eq_nil_or_concat' before with rfl | ⟨before, d, rfl⟩
    · simp [Text.ofCharacters]
    · obtain ⟨hd, hclass⟩ := hdelimits d (by simpa using hbefore)
      rw [hlower, List.flatMap_append, List.flatMap_singleton, hkept hd]
      simpa using hclass
  · cases after with
    | nil => simp [Text.ofCharacters]
    | cons d after =>
      obtain ⟨hd, hclass⟩ := hdelimits d (by simpa using hafter)
      rw [hlower, List.flatMap_cons, hkept hd]
      simpa using hclass

/-! ## Comments -/

/-- The first word that is a token of some line is reported for each line of which it is one. -/
theorem suspiciousComment_eq (config : Config) (c : Context) (m : Comment) (path : String) :
    suspiciousComment config c (.comment m) path =
      (config.security.suspiciousWords.find? fun w =>
          ∃ line ∈ Text.split '\n' m.content, IsToken w line).elim []
        fun w => ((Text.split '\n' m.content).filter fun line => IsToken w line).map
          (Finding.about "sec_susp_comm" (.comment m) path) := by
  have hhits (w : String) : ((Text.split '\n' m.content).filterMap fun line =>
        if (tokens (Text.lower line)).contains w then
          some (Finding.about "sec_susp_comm" (.comment m) path line)
        else none) =
      ((Text.split '\n' m.content).filter fun line => IsToken w line).map
        (Finding.about "sec_susp_comm" (.comment m) path) := by
    rw [← List.filterMap_eq_map, List.filterMap_filter]
    refine List.filterMap_congr fun line _ => ?_
    simp only [List.contains_iff_mem, IsToken, ← mem_tokens_iff, decide_eq_true_eq, Function.comp_apply]
  have hfound (w : String) : (!(((Text.split '\n' m.content).filter fun line => IsToken w line).map
        (Finding.about "sec_susp_comm" (.comment m) path)).isEmpty) =
      decide (∃ line ∈ Text.split '\n' m.content, IsToken w line) := by
    rw [Bool.eq_iff_iff, decide_eq_true_iff, Bool.not_eq_true', List.isEmpty_eq_false_iff,
      ne_eq, List.map_eq_nil_iff, List.filter_eq_nil_iff]
    simp
  simp only [suspiciousComment, List.filterMap_map, hhits, List.find?_map, Function.comp_def, hfound]
  cases config.security.suspiciousWords.find? fun w =>
      decide (∃ line ∈ Text.split '\n' m.content, IsToken w line) with
  | none => rfl
  | some w => rfl

/-- A comment is reported if some word is a token of one of its lines. -/
theorem suspiciousComment_ne_nil_iff {config : Config} {c : Context} {m : Comment} {path : String} :
    suspiciousComment config c (.comment m) path ≠ [] ↔
      ∃ w ∈ config.security.suspiciousWords, ∃ line ∈ Text.split '\n' m.content, IsToken w line := by
  rw [suspiciousComment_eq]
  cases hfind : config.security.suspiciousWords.find? fun w =>
      decide (∃ line ∈ Text.split '\n' m.content, IsToken w line) with
  | none =>
    refine iff_of_false (fun h => h rfl) ?_
    rintro ⟨w, hw, htoken⟩
    exact List.find?_eq_none.1 hfind w hw (decide_eq_true htoken)
  | some w =>
    have hholds := List.find?_some hfind
    have htoken := of_decide_eq_true hholds
    refine iff_of_true ?_ ⟨w, List.mem_of_find?_eq_some hfind, htoken⟩
    obtain ⟨line, hline, htoken⟩ := htoken
    rw [Option.elim_some, ne_eq, List.map_eq_nil_iff, List.filter_eq_nil_iff]
    exact fun hnone => hnone line hline (decide_eq_true htoken)

/-- What is reported about a comment is its lines with the first suspicious word that is a token of some
line. A word of letters, numbers and underscores is found if white space delimits it, and so is a word of
marks if it is white space that divides marks. A word of neither kind is a token of no line. -/
theorem suspicious_words_found (config : Config) (c : Context) (m : Comment) (path : String) :
    (suspiciousComment config c (.comment m) path =
      (config.security.suspiciousWords.find? fun w =>
          ∃ line ∈ Text.split '\n' m.content, IsToken w line).elim []
        fun w => ((Text.split '\n' m.content).filter fun line => IsToken w line).map
          (Finding.about "sec_susp_comm" (.comment m) path)) ∧
    (∀ w ∈ config.security.suspiciousWords, ∀ line ∈ Text.split '\n' m.content,
      IsOfClass .word w ∧ IsDelimited Text.isBlank w line ∨
          IsOfClass .mark w ∧ IsDelimited divides w line →
        suspiciousComment config c (.comment m) path ≠ []) ∧
    (∀ w, ¬IsOfClass .word w → ¬IsOfClass .mark w → ∀ line, ¬IsToken w line) := by
  refine ⟨suspiciousComment_eq config c m path, fun w hw line hline hfound => ?_,
    fun w hword hmark line htoken => htoken.isOfClass.elim hword hmark⟩
  have htoken : IsToken w line := by
    rcases hfound with ⟨hclass, hdelimited⟩ | ⟨hclass, hdelimited⟩
    · exact ⟨.word, by decide, hdelimited.isRun hclass fun c hc => ⟨hc, tokenClass_blank hc⟩⟩
    · refine ⟨.mark, by decide, hdelimited.isRun hclass fun c hc => ⟨isBlank_of_divides hc, ?_⟩⟩
      rw [eq_of_beq hc]
      decide
  exact suspiciousComment_ne_nil_iff.2 ⟨w, hw, line, hline, htoken⟩

/-- A built-in word in capitals. -/
theorem suspicious_word_found_in_capitals :
    let config := Config.builtIn .ansible
    suspiciousComment config default (.comment ⟨.nowhere, "# TODO encrypt this"⟩) "a.yml" ≠ [] := by
  intro config
  refine (suspicious_words_found config default ⟨.nowhere, "# TODO encrypt this"⟩ "a.yml").2.1
    "todo" (by decide) "# TODO encrypt this" (by decide +kernel) (.inl ⟨⟨by decide, ?_⟩, ?_⟩)
  · intro c hc
    have hall : "todo".toList.all (fun c => decide (c.toNat < 0x80) && Text.isWordChar c) = true := by
      decide
    have hword := List.all_eq_true.1 hall c hc
    rw [Bool.and_eq_true, decide_eq_true_eq] at hword
    rw [tokenClass_ascii hword.1, if_pos hword.2]
  · exact ⟨"# ".toList, "TODO".toList, " encrypt this".toList, by decide +kernel, by decide +kernel,
      by decide, by decide⟩

/-- The built-in word with a hyphen stands in the comment by itself, in lower case and without white space
in it, and yet nothing is reported. -/
theorem hyphenated_word_missed :
    let config := Config.builtIn .ansible
    let m : Comment := ⟨.nowhere, "# to-do encrypt this"⟩
    ("to-do" ∈ config.security.suspiciousWords ∧ Text.lower "to-do" = "to-do" ∧
        ∀ c ∈ "to-do".toList, Text.isBlank c = false) ∧
      (∃ line ∈ Text.split '\n' m.content, IsDelimited Text.isBlank "to-do" line) ∧
      suspiciousComment config default (.comment m) "a.yml" = [] := by
  intro config m
  have hlines : Text.split '\n' m.content = [m.content] := by decide +kernel
  have hblanks : "to-do".toList.all (fun c => !Text.isBlank c) = true := by decide
  refine ⟨⟨by decide, by decide +kernel, fun c hc => ?_⟩, ⟨m.content, by simp [hlines], ?_⟩, ?_⟩
  · simpa using List.all_eq_true.1 hblanks c hc
  · exact ⟨"# ".toList, "to-do".toList, " encrypt this".toList, by decide +kernel, by decide +kernel,
      by decide, by decide⟩
  · by_contra hreported
    obtain ⟨w, hw, line, hline, htoken⟩ := suspiciousComment_ne_nil_iff.1 hreported
    obtain rfl : line = m.content := by simpa [hlines] using hline
    by_cases hhyphen : w = "to-do"
    · subst hhyphen
      rcases htoken.isOfClass with ⟨-, hclass⟩ | ⟨-, hclass⟩
      · have hmark := hclass '-' (by decide)
        rw [tokenClass_ascii (by decide)] at hmark
        cases hmark
      · have hword := hclass 't' (by decide)
        rw [tokenClass_ascii (by decide)] at hword
        cases hword
    · have hothers : ∀ w ∈ config.security.suspiciousWords, w ≠ "to-do" →
          ¬w.toList <:+: (Text.lower m.content).toList := by decide +kernel
      exact hothers w hw hhyphen htoken.infix

end InfraSmells.Security
