import InfraSmells.Config.Words
import InfraSmells.Proofs.Text.Case
import InfraSmells.Proofs.Text.Parts
import Mathlib.Logic.Basic

/-!
# Keywords in names

A keyword is found in a name if the name holds it behind nothing but characters that may lead to a keyword,
and exactly one of the two characters around its end belongs to a word (`Keyword.StandsIn`). The search tries
every place that such characters lead to, so no occurrence hides a later one
(`Keyword.standsWithin_iff_exists`), and the keywords of a configuration are found in a name exactly where they
stand in it (`Keyword.isIn_iff_standsIn`); only those of secrets also match in capitals.

A keyword that matches in either case is looked for as it is written and in capitals. If the keyword and
a name are written in ASCII without capitals, the two searches in the name have the same result, and so
do those in the name in capitals (`Keyword.isIn_upper`): capitals of different characters differ and
belong to words if these do (`Text.upperChar_of_isSmall`), and a keyword that is found in letters of the
other case has no letters.
-/

namespace InfraSmells

/-- A letter or digit of ASCII, or the underscore. -/
def Text.IsWord (c : Char) : Prop :=
  c = '_' ∨ 'A' ≤ c ∧ c ≤ 'Z' ∨ 'a' ≤ c ∧ c ≤ 'z' ∨ '0' ≤ c ∧ c ≤ '9'

/-- The characters that belong to words. -/
theorem Text.isWordChar_iff {c : Char} : isWordChar c = true ↔ IsWord c := by
  simp only [isWordChar, isDigit, IsWord, Bool.or_eq_true, Bool.and_eq_true, decide_eq_true_eq, beq_iff_eq]
  tauto

namespace Keyword

open Text (IsWord)

variable {word cs : List Char} {before : Option Char}

/-- A character of a word, or one of the marks that names are put together with. -/
def Leads (c : Char) : Prop :=
  IsWord c ∨ c ∈ ['$', '/', '.', '[', ']', '-']

/-- The word stands in a name between two parts of it: only characters that may lead to a keyword come before
it, and exactly one of the characters around its end, if there are such, belongs to a word. -/
structure StandsIn (word name front rest : List Char) : Prop where
  parts : name = front ++ word ++ rest
  leads : ∀ c ∈ front, Leads c
  ends : Xor (∃ c ∈ (front ++ word).getLast?, IsWord c) (∃ c ∈ rest.head?, IsWord c)

/-! ## Places of a word -/

/-- The characters that may stand before a keyword. -/
theorem mayPrecede_iff {c : Char} : mayPrecede c = true ↔ Leads c := by
  rw [mayPrecede, Leads, Bool.or_eq_true, Text.isWordChar_iff, List.contains_iff_mem]
  rfl

/-- A word ends or begins where exactly one of two characters belongs to a word. -/
theorem isBoundary_iff {a b : Option Char} :
    isBoundary a b = true ↔ Xor (∃ c ∈ a, IsWord c) (∃ c ∈ b, IsWord c) := by
  have hany (o : Option Char) : o.any Text.isWordChar = true ↔ ∃ c ∈ o, IsWord c := by
    cases o <;> simp [Text.isWordChar_iff]
  rw [isBoundary, bne_iff_ne, ne_eq, Bool.eq_iff_iff, hany, hany]
  exact (xor_iff_not_iff _ _).symm

/-- A word stands at the head of characters if they begin with it and it ends at a boundary. -/
theorem standsAt_iff : standsAt word before cs = true ↔
    ∃ rest, cs = word ++ rest ∧ isBoundary (word.getLast? <|> before) rest.head? = true := by
  simp only [← Text.afterStart_eq_some_iff, standsAt]
  split
  · next rest hrest => simp [hrest]
  · next hnone => simp [hnone]

/-- The last of characters that are not none does not depend on what is before them. -/
theorem getLast?_cons_orElse (c : Char) (cs : List Char) (before : Option Char) :
    ((c :: cs).getLast? <|> before) = (cs.getLast? <|> some c) := by
  cases cs <;> simp [List.getLast?_cons]

/-- A word stands within characters if it stands at some place of them to which only characters lead that may
come before a keyword. -/
theorem standsWithin_iff_exists : standsWithin word before cs = true ↔
    ∃ front rest, cs = front ++ word ++ rest ∧ (∀ c ∈ front, mayPrecede c = true) ∧
      isBoundary ((front ++ word).getLast? <|> before) rest.head? = true := by
  induction cs generalizing before with
  | nil =>
    rw [standsWithin, standsAt_iff]
    constructor
    · rintro ⟨rest, hparts, hends⟩
      exact ⟨[], rest, hparts, nofun, hends⟩
    · rintro ⟨front, rest, hparts, -, hends⟩
      obtain ⟨rfl, rfl, rfl⟩ : front = [] ∧ word = [] ∧ rest = [] := by simpa using hparts.symm
      exact ⟨[], rfl, hends⟩
  | cons c cs ih =>
    rw [standsWithin, Bool.or_eq_true, Bool.and_eq_true, standsAt_iff, ih]
    constructor
    · rintro (⟨rest, hparts, hends⟩ | ⟨hc, front, rest, rfl, hfront, hends⟩)
      · exact ⟨[], rest, hparts, nofun, hends⟩
      · -- The place lies behind `c`, which is the character before it if nothing else is in between.
        refine ⟨c :: front, rest, rfl, List.forall_mem_cons.2 ⟨hc, hfront⟩, ?_⟩
        rwa [List.cons_append, getLast?_cons_orElse]
    · rintro ⟨front, rest, hparts, hfront, hends⟩
      cases front with
      | nil => exact .inl ⟨rest, hparts, hends⟩
      | cons d front =>
        obtain ⟨rfl, rfl⟩ := List.cons.inj hparts
        obtain ⟨hc, hfront⟩ := List.forall_mem_cons.1 hfront
        rw [List.cons_append, getLast?_cons_orElse] at hends
        exact .inr ⟨hc, front, rest, rfl, hfront, hends⟩

/-- A word stands within a name if it stands in it between some parts. -/
theorem standsWithin_iff_standsIn {name : List Char} :
    standsWithin word none name = true ↔ ∃ front rest, StandsIn word name front rest := by
  have hlast (o : Option Char) : (o <|> none) = o := by cases o <;> rfl
  rw [standsWithin_iff_exists]
  refine exists_congr fun front => exists_congr fun rest => ?_
  simp only [hlast, isBoundary_iff, mayPrecede_iff]
  exact ⟨fun ⟨hparts, hleads, hends⟩ => ⟨hparts, hleads, hends⟩,
    fun h => ⟨h.parts, h.leads, h.ends⟩⟩

/-! ## Keywords of a configuration -/

/-- All keywords of secrets match in either case. -/
theorem eitherCase_of_mem_secretKeywords {c : Config} {k : Keyword} (h : k ∈ c.secretKeywords) :
    k.eitherCase = true := by
  simp only [Config.secretKeywords, Config.keywordsOf, List.mem_append, List.mem_map] at h
  obtain (⟨w, -, rfl⟩ | ⟨w, -, rfl⟩) | ⟨w, -, rfl⟩ := h <;> rfl

/-- No keyword of administrators matches in either case. -/
theorem eitherCase_of_mem_adminKeywords {c : Config} {k : Keyword} (h : k ∈ c.adminKeywords) :
    k.eitherCase = false := by
  simp only [Config.adminKeywords, Config.keywordsOf, List.mem_append, List.mem_map] at h
  obtain ⟨w, -, rfl⟩ | ⟨w, -, rfl⟩ := h <;> rfl

/-- A keyword of a configuration is found in a name if and only if its word stands somewhere in the name, or,
if it is a keyword of secrets, its word in capitals. -/
theorem isIn_iff_standsIn (c : Config) (k : Keyword) (hk : k ∈ c.secretKeywords ∨ k ∈ c.adminKeywords)
    (name : String) :
    k.isIn name = true ↔ ∃ word front rest,
      (word = Text.characters k.word ∨
        k ∈ c.secretKeywords ∧ word = Text.characters (Text.upper k.word)) ∧
      StandsIn word (Text.characters name) front rest := by
  have hcase : k.eitherCase = true ↔ k ∈ c.secretKeywords := by
    refine ⟨fun heither => hk.resolve_right fun hadmin => ?_, eitherCase_of_mem_secretKeywords⟩
    rw [eitherCase_of_mem_adminKeywords hadmin] at heither
    cases heither
  rw [isIn, Bool.or_eq_true, Bool.and_eq_true, hcase, standsWithin_iff_standsIn,
    standsWithin_iff_standsIn]
  constructor
  · rintro (⟨front, rest, h⟩ | ⟨hsecret, front, rest, h⟩)
    · exact ⟨_, front, rest, .inl rfl, h⟩
    · exact ⟨_, front, rest, .inr ⟨hsecret, rfl⟩, h⟩
  · rintro ⟨word, front, rest, hword | ⟨hsecret, hword⟩, h⟩
    · rw [hword] at h
      exact .inl ⟨front, rest, h⟩
    · rw [hword] at h
      exact .inr ⟨hsecret, front, rest, h⟩

/-- In `key_of_KEY-1` no word ends behind the keyword as it is written, but one ends behind its capitals. -/
theorem isIn_iff_standsIn_capitals :
    let c : Config := { security := { passwords := ["key"] } }
    let k : Keyword := ⟨"key", .password, true⟩
    (k ∈ c.secretKeywords ∨ k ∈ c.adminKeywords) ∧ k.isIn "key_of_KEY-1" = true ∧
      ¬∃ front rest, StandsIn "key".toList "key_of_KEY-1".toList front rest := by
  intro c k
  have hk : k ∈ c.secretKeywords := by decide +kernel
  have hupper : Text.characters (Text.upper k.word) = "KEY".toList := by decide +kernel
  have hname : Text.characters "key_of_KEY-1" = "key_of_KEY-1".toList := by decide +kernel
  refine ⟨.inl hk, (isIn_iff_standsIn c k (.inl hk) _).2 ?_, ?_⟩
  · refine ⟨"KEY".toList, "key_of_".toList, "-1".toList, .inr ⟨hk, hupper.symm⟩, hname, ?_, ?_⟩
    · intro x hx
      exact mayPrecede_iff.1 (List.all_eq_true.1 (by decide) x hx)
    · exact isBoundary_iff.1 (by decide)
  · rw [← standsWithin_iff_standsIn]
    decide

end Keyword

/-! ## Capitals of ASCII -/

namespace Text

/-- The capital of a character of ASCII that is none is of ASCII, leads back to the character, stays as
it is in upper case, and may stand in a word or before a keyword if the character may. -/
theorem upperChar_of_isSmall {c : Char} (h : isSmall c = true) :
    (upperChar c).toNat < 0x80 ∧ lowerChar (upperChar c) = c ∧
      upperChar (upperChar c) = upperChar c ∧ isWordChar (upperChar c) = isWordChar c ∧
      Keyword.mayPrecede (upperChar c) = Keyword.mayPrecede c := by
  have hall : ∀ n : Fin 0x80, isSmall (Char.ofNat n) = true →
      (upperChar (Char.ofNat n)).toNat < 0x80 ∧
        lowerChar (upperChar (Char.ofNat n)) = Char.ofNat n ∧
        upperChar (upperChar (Char.ofNat n)) = upperChar (Char.ofNat n) ∧
        isWordChar (upperChar (Char.ofNat n)) = isWordChar (Char.ofNat n) ∧
        Keyword.mayPrecede (upperChar (Char.ofNat n)) = Keyword.mayPrecede (Char.ofNat n) := by
    decide +kernel
  have hc : c.toNat < 0x80 := by
    rw [isSmall, Bool.and_eq_true, decide_eq_true_eq] at h
    exact h.1
  have hself := hall ⟨c.toNat, hc⟩
  rw [show Char.ofNat (⟨c.toNat, hc⟩ : Fin 0x80).val = c from Char.ofNat_toNat c] at hself
  exact hself h

/-- A text without capitals is plain ASCII. -/
theorem isAscii_of_isSmall {s : String} (h : s.toList.all isSmall = true) : isAscii s = true := by
  refine List.all_eq_true.2 fun c hc => ?_
  have hsmall := List.all_eq_true.1 h c hc
  rw [isSmall, Bool.and_eq_true] at hsmall
  exact hsmall.1

/-- The characters of a text in capitals. -/
theorem characters_upper {s : String} (h : s.toList.all isSmall = true) :
    characters (upper s) = s.toList.map upperChar := by
  rw [upper, characters_ofCharacters, characters_ascii (isAscii_of_isSmall h)]

/-- A text without capitals comes back from capitals. -/
theorem lower_upper {s : String} (h : s.toList.all isSmall = true) : lower (upper s) = lower s := by
  have hself : s.toList.map (lowerChar ∘ upperChar) = s.toList.map lowerChar := by
    refine List.map_congr_left fun c hc => ?_
    have hsmall := List.all_eq_true.1 h c hc
    rw [Function.comp_apply, (upperChar_of_isSmall hsmall).2.1]
    rw [isSmall, Bool.and_eq_true, beq_iff_eq] at hsmall
    exact hsmall.2.symm
  rw [lower, lower, characters_upper h, characters_ascii (isAscii_of_isSmall h), List.map_map, hself]

/-- Small characters begin what their capitals begin. -/
theorem afterStart_upper {word cs : List Char} (hword : ∀ c ∈ word, isSmall c = true)
    (hcs : ∀ c ∈ cs, isSmall c = true) :
    afterStart (word.map upperChar) (cs.map upperChar) =
      (afterStart word cs).map (List.map upperChar) := by
  induction word generalizing cs with
  | nil => rfl
  | cons w word ih =>
    cases cs with
    | nil => rfl
    | cons c cs =>
      obtain ⟨hw, hword⟩ := List.forall_mem_cons.1 hword
      obtain ⟨hc, hcs⟩ := List.forall_mem_cons.1 hcs
      have hinj : upperChar w = upperChar c ↔ w = c := by
        refine ⟨fun heq => ?_, congrArg upperChar⟩
        rw [← (upperChar_of_isSmall hw).2.1, heq, (upperChar_of_isSmall hc).2.1]
      simp only [List.map_cons, afterStart, hinj]
      split
      · exact ih hword hcs
      · rfl

end Text

namespace Keyword

open Text (isSmall upperChar upperChar_of_isSmall)

variable {word cs : List Char} {before : Option Char}

/-! ## Searches -/

/-- Capitals end and begin words where their characters do. -/
theorem isBoundary_upper {a b : Option Char} (ha : ∀ c ∈ a, isSmall c = true)
    (hb : ∀ c ∈ b, isSmall c = true) :
    isBoundary (a.map upperChar) (b.map upperChar) = isBoundary a b := by
  have hany {o : Option Char} (ho : ∀ c ∈ o, isSmall c = true) :
      (o.map upperChar).any Text.isWordChar = o.any Text.isWordChar := by
    cases o with
    | none => rfl
    | some c => exact (upperChar_of_isSmall (ho c rfl)).2.2.2.1
  rw [isBoundary, isBoundary, hany ha, hany hb]

theorem standsAt_upper (hword : ∀ c ∈ word, isSmall c = true) (hbefore : ∀ c ∈ before, isSmall c = true)
    (hcs : ∀ c ∈ cs, isSmall c = true) :
    standsAt (word.map upperChar) (before.map upperChar) (cs.map upperChar) =
      standsAt word before cs := by
  rw [standsAt, standsAt, Text.afterStart_upper hword hcs]
  cases hrest : Text.afterStart word cs with
  | none => rfl
  | some rest =>
    obtain rfl := Text.eq_append_of_afterStart hrest
    have hend : ((word.map upperChar).getLast? <|> before.map upperChar) =
        (word.getLast? <|> before).map upperChar := by
      rw [List.getLast?_map]
      cases word.getLast? <;> rfl
    have hendSmall : ∀ c ∈ (word.getLast? <|> before), isSmall c = true := by
      intro c hc
      cases hlast : word.getLast? with
      | none =>
        rw [hlast] at hc
        exact hbefore c hc
      | some d =>
        rw [hlast] at hc
        exact hword c (List.mem_of_getLast? (hlast.trans hc))
    have hheadSmall : ∀ c ∈ rest.head?, isSmall c = true := fun c hc =>
      hcs c (List.mem_append_right _ (List.mem_of_mem_head? hc))
    simp only [Option.map_some, List.head?_map, hend]
    exact isBoundary_upper hendSmall hheadSmall

/-- Small characters stand within a name if and only if their capitals stand within its capitals. -/
theorem standsWithin_upper (hword : ∀ c ∈ word, isSmall c = true) :
    ∀ (before : Option Char) {cs : List Char}, (∀ c ∈ before, isSmall c = true) →
      (∀ c ∈ cs, isSmall c = true) →
      standsWithin (word.map upperChar) (before.map upperChar) (cs.map upperChar) =
        standsWithin word before cs
  | before, [], hbefore, hcs => standsAt_upper hword hbefore hcs
  | before, c :: cs, hbefore, hcs => by
    obtain ⟨hc, hrest⟩ := List.forall_mem_cons.1 hcs
    have hat := standsAt_upper hword hbefore hcs
    have ih := standsWithin_upper hword (some c) (by simpa using hc) hrest
    rw [List.map_cons] at hat
    rw [Option.map_some] at ih
    rw [List.map_cons, standsWithin, standsWithin, hat, ih, (upperChar_of_isSmall hc).2.2.2.2]

/-- A word stands within characters that have its own among them. -/
theorem subset_of_standsWithin (h : standsWithin word before cs = true) : word ⊆ cs := by
  obtain ⟨front, rest, rfl, -, -⟩ := standsWithin_iff_exists.1 h
  exact List.Subset.trans (List.subset_append_right front word) (List.subset_append_left _ rest)

/-- A keyword that matches in either case is found in a name in capitals if and only if it is found in
the name. -/
theorem isIn_upper {k : Keyword} {name : String} (hcase : k.eitherCase = true)
    (hword : k.word.toList.all isSmall = true) (hname : name.toList.all isSmall = true) :
    k.isIn (Text.upper name) = k.isIn name := by
  have hword' := List.all_eq_true.1 hword
  have hname' := List.all_eq_true.1 hname
  let word := k.word.toList
  let cs := name.toList
  have hdirect : standsWithin (word.map upperChar) none (cs.map upperChar) =
      standsWithin word none cs := standsWithin_upper hword' none nofun hname'
  have hself (h : ∀ c ∈ word, upperChar c = c) : word.map upperChar = word :=
    (List.map_congr_left h).trans (List.map_id _)
  -- A keyword that is found among letters of the other case is its own capitals.
  have hamongCapitals (h : standsWithin word none (cs.map upperChar) = true) :
      standsWithin word none cs = true := by
    rw [← hdirect, hself fun c hc => ?_]
    · exact h
    · obtain ⟨d, hd, rfl⟩ := List.mem_map.1 (subset_of_standsWithin h hc)
      exact (upperChar_of_isSmall (hname' d hd)).2.2.1
  have hinCapitals (h : standsWithin (word.map upperChar) none cs = true) :
      standsWithin word none cs = true := by
    rw [hself fun c hc => ?_] at h
    · exact h
    · have hsmall := hname' _ (subset_of_standsWithin h (List.mem_map_of_mem hc))
      rw [isSmall, Bool.and_eq_true, beq_iff_eq] at hsmall
      rw [← hsmall.2, (upperChar_of_isSmall (hword' c hc)).2.1]
  rw [isIn, isIn, hcase, Text.characters_upper hword, Text.characters_upper hname,
    Text.characters_ascii (Text.isAscii_of_isSmall hword),
    Text.characters_ascii (Text.isAscii_of_isSmall hname), Bool.true_and, Bool.true_and]
  show (standsWithin word none (cs.map upperChar) ||
    standsWithin (word.map upperChar) none (cs.map upperChar)) =
      (standsWithin word none cs || standsWithin (word.map upperChar) none cs)
  rw [hdirect, Bool.eq_iff_iff, Bool.or_eq_true, Bool.or_eq_true]
  exact ⟨fun h => .inl (h.elim hamongCapitals id), fun h => .inr (h.elim id hinCapitals)⟩

end Keyword

end InfraSmells
