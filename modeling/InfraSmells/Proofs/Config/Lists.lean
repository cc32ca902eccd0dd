import InfraSmells.Config.Lists
import InfraSmells.Proofs.Datum.Json
import InfraSmells.Proofs.Datum.Members
import InfraSmells.Proofs.Policy.Bounds

/-!
# Spellings of a list

A list of texts is read from a list or from its JSON text, and a list of rules, keyword rules or flags from
a list of tables, which is written as JSON first, or from its JSON text. `Lists.SpellsTexts` and
`Lists.Spells` say which values spell a list; what is read does not depend on the spelling
(`Lists.assign_spellings`). The members of an object are read one by one, and what they make of it is found
by name, so that their order does not matter (`Lists.ReadsByName.foldlM`). Which rule, keyword rule or flag
that is, with what stands for a member that is not written, is stated apart from the reader
(`Lists.IsRuleOf`, `Lists.IsKeywordOf`, `Lists.IsFlagOf`).
-/

namespace InfraSmells.Lists

/-! ## Objects -/

/-- The datum is a text or a list of texts. -/
inductive IsTextual : Datum → Prop
  | text {s : String} (h : Text.IsPlain s) : IsTextual (.text s)
  | texts {ss : List String} (h : ∀ s ∈ ss, Text.IsPlain s) : IsTextual (.list (ss.map .text))

/-- The members have some of the names, no two the same, and texts or lists of texts as values. -/
structure IsObject (names : List String) (ms : List (String × Datum)) : Prop where
  named : ∀ m ∈ ms, m.1 ∈ names
  nodup : (ms.map Prod.fst).Nodup
  textual : ∀ m ∈ ms, IsTextual m.2

/-- An object of a format, whose members have some of its names. -/
structure TextObject (names : List String) where
  members : List (String × Datum)
  isObject : IsObject names members

namespace TextObject

variable {names : List String}

/-- The value of the member of a name. -/
def get? (o : TextObject names) (name : String) : Option Datum :=
  o.members.lookup name

/-- The table of an object. -/
def toDatum (o : TextObject names) : Datum :=
  .table o.members

end TextObject

/-! ## Members by name -/

section
variable {names : List String} {name : String} {d : Datum} {ms ms' : List (String × Datum)}

/-- What is left of an object without its first member. -/
theorem IsObject.uncons (h : IsObject names ((name, d) :: ms)) :
    name ∈ names ∧ IsTextual d ∧ ms.lookup name = none ∧ IsObject names ms := by
  obtain ⟨hname, hnamed⟩ := List.forall_mem_cons.1 h.named
  obtain ⟨hd, htextual⟩ := List.forall_mem_cons.1 h.textual
  obtain ⟨hnew, hnodup⟩ := List.nodup_cons.1 h.nodup
  refine ⟨hname, hd, List.lookup_eq_none_iff.2 fun m hm => ?_, hnamed, hnodup, htextual⟩
  rw [bne_iff_ne]
  rintro rfl
  exact hnew (List.mem_map.2 ⟨m, hm, rfl⟩)

/-- One more member is found under its name. -/
theorem lookup_cons_eq_update (name : String) (d : Datum) (ms : List (String × Datum)) :
    (((name, d) :: ms).lookup ·) = Function.update (ms.lookup ·) name (some d) := by
  funext other
  rw [List.lookup_cons, Function.update_apply]
  by_cases hother : other = name
  · simp [hother]
  · simp [hother, beq_eq_false_iff_ne.2 hother]

/-- Where no two members have the same name, each is found under its own. -/
theorem lookup_eq_some_iff_mem (h : (ms.map Prod.fst).Nodup) :
    ms.lookup name = some d ↔ (name, d) ∈ ms := by
  induction ms with
  | nil => simp
  | cons m ms ih =>
    obtain ⟨hnew, hnodup⟩ := List.nodup_cons.1 h
    rw [List.lookup_cons, List.mem_cons, ← ih hnodup]
    by_cases hname : name = m.1
    · subst hname
      have hnone : ms.lookup m.1 ≠ some d := fun hd =>
        hnew (List.mem_map.2 ⟨_, (ih hnodup).1 hd, rfl⟩)
      simp [hnone, Prod.ext_iff, eq_comm]
    · simp [beq_eq_false_iff_ne.2 hname, Prod.ext_iff, hname]

/-- The order of such members does not matter to a reader that looks for their names. -/
theorem lookup_perm (h : (ms.map Prod.fst).Nodup) (hperm : ms.Perm ms') :
    ms.lookup name = ms'.lookup name := by
  have h' := (hperm.map Prod.fst).nodup_iff.1 h
  refine Option.ext fun d => ?_
  rw [lookup_eq_some_iff_mem h, lookup_eq_some_iff_mem h', hperm.mem_iff]

end

/-- The text of a name, or `default` where there is none of this name. -/
def textIn? (get? : String → Option Datum) (name default : String) : Option String :=
  (get? name).elim (some default) Datum.text?

/-- The texts of a list of them. -/
def textsOf? : Datum → Option (List String)
  | .list ds => ds.mapM Datum.text?
  | _ => none

/-- The texts of a name, or `default` where there are none of this name. -/
def textsIn? (get? : String → Option Datum) (name : String) (default : List String) :
    Option (List String) :=
  (get? name).elim (some default) textsOf?

/-- Whatever text there was, the one of the value takes its place. -/
theorem text?_textual (old : String) {d : Datum} (h : IsTextual d) : text? old d = d.text? := by
  cases h <;> rfl

/-- Whatever texts there were, the ones of the items take their place. -/
theorem textItems?_texts (old ss : List String) :
    textItems? old (ss.map .text) = (ss.map Datum.text).mapM Datum.text? := by
  induction ss generalizing old with
  | nil => rfl
  | cons s ss ih =>
    rw [List.map_cons, textItems?, ih, List.mapM_cons]
    rfl

/-- Whatever texts there were, the ones of the value take their place. -/
theorem texts?_textual (old : List String) {d : Datum} (h : IsTextual d) :
    texts? old d = textsOf? d := by
  cases h with
  | text => rfl
  | texts => exact textItems?_texts old _

/-! ## Reading by name -/

/-- The members of an object can be read one by one: `find` asks for each member by its name, and if there
is one more, it finds what it would find after `read` has read this one. -/
structure ReadsByName {α : Type} (names : List String) (read : α → String × Datum → Option α)
    (find : α → (String → Option Datum) → Option α) : Prop where
  nothing (r : α) : find r (fun _ => none) = some r
  member {name : String} {d : Datum} {get? : String → Option Datum} (r : α) (hname : name ∈ names)
    (hd : IsTextual d) (hnew : get? name = none) :
    (read r (name, d)).bind (find · get?) = find r (Function.update get? name (some d))

/-- The members of an object are read in whatever order they stand. -/
theorem ReadsByName.foldlM {α : Type} {names : List String} {read : α → String × Datum → Option α}
    {find : α → (String → Option Datum) → Option α} (hread : ReadsByName names read find)
    {ms : List (String × Datum)} (h : IsObject names ms) (r : α) :
    ms.foldlM read r = find r (ms.lookup ·) := by
  induction ms generalizing r with
  | nil => exact (hread.nothing r).symm
  | cons m ms ih =>
    obtain ⟨name, d⟩ := m
    obtain ⟨hname, hd, hnew, h⟩ := h.uncons
    rw [List.foldlM_cons, lookup_cons_eq_update, ← hread.member r hname hd hnew]
    exact congrArg _ (funext (ih h))

/-- The written members of a rule, found by name, in the place of those of `r`. -/
def ruleText? (r : RuleText) (get? : String → Option Datum) : Option RuleText := do
  let types ← textsIn? get? "au_type" r.rule.types
  let attr ← textIn? get? "attribute" r.rule.attr
  let parents ← textsIn? get? "parents" r.rule.parents
  let values ← textsIn? get? "values" r.rule.values
  let required ← textIn? get? "required" r.required
  let advice ← textIn? get? "msg" r.rule.advice
  let logic ← textIn? get? "logic" r.logic
  return { rule := { r.rule with types, attr, parents, values, advice }, required, logic }

/-- The members of a keyword rule, found by name, in the place of those of `r`. -/
def keyword? (r : KeywordRule) (get? : String → Option Datum) : Option KeywordRule := do
  let types ← textsIn? get? "au_type" r.types
  let keyword ← textIn? get? "keyword" r.keyword
  let value ← textIn? get? "value" r.value
  return { types, keyword, value }

/-- The written members of a flag, found by name, in the place of those of `r`. -/
def flagText? (r : DatabaseFlag × String) (get? : String → Option Datum) :
    Option (DatabaseFlag × String) := do
  let name ← textIn? get? "flag_name" r.1.name
  let value ← textIn? get? "value" r.1.value
  let required ← textIn? get? "required" r.2
  return ({ r.1 with name, value }, required)

/-- A name of the format stands for itself. -/
theorem memberName?_of_mem {names : List String} {name : String} (h : name ∈ names) :
    memberName? names name = some name :=
  if_pos (List.contains_iff_mem.2 h)

/-- Rules are read by name. -/
theorem readsByName_rule : ReadsByName ruleNames RuleText.read ruleText? where
  nothing _ := rfl
  member {name d get?} r hname hd hnew := by
    simp only [RuleText.read, memberName?_of_mem hname, texts?_textual _ hd, text?_textual _ hd]
    simp only [ruleNames, List.mem_cons, List.not_mem_nil, or_false] at hname
    rcases hname with rfl | rfl | rfl | rfl | rfl | rfl | rfl <;>
    · simp only [ruleText?, textsIn?, textIn?, hnew, Function.update_apply, String.reduceEq, if_true,
        if_false, Option.elim_some, Option.elim_none]
      -- a value of the wrong kind fails, whether it is met first or last
      cases textsOf? d <;> cases d.text? <;>
        first
        | rfl
        | simp only [Option.map_none, Option.bind_eq_bind, Option.bind_none, Option.bind_fun_none]

/-- Keyword rules are read by name. -/
theorem readsByName_keyword : ReadsByName keywordNames readKeyword keyword? where
  nothing _ := rfl
  member {name d get?} r hname hd hnew := by
    simp only [readKeyword, memberName?_of_mem hname, texts?_textual _ hd, text?_textual _ hd]
    simp only [keywordNames, List.mem_cons, List.not_mem_nil, or_false] at hname
    rcases hname with rfl | rfl | rfl <;>
    · simp only [keyword?, textsIn?, textIn?, hnew, Function.update_apply, String.reduceEq, if_true,
        if_false, Option.elim_some, Option.elim_none]
      cases textsOf? d <;> cases d.text? <;>
        first
        | rfl
        | simp only [Option.map_none, Option.bind_eq_bind, Option.bind_none, Option.bind_fun_none]

/-- Flags are read by name. -/
theorem readsByName_flag : ReadsByName flagNames readFlag flagText? where
  nothing _ := rfl
  member {name d get?} r hname hd hnew := by
    simp only [readFlag, memberName?_of_mem hname, text?_textual _ hd]
    simp only [flagNames, List.mem_cons, List.not_mem_nil, or_false] at hname
    rcases hname with rfl | rfl | rfl <;>
    · simp only [flagText?, textIn?, hnew, Function.update_apply, String.reduceEq, if_true, if_false,
        Option.elim_some, Option.elim_none]
      cases d.text? <;>
        first
        | rfl
        | simp only [Option.map_none, Option.bind_eq_bind, Option.bind_none, Option.bind_fun_none]

/-! ## Results -/

/-- The rule that an object describes. A requirement that is not written is `no`, and a comparison
is `equal`; a bound is an integer of 64 bits. -/
structure IsRuleOf (get? : String → Option Datum) (rule : PolicyRule) : Prop where
  types : textsIn? get? "au_type" [] = some rule.types
  attr : textIn? get? "attribute" "" = some rule.attr
  parents : textsIn? get? "parents" [] = some rule.parents
  values : textsIn? get? "values" [] = some rule.values
  requirement : (textIn? get? "required" "no").bind requirement? = some rule.requirement
  advice : textIn? get? "msg" "" = some rule.advice
  comparison : (textIn? get? "logic" "equal").bind comparison? = some rule.comparison
  bound : rule.comparison = .atLeast ∨ rule.comparison = .atMost →
    ∃ v rest n, rule.values = v :: rest ∧ SpellsInt64 v n

/-- The keyword rule that an object describes. -/
structure IsKeywordOf (get? : String → Option Datum) (rule : KeywordRule) : Prop where
  types : textsIn? get? "au_type" [] = some rule.types
  keyword : textIn? get? "keyword" "" = some rule.keyword
  value : textIn? get? "value" "" = some rule.value

/-- Whether the requirement of a flag asks for it. -/
def flagRequired? : String → Option Bool
  | "" | "yes" => some true
  | "no" => some false
  | _ => none

/-- The flag that an object describes. A requirement that is not written is `yes`. -/
structure IsFlagOf (get? : String → Option Datum) (flag : DatabaseFlag) : Prop where
  name : textIn? get? "flag_name" "" = some flag.name
  value : textIn? get? "value" "" = some flag.value
  required : (textIn? get? "required" "yes").bind flagRequired? = some flag.required

/-- Which bounds pass their check. -/
theorem checkBound_eq_ok_iff {i : Nat} {c : Comparison} {values : List String} :
    checkBound i c values = .ok () ↔
      (c = .atLeast ∨ c = .atMost → ∃ v rest n, values = v :: rest ∧ SpellsInt64 v n) := by
  refine ⟨exists_of_checkBound, fun h => ?_⟩
  have hbound (hc : c = .atLeast ∨ c = .atMost) : checkBound i c values = .ok () := by
    obtain ⟨v, rest, n, rfl, hn⟩ := h hc
    have hv := parseInteger_eq_ok_iff.2 hn
    rcases hc with rfl | rfl <;> simp [checkBound, hv]
  cases c with
  | equal | differ => rfl
  | atLeast => exact hbound (.inl rfl)
  | atMost => exact hbound (.inr rfl)

/-- Two defaults that mean the same can stand for one another. -/
theorem textIn?_bind_default {α : Type} {f : String → Option α} {s t : String} (h : f s = f t)
    (get? : String → Option Datum) (name : String) :
    (textIn? get? name s).bind f = (textIn? get? name t).bind f := by
  rw [textIn?, textIn?]
  cases get? name with
  | none => exact h
  | some d => rfl

/-- Which rules are made of written members. -/
theorem rule?_eq_ok_iff {i : Nat} {r : RuleText} {rule : PolicyRule} :
    RuleText.rule? i r = .ok rule ↔
      ∃ requirement comparison, requirement? r.required = some requirement ∧
        comparison? r.logic = some comparison ∧ checkBound i comparison r.rule.values = .ok () ∧
        { r.rule with requirement, comparison } = rule := by
  unfold RuleText.rule?
  cases requirement? r.required with
  | none => simp
  | some requirement =>
    cases comparison? r.logic with
    | none => simp
    | some comparison => cases hbound : checkBound i comparison r.rule.values <;> simp [hbound]

/-- The rule of an object, wherever it stands in its list. -/
theorem exists_ruleText_iff {i : Nat} {get? : String → Option Datum} {rule : PolicyRule} :
    (∃ r, ruleText? {} get? = some r ∧ RuleText.rule? i r = .ok rule) ↔ IsRuleOf get? rule := by
  have hno := textIn?_bind_default (show requirement? "no" = requirement? "" from rfl) get? "required"
  have hequal := textIn?_bind_default (show comparison? "equal" = comparison? "" from rfl) get? "logic"
  constructor
  · rintro ⟨r, hr, hrule⟩
    simp only [ruleText?, Option.bind_eq_bind, Option.bind_eq_some_iff, Option.pure_def,
      Option.some.injEq] at hr
    obtain ⟨types, htypes, attr, hattr, parents, hparents, values, hvalues, required, hrequired,
      advice, hadvice, logic, hlogic, rfl⟩ := hr
    obtain ⟨requirement, comparison, hrequirement, hcomparison, hbound, rfl⟩ :=
      rule?_eq_ok_iff.1 hrule
    refine ⟨htypes, hattr, hparents, hvalues, ?_, hadvice, ?_, checkBound_eq_ok_iff.1 hbound⟩
    · rw [hno, hrequired]
      exact hrequirement
    · rw [hequal, hlogic]
      exact hcomparison
  · rintro ⟨htypes, hattr, hparents, hvalues, hrequirement, hadvice, hcomparison, hbound⟩
    rw [hno] at hrequirement
    rw [hequal] at hcomparison
    obtain ⟨required, hrequired, hrequirement⟩ := Option.bind_eq_some_iff.1 hrequirement
    obtain ⟨logic, hlogic, hcomparison⟩ := Option.bind_eq_some_iff.1 hcomparison
    refine ⟨{ rule := { rule with requirement := .optional, comparison := .equal }, required, logic },
      ?_, rule?_eq_ok_iff.2
        ⟨_, _, hrequirement, hcomparison, checkBound_eq_ok_iff.2 hbound, rfl⟩⟩
    simp [ruleText?, htypes, hattr, hparents, hvalues, hrequired, hadvice, hlogic]

/-- The keyword rule of an object. -/
theorem keyword?_eq_some_iff {get? : String → Option Datum} {rule : KeywordRule} :
    keyword? {} get? = some rule ↔ IsKeywordOf get? rule := by
  simp only [keyword?, Option.bind_eq_bind, Option.bind_eq_some_iff, Option.pure_def,
    Option.some.injEq]
  constructor
  · rintro ⟨types, htypes, keyword, hkeyword, value, hvalue, rfl⟩
    exact ⟨htypes, hkeyword, hvalue⟩
  · rintro ⟨htypes, hkeyword, hvalue⟩
    exact ⟨_, htypes, _, hkeyword, _, hvalue, rfl⟩

/-- Which flags are made of written members. -/
theorem flag?_eq_ok_iff {i : Nat} {r : DatabaseFlag × String} {flag : DatabaseFlag} :
    flag? i r = .ok flag ↔
      ∃ required, flagRequired? r.2 = some required ∧ { r.1 with required } = flag := by
  obtain ⟨r, text⟩ := r
  unfold flag? flagRequired?
  dsimp only
  split <;> simp

/-- The flag of an object, wherever it stands in its list. -/
theorem exists_flagText_iff {i : Nat} {get? : String → Option Datum} {flag : DatabaseFlag} :
    (∃ r, flagText? ({}, "") get? = some r ∧ flag? i r = .ok flag) ↔ IsFlagOf get? flag := by
  have hyes := textIn?_bind_default (show flagRequired? "yes" = flagRequired? "" from rfl) get?
    "required"
  constructor
  · rintro ⟨r, hr, hflag⟩
    simp only [flagText?, Option.bind_eq_bind, Option.bind_eq_some_iff, Option.pure_def,
      Option.some.injEq] at hr
    obtain ⟨name, hname, value, hvalue, text, htext, rfl⟩ := hr
    obtain ⟨required, hrequired, rfl⟩ := flag?_eq_ok_iff.1 hflag
    refine ⟨hname, hvalue, ?_⟩
    rw [hyes, htext]
    exact hrequired
  · rintro ⟨hname, hvalue, hrequired⟩
    rw [hyes] at hrequired
    obtain ⟨text, htext, hrequired⟩ := Option.bind_eq_some_iff.1 hrequired
    refine ⟨({ flag with required := true }, text), ?_, flag?_eq_ok_iff.2 ⟨_, hrequired, rfl⟩⟩
    simp [flagText?, hname, hvalue, htext]

/-- What is made of each thing that is found, whatever its index, makes the list that is made. -/
theorem exists_mapM_mapIndexed_iff {α β γ ε : Type} {f : α → Option β} {g : Nat → β → Except ε γ}
    {R : α → γ → Prop} (h : ∀ {i a c}, (∃ b, f a = some b ∧ g i b = .ok c) ↔ R a c) {i : Nat} {as : List α}
    {cs : List γ} :
    (∃ bs, as.mapM f = some bs ∧ mapIndexed g i bs = .ok cs) ↔ List.Forall₂ R as cs := by
  induction as generalizing i cs with
  | nil => cases cs <;> simp [mapIndexed]
  | cons a as ih =>
    constructor
    · rintro ⟨bs, hbs, hcs⟩
      obtain ⟨b, bs, hb, htail, rfl⟩ := List.forall₂_cons_left_iff.1 (mapM_eq_some_iff.1 hbs)
      obtain ⟨c, hc, hcs⟩ := bind_eq_ok.1 hcs
      obtain ⟨cs, htails, hcs⟩ := bind_eq_ok.1 hcs
      cases hcs
      exact .cons (h.1 ⟨b, hb, hc⟩) (ih.1 ⟨bs, mapM_eq_some_iff.2 htail, htails⟩)
    · intro hall
      obtain ⟨c, cs, hc, hcs, rfl⟩ := List.forall₂_cons_left_iff.1 hall
      obtain ⟨b, hb, hc⟩ := h (i := i) |>.2 hc
      obtain ⟨bs, hbs, hcs⟩ := ih (i := i + 1) |>.2 hcs
      refine ⟨b :: bs, by simp [hb, hbs], ?_⟩
      rw [mapIndexed, hc, hcs]
      rfl

/-! ## Spellings -/

/-- A value that spells a list of texts: the list, or a JSON text of it. -/
inductive SpellsTexts (ss : List String) : Datum → Prop
  | list : SpellsTexts ss (.list (ss.map .text))
  | json {t : String} (h : Datum.ofJson? t = some (.list (ss.map .text))) : SpellsTexts ss (.text t)

/-- A value that spells a list of objects: the list, in either of the forms of the format, or a JSON
text of it, where the members of the objects stand in any order. -/
inductive Spells {names : List String} (os : List (TextObject names)) : Datum → Prop
  | list : Spells os (.list (os.map TextObject.toDatum))
  | tables : Spells os (.tables (os.map TextObject.toDatum))
  | json {t : String} {written : List (TextObject names)}
      (h : Datum.ofJson? t = some (.list (written.map TextObject.toDatum)))
      (hsame : written.map TextObject.get? = os.map TextObject.get?) : Spells os (.text t)

/-! ## Objects as JSON -/

/-- Names of members are plain. -/
theorem isPlain_names : ∀ name ∈ ruleNames ++ keywordNames ++ flagNames, Text.IsPlain name := by
  have hascii : ∀ name ∈ ruleNames ++ keywordNames ++ flagNames, Text.isAscii name = true := by
    decide +kernel
  exact fun name hname => Text.isPlain_ascii (hascii name hname)

/-- A value of an object is written as JSON and read back as it was. -/
theorem IsTextual.isFixed {d : Datum} (h : IsTextual d) : Datum.IsFixed 1 d := by
  cases h with
  | text h => exact ⟨h, Nat.zero_le 1, fun _ => rfl⟩
  | texts h => exact Datum.isFixed_texts h

/-- Texts and lists of them hold no table that could be sorted. -/
theorem IsTextual.normalize_eq {d : Datum} (h : IsTextual d) : d.normalize = d := by
  cases h with
  | text => rfl
  | texts =>
    rw [Datum.normalize, Datum.normalizeItems_eq, List.map_map]
    rfl

section
variable {names : List String} (hplain : ∀ name ∈ names, Text.IsPlain name)
include hplain

/-- The members of an object are sorted by name, and none is lost. -/
theorem IsObject.perm_sortMembers {ms : List (String × Datum)} (h : IsObject names ms) :
    (Datum.sortMembers ms).Perm ms := by
  have hcarried (m : String × Datum) (hm : m ∈ ms) : Text.IsCarried m.1 :=
    (hplain _ (h.named m hm)).ofBytes_toBytes
  refine Datum.perm_sortMembers_of_ne
    (List.Pairwise.imp_of_mem (fun {a b} ha hb hne heq => ?_) (List.pairwise_map.1 h.nodup))
  exact hne ((hcarried b hb).eq_of_compareText (hcarried a ha) heq).symm

/-- An object with its members sorted has the same values under the same names. -/
theorem TextObject.exists_normalize (o : TextObject names) :
    ∃ o' : TextObject names, o'.get? = o.get? ∧ o.toDatum.normalize = o'.toDatum := by
  have hvalues : Datum.normalizeMembers o.members = o.members := by
    rw [Datum.normalizeMembers_eq]
    refine (List.map_congr_left fun m hm => ?_).trans (List.map_id _)
    rw [(o.isObject.textual m hm).normalize_eq]
    rfl
  have hperm := o.isObject.perm_sortMembers hplain
  have hnodup := (hperm.map Prod.fst).nodup_iff.2 o.isObject.nodup
  refine ⟨⟨Datum.sortMembers o.members, ⟨fun m hm => ?_, hnodup, fun m hm => ?_⟩⟩, ?_, ?_⟩
  · exact o.isObject.named m (hperm.mem_iff.1 hm)
  · exact o.isObject.textual m (hperm.mem_iff.1 hm)
  · exact funext fun name => lookup_perm hnodup hperm
  · rw [TextObject.toDatum, Datum.normalize, hvalues]
    rfl

/-- Objects with their members sorted have the same values under the same names. -/
theorem exists_normalizeItems (os : List (TextObject names)) :
    ∃ written : List (TextObject names), written.map TextObject.get? = os.map TextObject.get? ∧
      Datum.normalizeItems (os.map TextObject.toDatum) = written.map TextObject.toDatum := by
  induction os with
  | nil => exact ⟨[], rfl, rfl⟩
  | cons o os ih =>
    obtain ⟨o', hsame, hform⟩ := o.exists_normalize hplain
    obtain ⟨written, hsames, hforms⟩ := ih
    refine ⟨o' :: written, ?_, ?_⟩
    · rw [List.map_cons, List.map_cons, hsame, hsames]
    · rw [List.map_cons, List.map_cons, Datum.normalizeItems, hform, hforms]

/-- A list of objects is written as JSON and read back as it was. -/
theorem isFixed_objects (os : List (TextObject names)) :
    Datum.IsFixed 3 (.list (os.map TextObject.toDatum)) := by
  refine .list (List.forall_mem_map.2 fun o _ => .table fun m hm => ?_)
  exact ⟨hplain _ (o.isObject.named m hm), (o.isObject.textual m hm).isFixed⟩

/-- The JSON text of a list of objects spells it. -/
theorem spells_toJson (os : List (TextObject names)) :
    Spells os (.text (Datum.list (os.map TextObject.toDatum)).toJson) :=
  .json ((isFixed_objects hplain os).ofJson?_toJson (by decide)) rfl

/-- However a list of objects is spelled, the JSON text that is read is one of objects with the same
values under the same names. -/
theorem Spells.exists_json {os : List (TextObject names)} {d : Datum} (h : Spells os d) :
    ∃ written : List (TextObject names), written.map TextObject.get? = os.map TextObject.get? ∧
      (jsonText? d).bind Datum.ofJson? = some (.list (written.map TextObject.toDatum)) := by
  have hwritable := Datum.isWritable_of_isWritten (isFixed_objects hplain os).written
  obtain ⟨written, hsame, hform⟩ := exists_normalizeItems hplain os
  have hread : Datum.ofJson? (Datum.list (Datum.normalizeItems (os.map TextObject.toDatum))).toJson =
      some (.list (written.map TextObject.toDatum)) := by
    rw [hform]
    exact (isFixed_objects hplain written).ofJson?_toJson (by decide)
  cases h with
  | list =>
    have htext : jsonText? (.list (os.map TextObject.toDatum)) =
        some (Datum.list (Datum.normalizeItems (os.map TextObject.toDatum))).toJson :=
      if_pos hwritable
    exact ⟨written, hsame, by rw [htext, Option.bind_some, hread]⟩
  | tables =>
    have htext : jsonText? (.tables (os.map TextObject.toDatum)) =
        some (Datum.list (Datum.normalizeItems (os.map TextObject.toDatum))).toJson :=
      if_pos hwritable
    exact ⟨written, hsame, by rw [htext, Option.bind_some, hread]⟩
  | json h hsame => exact ⟨_, hsame, h⟩

variable {α : Type} {read : α → String × Datum → Option α}
  {find : α → (String → Option Datum) → Option α}

omit hplain in
/-- The objects of a list are read one by one, and each by the names of its members. -/
theorem ReadsByName.tables? (hread : ReadsByName names read find) (empty : α)
    (os : List (TextObject names)) :
    Lists.tables? empty read (.list (os.map TextObject.toDatum)) =
      (os.map TextObject.get?).mapM (find empty) := by
  rw [Lists.tables?, List.mapM_map, List.mapM_map]
  congr 1
  exact funext fun o => hread.foldlM o.isObject empty

/-- However a list of objects is spelled, its objects are read by name. -/
theorem ReadsByName.structured (hread : ReadsByName names read find) (empty : α)
    {os : List (TextObject names)} {d : Datum} (h : Spells os d) :
    Lists.structured empty read d =
      match (os.map TextObject.get?).mapM (find empty) with
      | some xs => .ok xs
      | none => .error .notJson := by
  obtain ⟨written, hsame, hjson⟩ := h.exists_json hplain
  rw [Lists.structured, hjson, ← hsame, ← hread.tables?]
  rfl

end

/-! ## Assignments -/

section
variable {α : Type} {names : List String} {read : Datum → Except ListError (List α)}

/-- Assigning a value to a list, whatever it was, sets it to a result, or fails and leaves it. -/
def Assigns (read : Datum → Except ListError (List α)) (d : Datum)
    (result : Except ListError (List α)) : Prop :=
  ∀ old, Id.run ((assign read d).run.run old) =
    match result with
    | .ok xs => (.ok (), xs)
    | .error e => (.error e, old)

/-- A list is set to what is read. -/
theorem assigns_read (read : Datum → Except ListError (List α)) (d : Datum) :
    Assigns read d (read d) := by
  intro old
  unfold assign
  cases read d <;> rfl

/-- However a list of objects is spelled, there is one result of its assignment, in which each object
describes the element at its place; and there is a JSON text that spells it. -/
def IsSpelledAlike (names : List String) (read : Datum → Except ListError (List α))
    (IsOf : (String → Option Datum) → α → Prop) : Prop :=
  ∀ os : List (TextObject names),
    (∃ result, (∀ d, Spells os d → Assigns read d result) ∧
      ∀ xs, result = .ok xs ↔ List.Forall₂ IsOf (os.map TextObject.get?) xs) ∧
    Spells os (.text (Datum.list (os.map TextObject.toDatum)).toJson)

/-- Objects that are read by name are read alike from every spelling of their list. -/
theorem ReadsByName.isSpelledAlike {β : Type} {member : β → String × Datum → Option β}
    {find : β → (String → Option Datum) → Option β} {finish : List β → Except ListError (List α)}
    {IsOf : (String → Option Datum) → α → Prop} (hread : ReadsByName names member find)
    (hplain : ∀ name ∈ names, Text.IsPlain name) (empty : β)
    (hfinish : ∀ {as xs}, (∃ bs, as.mapM (find empty) = some bs ∧ finish bs = .ok xs) ↔
      List.Forall₂ IsOf as xs) :
    IsSpelledAlike names (fun d => Lists.structured empty member d >>= finish) IsOf := by
  refine fun os => ⟨⟨(match (os.map TextObject.get?).mapM (find empty) with
    | some bs => .ok bs
    | none => .error .notJson) >>= finish, fun d hd => ?_, fun xs => ?_⟩, spells_toJson hplain os⟩
  · rw [← hread.structured hplain empty hd]
    exact assigns_read _ d
  · rw [← hfinish, bind_eq_ok]
    cases (os.map TextObject.get?).mapM (find empty) <;> simp

/-- Rules are read alike from every spelling of their list. -/
theorem isSpelledAlike_rules : IsSpelledAlike ruleNames readRules IsRuleOf :=
  readsByName_rule.isSpelledAlike (fun name hname => isPlain_names name (by simp [hname])) {}
    (exists_mapM_mapIndexed_iff exists_ruleText_iff)

/-- Keyword rules are read alike from every spelling of their list. -/
theorem isSpelledAlike_keywords : IsSpelledAlike keywordNames readKeywords IsKeywordOf := by
  have h : readKeywords = fun d => structured {} readKeyword d >>= .ok :=
    funext fun d => (bind_pure _).symm
  rw [h]
  refine readsByName_keyword.isSpelledAlike (fun name hname => isPlain_names name (by simp [hname]))
    {} fun {as xs} => ?_
  simp [mapM_eq_some_iff, keyword?_eq_some_iff]

/-- Flags are read alike from every spelling of their list. -/
theorem isSpelledAlike_flags : IsSpelledAlike flagNames readFlags IsFlagOf :=
  readsByName_flag.isSpelledAlike (fun name hname => isPlain_names name (by simp [hname])) ({}, "")
    (exists_mapM_mapIndexed_iff exists_flagText_iff)

/-- Items that are texts are read as they are. -/
theorem mapIndexed_textAt (ss : List String) (i : Nat) :
    mapIndexed textAt i (ss.map .text) = .ok ss := by
  induction ss generalizing i with
  | nil => rfl
  | cons s ss ih =>
    rw [List.map_cons, mapIndexed, ih]
    rfl

/-- However a list of texts is spelled, it is what is read. -/
theorem readTexts_of_spells {ss : List String} {d : Datum} (h : SpellsTexts ss d) :
    readTexts d = .ok ss := by
  cases h with
  | list => exact mapIndexed_textAt ss 0
  | json h =>
    have htexts : (ss.map Datum.text).mapM Datum.text? = some ss :=
      mapM_eq_some_iff.2 (List.forall₂_map_left_iff.2 (List.forall₂_same.2 fun _ _ => rfl))
    rw [readTexts, h, Option.bind_some, Lists.texts?, textItems?_texts, htexts]

/-- However a list of texts, rules, keyword rules or flags is spelled, it is set to the same, or it
fails and keeps what it was. -/
theorem assign_spellings :
    (∀ ss : List String, (∀ d, SpellsTexts ss d → Assigns readTexts d (.ok ss)) ∧
      ((∀ s ∈ ss, Text.IsPlain s) → SpellsTexts ss (.text (Datum.list (ss.map .text)).toJson))) ∧
    IsSpelledAlike ruleNames readRules IsRuleOf ∧
    IsSpelledAlike keywordNames readKeywords IsKeywordOf ∧
    IsSpelledAlike flagNames readFlags IsFlagOf ∧
    ∀ {α : Type} (read : Datum → Except ListError (List α)) (d : Datum) (old xs : List α) (e),
      Id.run ((assign read d).run.run old) = (.error e, xs) → xs = old := by
  refine ⟨fun ss => ⟨fun d hd => ?_, fun hplain => .json ?_⟩, isSpelledAlike_rules,
    isSpelledAlike_keywords, isSpelledAlike_flags, fun read d old xs e h => ?_⟩
  · rw [← readTexts_of_spells hd]
    exact assigns_read readTexts d
  · exact (Datum.isFixed_texts hplain).ofJson?_toJson (by decide)
  · rw [assigns_read read d old] at h
    cases hread : read d <;> rw [hread] at h <;> cases h
    rfl

/-- A rule with a bound is set from its table and from the JSON text of it. -/
theorem assign_spellings_bound :
    let members : List (String × Datum) := [("values", .list [.text "14"]), ("logic", .text "gte"),
      ("msg", .text "a \"long\" <word>")]
    let text := "[\x7b\"values\":[\"14\"],\"logic\":\"gte\"," ++
      "\"msg\":\"a \\\"long\\\" \\u003cword\\u003e\"\x7d]"
    let rule : PolicyRule :=
      { values := ["14"]
        advice := "a \"long\" <word>"
        comparison := .atLeast }
    Assigns readRules (.tables [.table members]) (.ok [rule]) ∧
      Assigns readRules (.text text) (.ok [rule]) := by
  intro members text rule
  have hplain (s : String) (h : Text.isAscii s = true) : IsTextual (.text s) :=
    .text (Text.isPlain_ascii h)
  have hobject : IsObject ruleNames members :=
    { named := by decide
      nodup := by decide
      textual := by
        simp only [members, List.forall_mem_cons]
        exact ⟨@IsTextual.texts ["14"] (by simpa using Text.isPlain_ascii (by decide +kernel)),
          hplain _ (by decide +kernel), hplain _ (by decide +kernel), List.forall_mem_nil _⟩ }
  obtain ⟨-, hrules, -⟩ := assign_spellings
  obtain ⟨⟨result, hassigns, hresult⟩, hjson⟩ := hrules [⟨members, hobject⟩]
  have hrule : IsRuleOf (members.lookup ·) rule :=
    { types := rfl
      attr := rfl
      parents := rfl
      values := rfl
      requirement := rfl
      advice := rfl
      comparison := rfl
      bound := fun _ => ⟨"14", [], 14, rfl, parseInteger_eq_ok_iff.1 (by decide +kernel)⟩ }
  obtain rfl : result = .ok [rule] := (hresult [rule]).2 (.cons hrule .nil)
  have htext : (Datum.list [.table members]).toJson = text := by decide +kernel
  refine ⟨hassigns _ .tables, ?_⟩
  rw [← htext]
  exact hassigns _ hjson

end

end InfraSmells.Lists
