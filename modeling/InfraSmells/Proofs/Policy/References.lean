import InfraSmells.Policy.References
import InfraSmells.Proofs.Text.Parts

/-!
# References to resources

Whether a text refers to a resource is asked in two ways. `Policy.refersTo` looks for the kind and the
name of the resource with an attribute behind them, `Policy.referenced?` takes the first name behind
the kind. Both look at the same places of a text (`Policy.startsOf`), which the parts of a text
have one by one (`Policy.startsOf_append`). In a traversal, the text of an expression that does nothing
else than refer to a resource, the second search finds the name (`Policy.referenced?_traversal`), and
the first one looks at the step behind the name and into the keys (`Policy.refersTo_traversal`). They
agree where an attribute follows the name and no key holds a reference itself
(`Policy.references_agree`).
-/

namespace InfraSmells.Policy

variable {kind name : String} {e : Expr} {cs rest : List Char}

/-! ## Places of references -/

/-- The ends of characters at which a reference may begin. -/
def startsOf (cs : List Char) : List (List Char) :=
  cs :: afterBreaks cs

/-- The ends of a text in front of which there is a break are those of its parts. -/
theorem afterBreaks_append (as bs : List Char) :
    afterBreaks (as ++ bs) = (afterBreaks as).map (· ++ bs) ++ afterBreaks bs := by
  induction as with
  | nil => rfl
  | cons a as ih =>
    rw [List.cons_append, afterBreaks, afterBreaks]
    split
    · exact ih
    · rw [ih, List.map_cons, List.cons_append]

/-- A reference begins in the first part of a text or behind a break in the second. -/
theorem startsOf_append (as bs : List Char) :
    startsOf (as ++ bs) = (startsOf as).map (· ++ bs) ++ afterBreaks bs := by
  rw [startsOf, startsOf, afterBreaks_append, List.map_cons, List.cons_append]

/-- A path of names has no break. -/
theorem afterBreaks_eq_nil (h : ∀ c ∈ cs, isPathChar c = true) : afterBreaks cs = [] := by
  induction cs with
  | nil => rfl
  | cons c cs ih =>
    obtain ⟨hc, hcs⟩ := List.forall_mem_cons.1 h
    rw [afterBreaks, if_pos hc, ih hcs]

/-- What follows a break is a proper end. -/
theorem suffix_of_mem_afterBreaks {s : List Char} (h : s ∈ afterBreaks cs) :
    s <:+ cs ∧ s.length < cs.length := by
  induction cs with
  | nil => exact nomatch h
  | cons c cs ih =>
    have hcons (hs : s ∈ afterBreaks cs) : s <:+ c :: cs ∧ s.length < (c :: cs).length :=
      ⟨(ih hs).1.trans (List.suffix_cons c cs), Nat.lt_succ_of_lt (ih hs).2⟩
    rw [afterBreaks] at h
    split at h
    · exact hcons h
    · rcases List.mem_cons.1 h with rfl | hs
      · exact ⟨List.suffix_cons c s, Nat.lt_succ_self _⟩
      · exact hcons hs

/-- Is the resource mentioned in a text, with an attribute behind its name? -/
def mentions (kind name text : String) : Bool :=
  (startsOf (Text.characters text)).any
    (Text.beginsWith (Text.characters (kind ++ "." ++ name ++ ".")))

/-- An expression refers to a resource that its text mentions. -/
theorem refersTo_eq (kind name : String) (e : Expr) :
    refersTo kind name e = mentions kind name e.text := rfl

/-- A character of a name. -/
def isNameChar (c : Char) : Bool :=
  Text.isWordChar c || c == '-'

/-- The name behind a reference to a resource of a kind at the head of the characters. -/
def nameAt? (kind : String) (cs : List Char) : Option String := do
  let rest ← Text.afterStart (Text.characters (kind ++ ".")) cs
  let name := rest.takeWhile isNameChar
  if name.isEmpty then none else some (Text.ofCharacters name)

/-- The first reference is the one at the first place that has one. -/
theorem referenced?_eq (kind : String) (e : Expr) :
    referenced? kind e = (startsOf (Text.characters e.text)).findSome? (nameAt? kind) := rfl

/-- A name is read behind the kind and a point, as far as it goes. -/
theorem nameAt?_eq_some_iff : nameAt? kind cs = some name ↔
    ∃ rest, cs = Text.characters (kind ++ ".") ++ rest ∧ rest.takeWhile isNameChar ≠ [] ∧
      Text.ofCharacters (rest.takeWhile isNameChar) = name := by
  simp only [nameAt?, Option.bind_eq_bind, Option.bind_eq_some_iff, Text.afterStart_eq_some_iff,
    ite_eq_iff, List.isEmpty_iff, reduceCtorEq, and_false, false_or, Option.some.injEq, ne_eq]

/-! ## Names and traversals -/

/-- The text is a name: letters and digits of ASCII, underscores and hyphens. -/
def IsName (s : String) : Prop :=
  s ≠ "" ∧ s.toList.all isNameChar = true

instance : DecidablePred IsName := fun _ =>
  inferInstanceAs (Decidable (_ ∧ _))

/-- A character of a kind of resources. Other letters than those of ASCII may be among them. -/
def isKindChar (c : Char) : Bool :=
  isNameChar c || (0x80 ≤ c.toNat && !Text.isStray c)

/-- The text names a kind of resources. -/
def IsKind (s : String) : Prop :=
  s ≠ "" ∧ s.toList.all isKindChar = true

instance : DecidablePred IsKind := fun _ =>
  inferInstanceAs (Decidable (_ ∧ _))

/-- A step behind the name of a resource: to an attribute, or to the item under a key. -/
inductive Step where
  | member (name : String)
  | item (key : String)
  deriving DecidableEq

/-- The text of a step. -/
def Step.text : Step → String
  | .member name => "." ++ name
  | .item key => "[" ++ key ++ "]"

/-- The text of steps. -/
def stepsText : List Step → String
  | [] => ""
  | step :: steps => step.text ++ stepsText steps

/-- A path that begins at a resource, plain or interpolated into an empty template. -/
structure Traversal where
  kind : String
  name : String
  steps : List Step
  interpolated : Bool
  isKind : IsKind kind
  isName : IsName name
  attributesNamed : ∀ attr, .member attr ∈ steps → IsName attr

/-! ## Characters of names -/

/-- Names are written in ASCII. -/
theorem toNat_of_isNameChar {c : Char} (h : isNameChar c = true) : c.toNat < 0x80 := by
  have hle {a b : Char} (h : a ≤ b) : a.toNat ≤ b.toNat := h
  simp only [isNameChar, Text.isWordChar, Text.isDigit, Bool.or_eq_true, Bool.and_eq_true,
    decide_eq_true_eq, beq_iff_eq] at h
  rcases h with (((⟨-, h⟩ | ⟨-, h⟩) | ⟨-, h⟩) | rfl) | rfl
  · exact Nat.lt_of_le_of_lt (hle h) (by decide)
  · exact Nat.lt_of_le_of_lt (hle h) (by decide)
  · exact Nat.lt_of_le_of_lt (hle h) (by decide)
  · decide
  · decide

/-- A name is plain ASCII. -/
theorem IsName.isAscii {s : String} (h : IsName s) : Text.isAscii s = true :=
  List.all_eq_true.2 fun c hc =>
    decide_eq_true (toNat_of_isNameChar (List.all_eq_true.1 h.2 c hc))

/-- The names of kinds hold no byte outside characters. -/
theorem not_isStray_of_isKindChar {c : Char} (h : isKindChar c = true) :
    Text.isStray c = false := by
  simp only [isKindChar, Bool.or_eq_true, Bool.and_eq_true, Bool.not_eq_true'] at h
  rcases h with h | ⟨-, h⟩
  · have := toNat_of_isNameChar h
    simp only [Text.isStray, Bool.and_eq_false_iff, decide_eq_false_iff_not]
    omega
  · exact h

/-- The name of a kind is read as it is. -/
theorem IsKind.characters (h : IsKind kind) : Text.characters kind = kind.toList := by
  rw [Text.characters, if_neg]
  rw [Bool.not_eq_true, List.any_eq_false]
  intro c hc
  rw [not_isStray_of_isKindChar (List.all_eq_true.1 h.2 c hc)]
  exact Bool.false_ne_true

/-- What a reference to an attribute of a resource begins with. -/
def address (kind name : String) : List Char :=
  kind.toList ++ '.' :: (name.toList ++ ['.'])

/-- What is no character of kinds is in no kind. -/
theorem IsKind.notMem (hkind : IsKind kind) {c : Char} (hc : isKindChar c = false) :
    c ∉ kind.toList := by
  intro hmem
  rw [List.all_eq_true.1 hkind.2 c hmem] at hc
  exact Bool.noConfusion hc

/-- A name could be a kind. -/
theorem IsName.isKind {s : String} (h : IsName s) : IsKind s := by
  refine ⟨h.1, List.all_eq_true.2 fun c hc => ?_⟩
  rw [isKindChar, List.all_eq_true.1 h.2 c hc, Bool.true_or]

/-- Only points part the names of a reference. -/
theorem notMem_address (hkind : IsKind kind) (hname : IsName name) {c : Char}
    (hc : isKindChar c = false) (hpoint : c ≠ '.') : c ∉ address kind name := by
  simp only [address, List.mem_append, List.mem_cons, List.not_mem_nil, or_false, not_or]
  exact ⟨hkind.notMem hc, hpoint, hname.isKind.notMem hc, hpoint⟩

/-- A kind with a point behind it is looked for as it is written. -/
theorem characters_kind (hkind : IsKind kind) :
    Text.characters (kind ++ ".") = kind.toList ++ ['.'] := by
  rw [Text.characters_append kind (by decide), hkind.characters, Text.characters_ascii (by decide)]
  rfl

/-- A reference is looked for as it is written. -/
theorem characters_address (hkind : IsKind kind) (hname : IsName name) :
    Text.characters (kind ++ "." ++ name ++ ".") = address kind name := by
  rw [Text.characters_append _ (by decide), String.append_assoc,
    Text.characters_around (by decide) (by decide), hkind.characters,
    Text.characters_ascii hname.isAscii, Text.characters_ascii (by decide), List.append_assoc]
  rfl

namespace Traversal

/-- What stands before the kind. -/
def opening (t : Traversal) : String :=
  if t.interpolated then "$\x7b" else ""

/-- What stands behind the steps. -/
def closing (t : Traversal) : String :=
  if t.interpolated then "\x7d" else ""

/-- The text of a traversal. -/
def text (t : Traversal) : String :=
  t.opening ++ (t.kind ++ ("." ++ (t.name ++ (stepsText t.steps ++ t.closing))))

/-- What a reader sees behind the name. -/
def behind (t : Traversal) : List Char :=
  Text.characters (stepsText t.steps ++ t.closing)

/-- What a reader sees from the kind on. -/
def path (t : Traversal) : List Char :=
  t.kind.toList ++ '.' :: (t.name.toList ++ t.behind)

/-- Is the first step to an attribute of the resource? -/
def readsAttribute (t : Traversal) : Bool :=
  match t.steps with
  | .member _ :: _ => true
  | _ => false

theorem opening_cases (t : Traversal) : t.opening = "" ∨ t.opening = "$\x7b" := by
  unfold opening
  split
  · exact .inr rfl
  · exact .inl rfl

theorem closing_cases (t : Traversal) : t.closing = "" ∨ t.closing = "\x7d" := by
  unfold closing
  split
  · exact .inr rfl
  · exact .inl rfl

/-- A reader sees the opening and the path. -/
theorem characters_text (t : Traversal) : Text.characters t.text = t.opening.toList ++ t.path := by
  have hopening : Text.isAscii t.opening = true := by
    rcases t.opening_cases with h | h <;> rw [h] <;> decide
  rw [text, Text.characters_ascii_append hopening,
    Text.characters_around (by decide) (by decide), t.isKind.characters,
    Text.characters_ascii_append t.isName.isAscii]
  rfl

end Traversal

/-- Something is written in a traversal. -/
theorem Traversal.isAbsent_eq_false {t : Traversal} (h : e.text = t.text) : e.isAbsent = false := by
  cases e with
  | absent =>
    have hnil := t.characters_text
    rw [← h] at hnil
    have hpoint : '.' ∈ Text.characters "" := hnil ▸ by simp [path]
    exact nomatch hpoint
  | _ => rfl

/-! ## Steps -/

/-- Does the key of an index mention the resource? -/
def Step.mentions (kind name : String) : Step → Bool
  | .member _ => false
  | .item key => Policy.mentions kind name key

/-- What is not headed by a character of kinds does not begin with a kind. -/
theorem IsKind.not_prefix (hkind : IsKind kind) (h : ∀ c ∈ cs.head?, isKindChar c = false) :
    ¬kind.toList <+: cs := by
  intro hprefix
  cases hk : kind.toList with
  | nil => exact hkind.1 (String.toList_eq_nil_iff.1 hk)
  | cons c ks =>
    obtain ⟨rest, rfl⟩ := hprefix
    have hc : isKindChar c = true := List.all_eq_true.1 hkind.2 c (hk ▸ List.mem_cons_self)
    rw [h c (by rw [hk]; rfl)] at hc
    exact Bool.false_ne_true hc

/-- A reference begins with its kind. -/
theorem beginsWith_address_eq_false (h : ¬kind.toList <+: cs) :
    Text.beginsWith (address kind name) cs = false :=
  Bool.eq_false_iff.2 fun hb =>
    h ((List.prefix_append _ _).trans (Text.beginsWith_iff.1 hb))

section
variable {steps : List Step} {closing : String}

/-- A point stands in front of the name of an attribute. -/
theorem characters_member (attr : String) (steps : List Step) (closing : String) :
    Text.characters (stepsText (.member attr :: steps) ++ closing) =
      '.' :: Text.characters (attr ++ (stepsText steps ++ closing)) := by
  rw [stepsText, Step.text, String.append_assoc, String.append_assoc,
    Text.characters_ascii_append (by decide)]
  rfl

/-- Brackets stand around a key. -/
theorem characters_item (key : String) (steps : List Step) (closing : String) :
    Text.characters (stepsText (.item key :: steps) ++ closing) =
      '[' :: (Text.characters key ++ ']' :: Text.characters (stepsText steps ++ closing)) := by
  rw [stepsText, Step.text, String.append_assoc, String.append_assoc, String.append_assoc,
    Text.characters_ascii_append (by decide), Text.characters_around (by decide) (by decide)]
  rfl

/-- What a reader sees of steps begins with no character of a name. -/
theorem head?_steps (hclosing : closing = "" ∨ closing = "\x7d") :
    ∀ c ∈ (Text.characters (stepsText steps ++ closing)).head?, isKindChar c = false := by
  rcases steps with _ | ⟨attr | key, steps⟩
  · rw [stepsText, String.empty_append]
    rcases hclosing with rfl | rfl
    · exact nofun
    · rintro c ⟨⟩
      decide
  · rw [characters_member]
    rintro c ⟨⟩
    decide
  · rw [characters_item]
    rintro c ⟨⟩
    decide

/-- The characters of a name are those of a path. -/
theorem isPathChar_of_isNameChar {c : Char} (h : isNameChar c = true) : isPathChar c = true := by
  simp only [isNameChar, isPathChar, Bool.or_eq_true] at h ⊢
  tauto

/-- There is no break in a point and a name. -/
theorem IsName.afterBreaks_eq_nil {s : String} (h : IsName s) :
    afterBreaks ('.' :: s.toList) = [] := by
  refine Policy.afterBreaks_eq_nil (List.forall_mem_cons.2 ⟨by decide, fun c hc => ?_⟩)
  exact isPathChar_of_isNameChar (List.all_eq_true.1 h.2 c hc)

/-- Behind the name, only the key of an item can mention a resource. -/
theorem any_afterBreaks_steps (hkind : IsKind kind) (hname : IsName name)
    (hclosing : closing = "" ∨ closing = "\x7d")
    (hattrs : ∀ attr, .member attr ∈ steps → IsName attr) :
    (afterBreaks (Text.characters (stepsText steps ++ closing))).any
      (Text.beginsWith (address kind name)) = steps.any (Step.mentions kind name) := by
  induction steps with
  | nil =>
    have hnil : Text.beginsWith (address kind name) [] = false :=
      beginsWith_address_eq_false (hkind.not_prefix fun _ hc => nomatch hc)
    rw [stepsText, String.empty_append]
    rcases hclosing with rfl | rfl
    · rfl
    · show ([[]] : List (List Char)).any _ = _
      rw [List.any_cons, hnil]
      rfl
  | cons step steps ih =>
    have ih := ih fun attr h => hattrs attr (.tail _ h)
    cases step with
    | member attr =>
      have hattr := hattrs attr (.head _)
      rw [characters_member, Text.characters_ascii_append hattr.isAscii, ← List.cons_append,
        afterBreaks_append, hattr.afterBreaks_eq_nil, List.map_nil, List.nil_append, ih,
        List.any_cons]
      rfl
    | item key =>
      have hrest : Text.beginsWith (address kind name)
          (Text.characters (stepsText steps ++ closing)) = false :=
        beginsWith_address_eq_false (hkind.not_prefix (head?_steps hclosing))
      have hkey (s : List Char) : Text.beginsWith (address kind name)
          (s ++ ']' :: Text.characters (stepsText steps ++ closing)) =
          Text.beginsWith (address kind name) s := by
        rw [Bool.eq_iff_iff, Text.beginsWith_iff, Text.beginsWith_iff,
          Text.prefix_append_cons_iff (notMem_address hkind hname (by decide) (by decide))]
      -- Behind the closing bracket the next step begins, and no step begins with a kind.
      have hclose (s : List Char) : afterBreaks (']' :: s) = s :: afterBreaks s := rfl
      rw [characters_item]
      show (startsOf (_ ++ ']' :: _)).any _ = _
      rw [startsOf_append, List.any_append, List.any_map, List.any_cons, ← ih, hclose,
        List.any_cons, hrest, Bool.false_or]
      congr 1
      rw [Step.mentions, mentions, characters_address hkind hname]
      exact congrArg _ (funext hkey)

end

/-! ## Places of a traversal -/

namespace Traversal

variable (t : Traversal)

theorem head?_behind : ∀ c ∈ t.behind.head?, isKindChar c = false :=
  head?_steps t.closing_cases

/-- The reader of a traversal looks at its path, and elsewhere at what does not begin with the kind
or is behind the name. -/
theorem exists_startsOf_text : ∃ before within,
    startsOf (Text.characters t.text) = before ++ t.path :: (within ++ afterBreaks t.behind) ∧
      (∀ s ∈ before, ¬t.kind.toList <+: s) ∧ ∀ s ∈ within, ¬t.kind.toList <+: s := by
  -- From the point on, there is no break before the steps.
  have hname : afterBreaks ('.' :: (t.name.toList ++ t.behind)) = afterBreaks t.behind := by
    rw [← List.cons_append, afterBreaks_append, t.isName.afterBreaks_eq_nil]
    rfl
  have hpath : startsOf t.path = t.path ::
      ((afterBreaks t.kind.toList).map (· ++ '.' :: (t.name.toList ++ t.behind)) ++
        afterBreaks t.behind) := by
    rw [startsOf, path, afterBreaks_append, hname]
  have hwithin : ∀ s ∈ (afterBreaks t.kind.toList).map (· ++ '.' :: (t.name.toList ++ t.behind)),
      ¬t.kind.toList <+: s := by
    intro s hs
    obtain ⟨u, hu, rfl⟩ := List.mem_map.1 hs
    rw [Text.prefix_append_cons_iff (t.isKind.notMem (by decide))]
    exact fun h => absurd h.length_le (Nat.not_le_of_lt (suffix_of_mem_afterBreaks hu).2)
  rw [characters_text]
  rcases t.opening_cases with h | h
  · refine ⟨[], _, ?_, nofun, hwithin⟩
    rw [h]
    exact hpath
  · refine ⟨['$' :: '\x7b' :: t.path, '\x7b' :: t.path], _, ?_, fun s hs => ?_, hwithin⟩
    · rw [h]
      show _ :: _ :: startsOf t.path = _
      rw [hpath]
      rfl
    · refine t.isKind.not_prefix fun c hc => ?_
      simp only [List.mem_cons, List.not_mem_nil, or_false] at hs
      rcases hs with rfl | rfl <;> · rw [← Option.some.inj hc]; decide

/-- Characters that begin with no kind refer to no resource of this kind. -/
theorem nameAt?_eq_none (hkind : IsKind kind) (h : ¬kind.toList <+: cs) :
    nameAt? kind cs = none := by
  cases hat : nameAt? kind cs with
  | none => rfl
  | some name =>
    obtain ⟨rest, rfl, -⟩ := nameAt?_eq_some_iff.1 hat
    refine absurd ?_ h
    rw [characters_kind hkind, List.append_assoc]
    exact List.prefix_append _ _

/-- The name that a path refers to is that of the traversal. -/
theorem nameAt?_path : nameAt? t.kind t.path = some t.name := by
  have hbehind : t.behind.takeWhile isNameChar = [] := by
    cases hb : t.behind with
    | nil => rfl
    | cons c cs =>
      have hc := t.head?_behind c (by rw [hb]; rfl)
      rw [isKindChar, Bool.or_eq_false_iff] at hc
      rw [List.takeWhile_cons_of_neg (by simp [hc.1])]
  have hname : (t.name.toList ++ t.behind).takeWhile isNameChar = t.name.toList := by
    rw [List.takeWhile_append_of_pos (List.all_eq_true.1 t.isName.2), hbehind, List.append_nil]
  refine nameAt?_eq_some_iff.2 ⟨t.name.toList ++ t.behind, ?_, ?_, ?_⟩
  · rw [characters_kind t.isKind, List.append_assoc]
    rfl
  · rw [hname, ne_eq, String.toList_eq_nil_iff]
    exact t.isName.1
  · rw [hname, Text.ofCharacters_ascii, String.ofList_toList]
    exact fun c hc => toNat_of_isNameChar (List.all_eq_true.1 t.isName.2 c hc)

/-- A point follows the name in front of an attribute only. -/
theorem head?_behind_eq_point : t.behind.head? = some '.' ↔ t.readsAttribute = true := by
  rw [behind, readsAttribute]
  rcases t.steps with _ | ⟨attr | key, steps⟩
  · rw [stepsText, String.empty_append]
    rcases t.closing_cases with h | h <;> rw [h] <;> decide
  · rw [characters_member]
    exact iff_of_true rfl rfl
  · rw [characters_item, List.head?_cons, Option.some.injEq]
    exact iff_of_false (by decide) Bool.false_ne_true

/-- A path begins with a reference to an attribute of the resource that it names, if its first step is
to an attribute. -/
theorem beginsWith_path (hname : IsName name) :
    Text.beginsWith (address t.kind name) t.path = true ↔
      t.name = name ∧ t.readsAttribute = true := by
  have hkind : '.' ∉ t.kind.toList := t.isKind.notMem (by decide)
  have hown : '.' ∉ t.name.toList := t.isName.isKind.notMem (by decide)
  rw [Text.beginsWith_iff, address, path, Text.append_cons_prefix_iff hkind hkind,
    and_iff_right rfl, ← head?_behind_eq_point]
  cases hbehind : t.behind with
  | nil =>
    refine iff_of_false (fun h => hown ?_) (fun h => nomatch h.2)
    rw [List.append_nil] at h
    exact h.subset (by simp)
  | cons c cs =>
    have hc := t.head?_behind c (by rw [hbehind]; rfl)
    rw [List.head?_cons, Option.some.injEq]
    by_cases hpoint : c = '.'
    · rw [hpoint, Text.append_cons_prefix_iff (hname.isKind.notMem (by decide)) hown,
        String.toList_inj, and_iff_left (List.nil_prefix), and_iff_left rfl, eq_comm]
    · refine iff_of_false (fun h => hown ?_) (fun h => hpoint h.2)
      rw [Text.prefix_append_cons_iff] at h
      · exact h.subset (by simp)
      · simpa [hpoint] using hname.isKind.notMem hc

end Traversal

/-! ## The two searches -/

section
variable {t : Traversal}

/-- The resource that a traversal refers to is found by its name. -/
theorem referenced?_traversal (h : e.text = t.text) : referenced? t.kind e = some t.name := by
  obtain ⟨before, within, hstarts, hbefore, -⟩ := t.exists_startsOf_text
  rw [referenced?_eq, h, hstarts, List.findSome?_append]
  have hnone : before.findSome? (nameAt? t.kind) = none :=
    List.findSome?_eq_none_iff.2 fun s hs => Traversal.nameAt?_eq_none t.isKind (hbefore s hs)
  rw [hnone, Option.none_or, List.findSome?_cons, t.nameAt?_path]

/-- A traversal refers to an attribute of the resource that it names, if its first step is to an
attribute, and of those that its keys mention. -/
theorem refersTo_traversal (hname : IsName name) (h : e.text = t.text) :
    refersTo t.kind name e =
      (t.name == name && t.readsAttribute || t.steps.any (Step.mentions t.kind name)) := by
  obtain ⟨before, within, hstarts, hbefore, hwithin⟩ := t.exists_startsOf_text
  have hnone {l : List (List Char)} (hl : ∀ s ∈ l, ¬t.kind.toList <+: s) :
      l.any (Text.beginsWith (address t.kind name)) = false :=
    List.any_eq_false.2 fun s hs => by
      rw [beginsWith_address_eq_false (hl s hs)]
      exact Bool.false_ne_true
  have hpath : Text.beginsWith (address t.kind name) t.path =
      (t.name == name && t.readsAttribute) := by
    rw [Bool.eq_iff_iff, t.beginsWith_path hname, Bool.and_eq_true, beq_iff_eq]
  have hbehind := any_afterBreaks_steps t.isKind hname t.closing_cases t.attributesNamed
  rw [refersTo_eq, mentions, characters_address t.isKind hname, h, hstarts, List.any_append,
    hnone hbefore, Bool.false_or, List.any_cons, hpath, List.any_append, hnone hwithin,
    Bool.false_or, Traversal.behind, hbehind]

/-- The kind of a resource is what follows the mark of resources. -/
theorem kindOf_resource (kind : String) : kindOf ("resource." ++ kind) = kind := by
  have hstart : Text.afterStart "resource.".toList ("resource." ++ kind).toList =
      some kind.toList := by
    rw [Text.afterStart_eq_some_iff, String.toList_append]
  rw [kindOf, Text.dropStart, Text.dropStart?, hstart, Option.map_some, String.ofList_toList]
  rfl

/-- A resource with a companion is not reported. -/
theorem missingCompanion_of_refersTo {c : Context} {r other : Resource} {type attr : String}
    {p : Pair} (hname : r.literalName? = some name) (hplain : Text.hasStray name = false)
    (hother : other ∈ c.resources type) (hattr : attribute? other attr = some p)
    (hvalue : p.value.isAbsent = false) (hrefers : refersTo (kindOf r.type) name p.value = true)
    (code path : String) : missingCompanion c code r path type attr = some [] := by
  have hfound : (companion? c (kindOf r.type) name type attr).isSome = true := by
    rw [companion?, List.find?_isSome]
    refine ⟨other, hother, ?_⟩
    rw [hattr, valued?, Option.filter_some, if_pos (by rw [hvalue]; rfl), Option.any_some]
    exact hrefers
  rw [missingCompanion, hname]
  simp only [hplain, hfound, if_true, Bool.false_eq_true, if_false]

/-- The search for the name of a resource finds the name of every traversal. A traversal without steps
is no reference to an attribute. One whose first step is to an attribute, with no key that mentions the
resource, is a reference to an attribute of the resource exactly if the name is found there, and what
refers to the resource by one is its companion. -/
theorem references_agree {r : Resource} (htype : r.type = "resource." ++ t.kind)
    (hliteral : r.literalName? = some name) (hname : IsName name) (htext : e.text = t.text) :
    let kind := kindOf r.type
    referenced? kind e = some t.name ∧
      (t.steps = [] → refersTo kind name e = false) ∧
      (t.readsAttribute = true → (∀ key, .item key ∈ t.steps → mentions kind name key = false) →
        (refersTo kind name e = true ↔ referenced? kind e = some name)) ∧
      (t.readsAttribute = true → t.name = name →
        ∀ c code path type attr, ∀ other ∈ c.resources type, ∀ p, attribute? other attr = some p →
          p.value = e → missingCompanion c code r path type attr = some []) := by
  intro kind
  have hkind : kind = t.kind := by rw [← kindOf_resource t.kind, ← htype]
  have hfound := referenced?_traversal htext
  have hrefers := refersTo_traversal hname htext
  rw [hkind]
  refine ⟨hfound, fun hsteps => ?_, fun hattr hkeys => ?_, fun hattr hself => ?_⟩
  · rw [hrefers, Traversal.readsAttribute, hsteps, Bool.and_false, List.any_nil, Bool.or_false]
  · have hnone : t.steps.any (Step.mentions t.kind name) = false := by
      rw [List.any_eq_false]
      rintro (attr | key) hstep
      · exact Bool.false_ne_true
      · rw [Step.mentions, hkeys key hstep]
        exact Bool.false_ne_true
    rw [hrefers, hnone, hattr, Bool.and_true, Bool.or_false, beq_iff_eq, hfound, Option.some.injEq]
  · intro c code path type attr other hother p hp hvalue
    have hrefers : refersTo (kindOf r.type) name p.value = true := by
      rw [show kindOf r.type = t.kind from hkind, hvalue, hrefers, hattr, hself, beq_self_eq_true]
      rfl
    have hpresent : p.value.isAbsent = false := by
      rw [hvalue]
      exact Traversal.isAbsent_eq_false htext
    exact missingCompanion_of_refersTo hliteral (Text.isPlain_ascii hname.isAscii).hasStray hother hp
      hpresent hrefers code path

/-- A bucket named `logs`. -/
def logsBucket : Resource :=
  ⟨.nowhere, .string .nowhere "logs", "resource.aws_s3_bucket", [], []⟩

/-- A path that begins at the bucket. -/
def logsPath (steps : List Step) (h : ∀ attr, .member attr ∈ steps → IsName attr) : Traversal :=
  ⟨"aws_s3_bucket", "logs", steps, false, by decide, by decide, h⟩

/-- The replication of a bucket. -/
def replicationOf (bucket : Expr) : Resource :=
  ⟨.nowhere, .string .nowhere "copies", "resource.aws_s3_bucket_replication_configuration",
    [⟨.nowhere, .attr, "bucket", bucket, true, []⟩], []⟩

/-- A script that declares a resource. -/
def declaring (r : Resource) : Context :=
  { config := default
    scope := [⟨.nowhere, "a.tf", .script, "a.tf", [r], [], [], [], [], [], []⟩] }

/-- The replication of `aws_s3_bucket.logs.id` is that of the bucket. -/
theorem references_agree_id :
    let t := logsPath [.member "id"] (by simp +decide)
    let e := Expr.reference .nowhere t.text
    logsBucket.literalName? = some "logs" ∧ IsName "logs" ∧
      referenced? "aws_s3_bucket" e = some "logs" ∧ refersTo "aws_s3_bucket" "logs" e = true ∧
      missingCompanion (declaring (replicationOf e)) "sec_replication" logsBucket "a.tf"
        "resource.aws_s3_bucket_replication_configuration" "bucket" = some [] := by
  intro t e
  have hliteral : logsBucket.literalName? = some "logs" := rfl
  have hname : IsName "logs" := by decide
  obtain ⟨hfound, -, hagree, hcompanion⟩ :=
    references_agree (e := e) (t := t) (r := logsBucket) rfl hliteral hname rfl
  have hkeys : ∀ key, Step.item key ∈ t.steps → mentions "aws_s3_bucket" "logs" key = false := by
    simp [t, logsPath]
  have hother : replicationOf e ∈ (declaring (replicationOf e)).resources
      "resource.aws_s3_bucket_replication_configuration" := by
    simp [Context.resources, resourcesOfAll, Block.resourcesOf, declaring, replicationOf]
  have hbucket : attribute? (replicationOf e) "bucket" =
      some ⟨.nowhere, .attr, "bucket", e, true, []⟩ := by
    simp [attribute?, find?, blockPath, firstIn, replicationOf]
  exact ⟨hliteral, hname, hfound, (hagree rfl hkeys).2 hfound,
    hcompanion rfl rfl _ _ _ _ _ _ hother _ hbucket rfl⟩

/-- The two searches differ on paths whose first step is to an instance of the bucket and on the bare name:
the name is found, but no point follows it, so the replication of an instance does not count for the bucket.
They differ on a key that holds a reference itself, which only the first search finds behind the other name,
and on a name that goes on beyond ASCII, of which the second search takes the beginning. -/
theorem references_differ :
    let first := Expr.reference .nowhere
      (logsPath [.item "0", .member "id"] (by simp +decide)).text
    let whole := Expr.reference .nowhere (logsPath [] nofun).text
    let keyed := Expr.reference .nowhere "aws_s3_bucket.other[\"aws_s3_bucket.logs.id\"].id"
    let accented := Expr.reference .nowhere "aws_s3_bucket.logsé.id"
    (referenced? "aws_s3_bucket" first = some "logs" ∧
      refersTo "aws_s3_bucket" "logs" first = false ∧
      missingCompanion (declaring (replicationOf first)) "sec_replication" logsBucket "a.tf"
        "resource.aws_s3_bucket_replication_configuration" "bucket" ≠ some []) ∧
    (referenced? "aws_s3_bucket" whole = some "logs" ∧
      refersTo "aws_s3_bucket" "logs" whole = false) ∧
    (referenced? "aws_s3_bucket" keyed = some "other" ∧
      refersTo "aws_s3_bucket" "logs" keyed = true) ∧
    (referenced? "aws_s3_bucket" accented = some "logs" ∧
      refersTo "aws_s3_bucket" "logs" accented = false) := by
  decide +kernel

end

end InfraSmells.Policy
