import InfraSmells.Proofs.Policy.References

/-!
# Name records and the resources they point at

A name record of type `A` is reported unless one of its attributes points at a resource that is
declared in scope. Of an attribute with a value only the value is looked at, and of the references of
one kind in a value only the first (`Policy.judged`, `Policy.references`). So a record that points at
nothing is always reported, and a reported record points at nothing if its values have no attributes
below them and name one resource of each kind at most (`Policy.attached_records`). What a record
gains at the end of its lists and besides its attributes (`Policy.PairsGrow`) does not change the first
references, and the record stays unreported.
-/

namespace InfraSmells.Policy

variable {kind name : String} {kinds : List String} {c c' : Context} {e e' : Expr}

/-! ## References in a value -/

/-- The names of the resources of a kind that an expression refers to, in the order of its text. -/
def references (kind : String) (e : Expr) : List String :=
  (startsOf (Text.characters e.text)).filterMap (nameAt? kind)

/-- Only the first reference is seen. -/
theorem referenced?_eq_head? (kind : String) (e : Expr) :
    referenced? kind e = (references kind e).head? := by
  rw [referenced?_eq, references, List.head?_filterMap]

/-- There is a point in every reference. -/
theorem references_eq_nil (h : '.' ∉ Text.characters e.text) : references kind e = [] := by
  rw [references, List.filterMap_eq_nil_iff]
  intro s hs
  have hsub : s <:+ Text.characters e.text := by
    rcases List.mem_cons.1 hs with rfl | hs
    · exact List.suffix_refl _
    · exact (suffix_of_mem_afterBreaks hs).1
  cases hat : nameAt? kind s with
  | none => rfl
  | some name =>
    obtain ⟨rest, rfl, -⟩ := nameAt?_eq_some_iff.1 hat
    refine absurd (hsub.subset ?_) h
    rw [Text.characters_append kind (by decide), Text.characters_ascii (s := ".") (by decide)]
    simp

/-- A resource of the kind and name is declared in scope. -/
def Declares (c : Context) (kind name : String) : Prop :=
  ∃ r ∈ c.resources ("resource." ++ kind), r.literalName? = some name

/-- The expression refers to a resource in scope of one of the kinds. -/
def PointsAt (c : Context) (kinds : List String) (e : Expr) : Prop :=
  ∃ kind ∈ kinds, ∃ name ∈ references kind e, Declares c kind name

/-- The first reference of one of the kinds is to a resource in scope. -/
def PointsFirst (c : Context) (kinds : List String) (e : Expr) : Prop :=
  ∃ kind ∈ kinds, ∃ name, (references kind e).head? = some name ∧ Declares c kind name

/-- What points at a resource first points at it. -/
theorem PointsFirst.pointsAt (h : PointsFirst c kinds e) : PointsAt c kinds e := by
  obtain ⟨kind, hkind, name, hname, hdeclared⟩ := h
  exact ⟨kind, hkind, name, List.mem_of_mem_head? hname, hdeclared⟩

/-- Where the references of each kind are to one resource, the first is as good as any. -/
theorem PointsAt.first (hone : ∀ kind ∈ kinds, ∀ a ∈ references kind e, ∀ b ∈ references kind e, a = b)
    (h : PointsAt c kinds e) : PointsFirst c kinds e := by
  obtain ⟨kind, hkind, name, hname, hdeclared⟩ := h
  refine ⟨kind, hkind, name, ?_, hdeclared⟩
  cases hrefs : references kind e with
  | nil =>
    rw [hrefs] at hname
    exact nomatch hname
  | cons a as =>
    have ha : a ∈ references kind e := hrefs ▸ List.mem_cons_self
    rw [List.head?_cons, hone kind hkind a ha name hname]

/-- A resource is found by its kind and name if it is declared. -/
theorem resource?_isSome : (c.resource? ("resource." ++ kind) name).isSome = true ↔
    Declares c kind name := by
  simp only [Context.resource?, List.find?_isSome, beq_iff_eq, Declares]

/-- The search looks at the first reference of each kind. -/
theorem pointsFirst_iff : (kinds.any fun kind => (referencedResource? c kind e).isSome) = true ↔
    PointsFirst c kinds e := by
  simp only [List.any_eq_true, PointsFirst, referencedResource?, referenced?_eq_head?]
  refine exists_congr fun kind => and_congr_right fun _ => ?_
  cases (references kind e).head? with
  | none => simp
  | some name => simp [resource?_isSome]

/-! ## Values of a record -/

mutual

/-- The values that are looked at in an attribute: its own, or those below it if it has none. -/
def judgedIn : Pair → List Expr
  | ⟨_, _, _, value, _, children⟩ => if value.isAbsent then judged children else [value]

/-- The values that are looked at in attributes. -/
def judged : List Pair → List Expr
  | [] => []
  | p :: ps => judgedIn p ++ judged ps

end

mutual

theorem isAttached_iff : ∀ p : Pair,
    isAttached c kinds p = true ↔ ∃ e ∈ judgedIn p, PointsFirst c kinds e
  | ⟨_, _, _, value, _, children⟩ => by
    rw [isAttached, judgedIn]
    split
    · exact someAttached_iff children
    · rw [pointsFirst_iff]
      simp

/-- Attributes are attached if one of the values that are looked at points at a resource first. -/
theorem someAttached_iff : ∀ ps : List Pair,
    someAttached c kinds ps = true ↔ ∃ e ∈ judged ps, PointsFirst c kinds e
  | [] => by simp [someAttached, judged]
  | p :: ps => by
    rw [someAttached, judged, Bool.or_eq_true, isAttached_iff p, someAttached_iff ps]
    simp only [List.mem_append, or_and_right, exists_or]

end

mutual

theorem within_of_judgedIn (parent : String) : ∀ p : Pair, e ∈ judgedIn p →
    ∃ q ∈ pairWithin parent p, q.1.value = e
  | ⟨_, _, name, value, _, children⟩, h => by
    rw [judgedIn] at h
    rw [pairWithin]
    split at h
    · obtain ⟨q, hq, hvalue⟩ := within_of_judged name children h
      exact ⟨q, .tail _ hq, hvalue⟩
    · exact ⟨_, .head _, (List.mem_singleton.1 h).symm⟩

/-- The values that are looked at are values of attributes. -/
theorem within_of_judged (parent : String) : ∀ ps : List Pair, e ∈ judged ps →
    ∃ q ∈ within parent ps, q.1.value = e
  | p :: ps, h => by
    rw [within]
    rcases List.mem_append.1 h with h | h
    · obtain ⟨q, hq, hvalue⟩ := within_of_judgedIn parent p h
      exact ⟨q, List.mem_append_left _ hq, hvalue⟩
    · obtain ⟨q, hq, hvalue⟩ := within_of_judged parent ps h
      exact ⟨q, List.mem_append_right _ hq, hvalue⟩

end

/-- No attribute has both a value and attributes below it. -/
def ValuesAreLeaves (r : Resource) : Prop :=
  ∀ q ∈ attributesOf r, q.1.value.isAbsent = false → q.1.children = []

mutual

theorem judgedIn_of_within (parent : String) : ∀ p : Pair,
    (∀ q ∈ pairWithin parent p, q.1.value.isAbsent = false → q.1.children = []) →
    ∀ q ∈ pairWithin parent p, q.1.value.isAbsent = false → q.1.value ∈ judgedIn p
  | ⟨_, _, name, value, _, children⟩, hleaf, q, hq, hvalue => by
    rw [pairWithin] at hleaf hq
    rw [judgedIn]
    rcases List.mem_cons.1 hq with rfl | hq
    · rw [if_neg (Bool.eq_false_iff.1 hvalue)]
      exact List.mem_singleton_self value
    · split
      · exact judged_of_within name children (fun q hq => hleaf q (.tail _ hq)) q hq hvalue
      · next hpresent =>
        obtain rfl : children = [] := hleaf _ (.head _) (Bool.eq_false_iff.2 hpresent)
        exact nomatch hq

/-- If values are leaves, all of them are looked at. -/
theorem judged_of_within (parent : String) : ∀ ps : List Pair,
    (∀ q ∈ within parent ps, q.1.value.isAbsent = false → q.1.children = []) →
    ∀ q ∈ within parent ps, q.1.value.isAbsent = false → q.1.value ∈ judged ps
  | p :: ps, hleaf, q, hq, hvalue => by
    rw [within] at hleaf hq
    rw [judged]
    rcases List.mem_append.1 hq with hq | hq
    · exact List.mem_append_left _ (judgedIn_of_within parent p
        (fun q hq => hleaf q (List.mem_append_left _ hq)) q hq hvalue)
    · exact List.mem_append_right _ (judged_of_within parent ps
        (fun q hq => hleaf q (List.mem_append_right _ hq)) q hq hvalue)

end

/-! ## Records that grow -/

/-- A reference takes more than its kind and the point. -/
theorem length_lt_of_nameAt? {s : List Char} (h : nameAt? kind s = some name) :
    (Text.characters (kind ++ ".")).length < s.length := by
  obtain ⟨rest, rfl, hne, -⟩ := nameAt?_eq_some_iff.1 h
  cases rest with
  | nil => exact absurd rfl hne
  | cons c rest => simp

/-- A reference ends in front of a character outside names, whatever follows. -/
theorem nameAt?_append {s t : List Char} {c : Char} (hc : isNameChar c = false)
    (hlen : (Text.characters (kind ++ ".")).length ≤ s.length) :
    nameAt? kind (s ++ c :: t) = nameAt? kind s := by
  have htake (rest : List Char) :
      (rest ++ c :: t).takeWhile isNameChar = rest.takeWhile isNameChar := by
    induction rest with
    | nil => rw [List.nil_append, List.takeWhile_cons_of_neg (Bool.eq_false_iff.1 hc)]; rfl
    | cons d rest ih => rw [List.cons_append, List.takeWhile_cons, List.takeWhile_cons, ih]
  ext name
  simp only [nameAt?_eq_some_iff]
  constructor
  · rintro ⟨rest, heq, hname⟩
    -- The kind and the point are within the first part.
    obtain ⟨rest', rfl⟩ : Text.characters (kind ++ ".") <+: s :=
      List.prefix_of_prefix_length_le ⟨rest, heq.symm⟩ (List.prefix_append s _) hlen
    rw [List.append_assoc, List.append_cancel_left_eq] at heq
    rw [← heq, htake] at hname
    exact ⟨rest', rfl, hname⟩
  · rintro ⟨rest, rfl, hname⟩
    exact ⟨rest ++ c :: t, List.append_assoc _ _ _, by rwa [htake]⟩

/-- Of two places in a text, the later one has less behind it. -/
theorem startsOf_pairwise (cs : List Char) :
    (startsOf cs).Pairwise fun s t => t.length < s.length := by
  refine .cons (fun s hs => (suffix_of_mem_afterBreaks hs).2) ?_
  induction cs with
  | nil => exact .nil
  | cons c cs ih =>
    rw [afterBreaks]
    split
    · exact ih
    · exact .cons (fun s hs => (suffix_of_mem_afterBreaks hs).2) ih

/-- The first reference in front of a character outside names stays the first one when something else
follows there that begins with such a character. -/
theorem first_of_append {s t : List Char} {c d : Char} (hc : isNameChar c = false)
    (hd : isNameChar d = false)
    (h : (startsOf (s ++ [c])).findSome? (nameAt? kind) = some name) :
    (startsOf (s ++ d :: t)).findSome? (nameAt? kind) = some name := by
  have hnil : nameAt? kind [] = none := by
    cases hat : nameAt? kind [] with
    | none => rfl
    | some name => exact absurd (length_lt_of_nameAt? hat) (Nat.not_lt_zero _)
  have hend : (afterBreaks [c]).findSome? (nameAt? kind) = none := by
    rw [afterBreaks]
    split <;> simp [afterBreaks, hnil]
  rw [startsOf_append, List.findSome?_append] at h ⊢
  rw [hend, Option.or_none, List.findSome?_map] at h
  obtain ⟨before, u, behind, hstarts, hu, hbefore⟩ := List.findSome?_eq_some_iff.1 h
  have hlen : (Text.characters (kind ++ ".")).length ≤ u.length := by
    have hlt := length_lt_of_nameAt? hu
    simp only [List.length_append, List.length_singleton] at hlt
    exact Nat.le_of_lt_succ hlt
  have hsame {v : List Char} (hv : (Text.characters (kind ++ ".")).length ≤ v.length) :
      nameAt? kind (v ++ d :: t) = nameAt? kind (v ++ [c]) := by
    rw [nameAt?_append hd hv, nameAt?_append hc hv]
  -- An earlier place is further from the end, so what follows is not within its kind, either.
  have hearlier : ∀ v ∈ before, u.length < v.length := by
    have hpairwise := startsOf_pairwise s
    rw [hstarts, List.pairwise_append] at hpairwise
    exact fun v hv => hpairwise.2.2 v hv u (.head _)
  have hfirst : (startsOf s).findSome? (nameAt? kind ∘ (· ++ d :: t)) = some name := by
    refine List.findSome?_eq_some_iff.2 ⟨before, u, behind, hstarts, (hsame hlen).trans hu, ?_⟩
    exact fun v hv =>
      (hsame (Nat.le_trans hlen (Nat.le_of_lt (hearlier v hv)))).trans (hbefore v hv)
  rw [List.findSome?_map, hfirst, Option.some_or]

/-- The first reference in a list stays the first one when items are added at the end. -/
theorem head?_references_append {span span' : Span} {items items' : List Expr} {more : List String}
    (hitems : Expr.textAll items' = Expr.textAll items ++ more)
    (h : (references kind (.array span items)).head? = some name) :
    (references kind (.array span' items')).head? = some name := by
  have hne : Expr.textAll items ≠ [] := by
    cases items with
    | nil =>
      have hpoint : '.' ∉ Text.characters "[]" := by decide
      rw [references_eq_nil (e := .array span []) hpoint] at h
      exact nomatch h
    | cons e es => exact List.cons_ne_nil _ _
  by_cases hmore : more = []
  · rw [← referenced?_eq_head?, referenced?_eq, Expr.text] at h ⊢
    rwa [hitems, hmore, List.append_nil]
  · have hparts : Expr.text (.array span' items') = ("[" ++ Text.join ", " (Expr.textAll items)) ++
        (", " ++ (Text.join ", " more ++ "]")) := by
      rw [Expr.text, hitems, Text.join_append ", " hne hmore]
      simp only [String.append_assoc]
    rw [← referenced?_eq_head?, referenced?_eq] at h ⊢
    rw [Expr.text, Text.characters_append _ (by decide)] at h
    rw [hparts, Text.characters_around (by decide) (by decide)]
    exact first_of_append (by decide) (by decide) h

/-- A value of a record that has grown: the same text, or a list with more items at its end. -/
inductive ValueGrows : Expr → Expr → Prop
  | same {e e' : Expr} (htext : e'.text = e.text) (habsent : e'.isAbsent = e.isAbsent) :
    ValueGrows e e'
  | append {span span' : Span} {items items' : List Expr} {more : List String}
    (hitems : Expr.textAll items' = Expr.textAll items ++ more) :
    ValueGrows (.array span items) (.array span' items')

mutual

/-- An attribute that has grown: in its value or in what is below it. -/
inductive PairGrows : Pair → Pair → Prop
  | mk {span span' : Span} {kind : PairKind} {name : String} {value value' : Expr}
    {hasVariable hasVariable' : Bool} {children children' : List Pair}
    (hvalue : ValueGrows value value') (hchildren : PairsGrow children children') :
    PairGrows ⟨span, kind, name, value, hasVariable, children⟩
      ⟨span', kind, name, value', hasVariable', children'⟩

/-- Attributes that have grown, with others among them. -/
inductive PairsGrow : List Pair → List Pair → Prop
  | nil : PairsGrow [] []
  | insert {ps qs : List Pair} (q : Pair) (h : PairsGrow ps qs) : PairsGrow ps (q :: qs)
  | keep {p q : Pair} {ps qs : List Pair} (hp : PairGrows p q) (h : PairsGrow ps qs) :
    PairsGrow (p :: ps) (q :: qs)

end

theorem ValueGrows.isAbsent (h : ValueGrows e e') : e'.isAbsent = e.isAbsent := by
  cases h with
  | same _ habsent => exact habsent
  | append _ => rfl

/-- What a value first points at, it still does when it has grown. -/
theorem ValueGrows.pointsFirst (h : ValueGrows e e')
    (hscope : ∀ kind name, Declares c kind name → Declares c' kind name)
    (hpoints : PointsFirst c kinds e) : PointsFirst c' kinds e' := by
  obtain ⟨kind, hkind, name, hname, hdeclared⟩ := hpoints
  refine ⟨kind, hkind, name, ?_, hscope kind name hdeclared⟩
  cases h with
  | same htext _ => rwa [references, htext]
  | append hitems => exact head?_references_append hitems hname

mutual

theorem PairGrows.judgedIn {p q : Pair} : PairGrows p q →
    ∀ e ∈ judgedIn p, ∃ e' ∈ judgedIn q, ValueGrows e e'
  | .mk hvalue hchildren, e, he => by
    rw [Policy.judgedIn] at he ⊢
    rw [hvalue.isAbsent]
    split at he
    · next habsent =>
      rw [if_pos habsent]
      exact hchildren.judged e he
    · next habsent =>
      rw [if_neg habsent, List.mem_singleton.1 he]
      exact ⟨_, List.mem_singleton_self _, hvalue⟩

/-- The values that are looked at grow with the attributes. -/
theorem PairsGrow.judged {ps qs : List Pair} : PairsGrow ps qs →
    ∀ e ∈ judged ps, ∃ e' ∈ judged qs, ValueGrows e e'
  | .nil, _, he => nomatch he
  | .insert q h, e, he => by
    obtain ⟨e', he', hgrows⟩ := h.judged e he
    exact ⟨e', List.mem_append_right _ he', hgrows⟩
  | .keep hp h, e, he => by
    rcases List.mem_append.1 he with he | he
    · obtain ⟨e', he', hgrows⟩ := hp.judgedIn e he
      exact ⟨e', List.mem_append_left _ he', hgrows⟩
    · obtain ⟨e', he', hgrows⟩ := h.judged e he
      exact ⟨e', List.mem_append_right _ he', hgrows⟩

end

/-! ## Reports -/

/-- The resource is a name record of type `A`. -/
structure IsAddressRecord (r : Resource) : Prop where
  type : r.type = "resource.aws_route53_record"
  address : (valued? (attribute? r "type")).any (fun p => p.value.literal == "a") = true

/-- Some value of the record refers to a resource in scope of one of the kinds. -/
def IsPointing (c : Context) (kinds : List String) (r : Resource) : Prop :=
  ∃ q ∈ attributesOf r, PointsAt c kinds q.1.value

/-- The references of one kind in a value of the record are to one resource. -/
def NamesOneOfEach (kinds : List String) (r : Resource) : Prop :=
  ∀ q ∈ attributesOf r, ∀ kind ∈ kinds,
    ∀ a ∈ references kind q.1.value, ∀ b ∈ references kind q.1.value, a = b

/-- A record with a value that points at a resource first is pointing. -/
theorem isPointing_of_first {r : Resource} (h : ∃ e ∈ judged r.attributes, PointsFirst c kinds e) :
    IsPointing c kinds r := by
  obtain ⟨e, he, hfirst⟩ := h
  obtain ⟨q, hq, rfl⟩ := within_of_judged "" r.attributes he
  exact ⟨q, hq, hfirst.pointsAt⟩

/-- The converse, if the first references are as good as all of them. -/
theorem IsPointing.first {r : Resource} (h : IsPointing c kinds r) (hleaves : ValuesAreLeaves r)
    (hone : NamesOneOfEach kinds r) : ∃ e ∈ judged r.attributes, PointsFirst c kinds e := by
  obtain ⟨q, hq, hpoints⟩ := h
  refine ⟨q.1.value, judged_of_within "" r.attributes hleaves q hq ?_, hpoints.first (hone q hq)⟩
  obtain ⟨kind, -, name, hname, -⟩ := hpoints
  cases hvalue : q.1.value with
  | absent =>
    have hpoint : '.' ∉ Text.characters "" := by decide
    rw [hvalue, references_eq_nil (e := .absent) hpoint] at hname
    exact nomatch hname
  | _ => rfl

/-- A record is reported unless one of its attributes is attached. -/
theorem attachedResource_eq (config : Config) {r : Resource} (path : String)
    (h : IsAddressRecord r) : attachedResource config c (.resource r) path =
      if someAttached c config.policy.attachable r.attributes then []
      else [Finding.of "sec_attached_resource" (.resource r) path] := by
  rw [attachedResource]
  simp only [h.type, h.address, beq_self_eq_true, Bool.true_and]
  cases someAttached c config.policy.attachable r.attributes <;> rfl

/-- Records of another kind or type are not reported. -/
theorem attachedResource_of_not (config : Config) {r : Resource} (path : String)
    (h : ¬IsAddressRecord r) : attachedResource config c (.resource r) path = [] := by
  rw [attachedResource, if_neg]
  simp only [Bool.and_eq_true, beq_iff_eq]
  exact fun hr => h ⟨hr.1.1, hr.1.2⟩

/-- A name record of type `A` is not reported if and only if the first reference of some kind in a value
that is looked at is to a resource in scope. So it is reported if it points at nothing, and only then if
its values are leaves that name one resource of each kind. Once unreported, it stays so as it grows. -/
theorem attached_records (config : Config) (c : Context) {r : Resource} (path : String)
    (h : IsAddressRecord r) :
    let kinds := config.policy.attachable
    let found := attachedResource config c (.resource r) path
    let report := Finding.of "sec_attached_resource" (.resource r) path
    (found = [] ∨ found = [report]) ∧
      (found = [] ↔ ∃ e ∈ judged r.attributes, PointsFirst c kinds e) ∧
      (¬IsPointing c kinds r → found = [report]) ∧
      (ValuesAreLeaves r → NamesOneOfEach kinds r →
        (found = [report] ↔ ¬IsPointing c kinds r)) ∧
      (found = [] → ∀ r' c', PairsGrow r.attributes r'.attributes →
        (∀ kind name, Declares c kind name → Declares c' kind name) →
        attachedResource config c' (.resource r') path = []) := by
  intro kinds found report
  have hfound : found = if someAttached c kinds r.attributes then [] else [report] :=
    attachedResource_eq config path h
  have hcases : found = [] ∨ found = [report] := by
    rw [hfound]
    exact ite_eq_or_eq ..
  have hnil : found = [] ↔ ∃ e ∈ judged r.attributes, PointsFirst c kinds e := by
    rw [hfound, ← someAttached_iff]
    simp
  have hreport : found = [report] ↔ found ≠ [] := by
    refine ⟨fun heq => ?_, hcases.resolve_left⟩
    rw [heq]
    exact List.cons_ne_nil _ _
  have hpointing : ¬IsPointing c kinds r → found = [report] := fun hnot =>
    hreport.2 fun hempty => hnot (isPointing_of_first (hnil.1 hempty))
  refine ⟨hcases, hnil, hpointing, fun hleaves hone => ⟨fun heq hpoints => ?_, hpointing⟩, ?_⟩
  · exact hreport.1 heq (hnil.2 (hpoints.first hleaves hone))
  · intro hempty r' c' hgrows hscope
    by_cases hr' : IsAddressRecord r'
    · obtain ⟨e, he, hfirst⟩ := hnil.1 hempty
      obtain ⟨e', he', hvalue⟩ := hgrows.judged e he
      have hattached : someAttached c' kinds r'.attributes = true :=
        someAttached_iff r'.attributes |>.2 ⟨e', he', hvalue.pointsFirst hscope hfirst⟩
      rw [attachedResource_eq config path hr', if_pos hattached]
    · exact attachedResource_of_not config path hr'

/-- A configuration in which a record may point at an elastic address. -/
def addressKinds : Config :=
  { (default : Config) with policy := { attachable := ["aws_eip"] } }

/-- The elastic address `lb`. -/
def balancer : Resource :=
  ⟨.nowhere, .string .nowhere "lb", "resource.aws_eip", [], []⟩

/-- A script that declares the address. -/
def withBalancer : Context :=
  { config := addressKinds
    scope := [⟨.nowhere, "a.tf", .script, "a.tf", [balancer], [], [], [], [], [], []⟩] }

/-- The record `www` of type `A`, which points at elastic addresses. -/
def recordTo (names : List String) (below : List Pair) : Resource :=
  let addresses := names.map fun name => Expr.reference .nowhere ("aws_eip." ++ name ++ ".public_ip")
  ⟨.nowhere, .string .nowhere "www", "resource.aws_route53_record",
    [⟨.nowhere, .attr, "type", .string .nowhere "A", false, []⟩,
      ⟨.nowhere, .attr, "records", .array .nowhere addresses, true, below⟩], []⟩

/-- A record to `lb` is not reported, and neither is one to `lb` and to an address that is not declared. -/
theorem attached_records_growing :
    let before := recordTo ["lb"] []
    let after := recordTo ["lb", "gone"] []
    IsAddressRecord before ∧ PairsGrow before.attributes after.attributes ∧
      attachedResource addressKinds withBalancer (.resource before) "a.tf" = [] ∧
      attachedResource addressKinds withBalancer (.resource after) "a.tf" = [] := by
  intro before after
  have haddress : IsAddressRecord before := ⟨rfl, by decide +kernel⟩
  have hgrows : PairsGrow before.attributes after.attributes :=
    .keep (.mk (.same rfl rfl) .nil) (.keep (.mk (.append rfl) .nil) .nil)
  obtain ⟨-, hfound, -, -, hkept⟩ := attached_records addressKinds withBalancer "a.tf" haddress
  have hfirst : ∃ e ∈ judged before.attributes,
      PointsFirst withBalancer addressKinds.policy.attachable e :=
    ⟨_, .tail _ (.head _), "aws_eip", .head _, "lb", by decide +kernel, balancer, .head _, rfl⟩
  have hempty := hfound.2 hfirst
  exact ⟨haddress, hgrows, hempty, hkept hempty after withBalancer hgrows fun _ _ => id⟩

/-- A record to an address that is not declared and to `lb` is reported, although it points at `lb`. So is
one that points at `lb` below an attribute with a value. -/
theorem pointing_reported :
    let gone := recordTo ["gone", "lb"] []
    let below := recordTo []
      [⟨.nowhere, .attr, "value", .reference .nowhere "aws_eip.lb.public_ip", true, []⟩]
    (IsAddressRecord gone ∧ IsPointing withBalancer ["aws_eip"] gone ∧
      attachedResource addressKinds withBalancer (.resource gone) "a.tf" ≠ []) ∧
    (IsAddressRecord below ∧ IsPointing withBalancer ["aws_eip"] below ∧
      attachedResource addressKinds withBalancer (.resource below) "a.tf" ≠ []) := by
  intro gone below
  have hdeclared : Declares withBalancer "aws_eip" "lb" := ⟨balancer, .head _, rfl⟩
  refine ⟨⟨⟨rfl, by decide +kernel⟩, ?_, by decide +kernel⟩,
    ⟨⟨rfl, by decide +kernel⟩, ?_, by decide +kernel⟩⟩
  · exact ⟨_, .tail _ (.head _), "aws_eip", .head _, "lb", by decide +kernel, hdeclared⟩
  · exact ⟨_, .tail _ (.tail _ (.head _)), "aws_eip", .head _, "lb", by decide +kernel, hdeclared⟩

end InfraSmells.Policy
