import InfraSmells.Policy.Documents
import InfraSmells.Proofs.Datum.Depth
import InfraSmells.Proofs.Datum.Members
import InfraSmells.Proofs.Text.Lines

/-!
# Two spellings of a policy document

A policy document is given as the JSON text of a value or through a call that makes JSON of it. The
text is read after it was brought into lower case; the expression is brought into lower case on the
way to data, where numbers, truth values and nothing become texts. The data of both spellings agree
where a rule looks at them (`Policy.Agrees`, `Policy.agrees_dataOf`), so the rule gives one verdict
(`Policy.spellings_agree`), unless the value is deeper than a JSON text may be or lists names that
differ only in case in another order than they are printed in (`Policy.spellings_disagree`).
-/

namespace InfraSmells.Policy

/-! ## Expressions that write out a value -/

/-- The name that the key of an entry writes out. -/
def name? : Expr → Option String
  | .string _ k => some k
  | _ => none

mutual

/-- The value that an expression writes out. -/
def datum? : Expr → Option Datum
  | .string _ s => some (.text s)
  | .number _ x => if x.isFinite then some (.number (.float x)) else none
  | .boolean _ b => some (.flag b)
  | .null _ => some .null
  | .array _ items => (datumItems? items).map .list
  | .hash _ entries => (datumMembers? entries).map .table
  | _ => none

/-- The values that expressions write out. -/
def datumItems? : List Expr → Option (List Datum)
  | [] => some []
  | e :: es => do
    let d ← datum? e
    let ds ← datumItems? es
    return d :: ds

/-- The members that entries write out. -/
def datumMembers? : List (Expr × Expr) → Option (List (String × Datum))
  | [] => some []
  | (k, v) :: es => do
    let name ← name? k
    let d ← datum? v
    let ms ← datumMembers? es
    return (name, d) :: ms

end

/-- The text of a key is the name that it writes out. -/
theorem text_of_name? {k : Expr} {name : String} (h : name? k = some name) : k.text = name := by
  cases k <;> cases h
  rfl

mutual

/-- What an expression writes out is a value. -/
theorem isValue_of_datum? : ∀ {e : Expr} {d : Datum}, datum? e = some d → d.IsValue
  | .string _ _, _, h | .boolean _ _, _, h | .null _, _, h => by
    cases h
    trivial
  | .number _ x, _, h => by
    rw [datum?] at h
    split at h
    · next hfinite =>
      cases h
      exact hfinite
    · cases h
  | .array _ _, _, h => by
    obtain ⟨ds, hds, rfl⟩ := Option.map_eq_some_iff.1 h
    exact itemsValue_of_datumItems? hds
  | .hash _ _, _, h => by
    obtain ⟨ms, hms, rfl⟩ := Option.map_eq_some_iff.1 h
    exact membersValue_of_datumMembers? hms
  | .absent, _, h | .reference _ _, _, h | .call _ _ _, _, h | .methodCall _ _ _ _, _, h
  | .unary _ _ _, _, h | .binary _ _ _ _, _, h | .conditional _ _, _, h => by
    simp only [datum?, reduceCtorEq] at h

/-- What expressions write out are values. -/
theorem itemsValue_of_datumItems? : ∀ {es : List Expr} {ds : List Datum},
    datumItems? es = some ds → Datum.ItemsValue ds
  | [], _, h => by
    cases h
    trivial
  | e :: es, _, h => by
    obtain ⟨d, hd, h⟩ := Option.bind_eq_some_iff.1 h
    obtain ⟨ds, hds, h⟩ := Option.bind_eq_some_iff.1 h
    cases h
    exact ⟨isValue_of_datum? hd, itemsValue_of_datumItems? hds⟩

/-- What entries write out are values. -/
theorem membersValue_of_datumMembers? : ∀ {es : List (Expr × Expr)} {ms : List (String × Datum)},
    datumMembers? es = some ms → Datum.MembersValue ms
  | [], _, h => by
    cases h
    trivial
  | (_, _) :: _, _, h => by
    obtain ⟨name, -, h⟩ := Option.bind_eq_some_iff.1 h
    obtain ⟨d, hd, h⟩ := Option.bind_eq_some_iff.1 h
    obtain ⟨ms, hms, h⟩ := Option.bind_eq_some_iff.1 h
    cases h
    exact ⟨isValue_of_datum? hd, membersValue_of_datumMembers? hms⟩

end

/-! ## Data that agree -/

/-- The text stands for nothing that a rule on documents looks for. -/
structure Dull (s : String) : Prop where
  star_notMem : '*' ∉ s.toList
  ne_allow : s ≠ "allow"

/-- The data agree but for what a rule on documents never finds: numbers, truth values and nothing
may stand as dull texts, and members that no name leads to do not matter. -/
inductive Agrees : Datum → Datum → Prop where
  | text (s : String) : Agrees (.text s) (.text s)
  | null {s : String} (hs : Dull s) : Agrees .null (.text s)
  | flag {b : Bool} {s : String} (hs : Dull s) : Agrees (.flag b) (.text s)
  | number {n : Numeral} {s : String} (hs : Dull s) : Agrees (.number n) (.text s)
  | list {xs ys : List Datum} (h : List.Forall₂ Agrees xs ys) : Agrees (.list xs) (.list ys)
  | table {ms ns : List (String × Datum)}
      (hsome : ∀ name, (Datum.get? (.table ms) name).isSome = (Datum.get? (.table ns) name).isSome)
      (h : ∀ name x y, Datum.get? (.table ms) name = some x → Datum.get? (.table ns) name = some y →
        Agrees x y) : Agrees (.table ms) (.table ns)

/-- Data that agree have members that agree under each name. -/
theorem Agrees.get? {x y : Datum} (h : Agrees x y) (name : String) :
    x.get? name = none ∧ y.get? name = none ∨
      ∃ a b, x.get? name = some a ∧ y.get? name = some b ∧ Agrees a b := by
  cases h with
  | table hsome h =>
    specialize hsome name
    specialize h name
    rename_i ms ns
    cases hx : Datum.get? (.table ms) name with
    | none =>
      rw [hx] at hsome
      exact .inl ⟨rfl, Option.isNone_iff_eq_none.1 (by simpa using hsome.symm)⟩
    | some a =>
      rw [hx] at hsome
      obtain ⟨b, hy⟩ := Option.isSome_iff_exists.1 hsome.symm
      exact .inr ⟨a, b, rfl, hy, h a b hx hy⟩
  | _ => exact .inl ⟨rfl, rfl⟩

/-- A needle that occurs in characters is among them. -/
theorem subset_of_occursIn {needle : List Char} : ∀ {cs : List Char},
    Text.occursIn needle cs = true → needle ⊆ cs
  | [], h => by
    rw [Text.occursIn, Text.cutAt] at h
    split at h
    · next hempty => rw [List.isEmpty_iff.1 hempty]; exact List.nil_subset _
    · cases h
  | c :: cs, h => by
    rw [Text.occursIn, Text.cutAt] at h
    split at h
    · next rest hstart =>
      rw [Text.eq_append_of_afterStart hstart]
      exact List.subset_append_left _ _
    · rw [Option.isSome_map] at h
      exact List.subset_cons_of_subset c (subset_of_occursIn h)

/-- A dull text stands neither for more than one action nor for every resource. -/
theorem Dull.not_wild {s : String} (h : Dull s) :
    isWildAction s = false ∧ isWildResource s = false := by
  have hneedle {needle : String} (hmem : '*' ∈ needle.toList) : Text.contains s needle = false :=
    Bool.eq_false_iff.2 fun hin => h.star_notMem (subset_of_occursIn hin hmem)
  refine ⟨hneedle (by decide), Bool.or_eq_false_iff.2 ⟨?_, hneedle (by decide)⟩⟩
  refine beq_eq_false_iff_ne.2 fun hs => h.star_notMem ?_
  rw [hs]
  decide

/-- Data that agree are both the text that allows, or neither is. -/
theorem Agrees.allow {x y : Datum} (h : Agrees x y) :
    (x.text? == some "allow") = (y.text? == some "allow") := by
  cases h with
  | text s => rfl
  | null hs | flag hs | number hs => simpa [Datum.text?] using hs.ne_allow
  | list h => rfl
  | table hsome h => rfl

/-- Data that agree have the same texts, as far as these are not dull. -/
theorem Agrees.any_textsOf {x y : Datum} (h : Agrees x y) {f : String → Bool}
    (hf : ∀ s, Dull s → f s = false) : (textsOf (some x)).any f = (textsOf (some y)).any f := by
  cases h with
  | text s => rfl
  | null hs | flag hs | number hs => simp [textsOf, hf _ hs]
  | table hsome h => rfl
  | list h =>
    simp only [textsOf]
    induction h with
    | nil => rfl
    | cons hxy _ ih =>
      cases hxy <;> simp_all [List.filterMap_cons, Datum.text?]

/-- Members that agree have the same texts, as far as these are not dull. -/
theorem Agrees.any_textsOf_get? {x y : Datum} (h : Agrees x y) (name : String)
    {f : String → Bool} (hf : ∀ s, Dull s → f s = false) :
    (textsOf (x.get? name)).any f = (textsOf (y.get? name)).any f := by
  rcases h.get? name with ⟨hx, hy⟩ | ⟨a, b, hx, hy, hab⟩
  · rw [hx, hy]
  · rw [hx, hy, hab.any_textsOf hf]

/-- A rule has one verdict on statements that agree. -/
theorem Agrees.isWildStatement {x y : Datum} (h : Agrees x y) :
    isWildStatement x = isWildStatement y := by
  have hallow : ((x.get? "effect").bind Datum.text? == some "allow") =
      ((y.get? "effect").bind Datum.text? == some "allow") := by
    rcases h.get? "effect" with ⟨hx, hy⟩ | ⟨a, b, hx, hy, hab⟩
    · rw [hx, hy]
    · rw [hx, hy]
      exact hab.allow
  rw [Policy.isWildStatement, Policy.isWildStatement, hallow,
    h.any_textsOf_get? "action" fun _ hs => hs.not_wild.1,
    h.any_textsOf_get? "resource" fun _ hs => hs.not_wild.2]

/-- A rule has one verdict on documents that agree. -/
theorem Agrees.isWildDocument {x y : Datum} (h : Agrees x y) :
    isWildDocument x = isWildDocument y := by
  unfold Policy.isWildDocument
  rcases h.get? "statement" with ⟨hx, hy⟩ | ⟨a, b, hx, hy, hab⟩
  · rw [hx, hy]
  rw [hx, hy]
  cases hab with
  | list hitems =>
    clear hx hy
    show List.any _ _ = List.any _ _
    induction hitems with
    | nil => rfl
    | cons hxy _ ih => rw [List.any_cons, List.any_cons, hxy.isWildStatement, ih]
  | table hsome h => exact (Agrees.table hsome h).isWildStatement
  | _ => rfl

/-! ## The data of both spellings -/

/-- What is read of the text of a value in lower case. -/
def readBack (d : Datum) : Datum :=
  (d.normalize.withTexts Text.lower).withNumbers Json.reread

/-- Items are read back one by one. -/
theorem readBack_list (ds : List Datum) : readBack (.list ds) = .list (ds.map readBack) := by
  show Datum.list _ = _
  congr 1
  induction ds with
  | nil => rfl
  | cons d ds ih => exact congrArg (readBack d :: ·) ih

/-- The members of a table are read back one by one, in the order in which they are written. -/
theorem readBack_table (ms : List (String × Datum)) : readBack (.table ms) = .table
    ((Datum.sortMembers (Datum.normalizeMembers ms)).map fun m =>
      (Text.lower m.1, (m.2.withTexts Text.lower).withNumbers Json.reread)) := by
  show Datum.table _ = _
  congr 1
  generalize Datum.sortMembers (Datum.normalizeMembers ms) = sorted
  induction sorted with
  | nil => rfl
  | cons m sorted ih => exact congrArg (_ :: ·) ih

/-- In a table with its names in lower case the last member of a name is found. -/
theorem get?_lower {α : Type} (f : α → Datum) (ms : List (String × α)) (name : String) :
    Datum.get? (.table (ms.map fun m => (Text.lower m.1, f m.2))) name =
      (Datum.lastNamed name ms).map fun m => f m.2 := by
  rw [Datum.get?, Datum.members, ← List.map_reverse, List.find?_map, Option.map_map,
    Datum.lastNamed]
  rfl

/-- Values of pairs do not matter to the search for a name. -/
theorem lastNamed_map {α β : Type} (f : α → β) (ms : List (String × α)) (name : String) :
    Datum.lastNamed name (ms.map fun m => (m.1, f m.2)) =
      (Datum.lastNamed name ms).map fun m => (m.1, f m.2) := by
  rw [Datum.lastNamed, ← List.map_reverse, List.find?_map]
  rfl

/-- Under a name the last member of this name in lower case is read back. -/
theorem get?_readBack {ms : List (String × Datum)} (h : Datum.NamesInPrintedOrder ms)
    (name : String) : (readBack (.table ms)).get? name =
      (Datum.lastNamed name ms).map fun m => readBack m.2 := by
  rw [readBack_table, get?_lower (fun d : Datum => (d.withTexts Text.lower).withNumbers Json.reread),
    Datum.lastNamed_sortMembers name h.normalizeMembers, Datum.normalizeMembers_eq, lastNamed_map,
    Option.map_map]
  rfl

/-- In rows that agree the same places are found. -/
theorem find?_forall₂ {α β : Type} {R : α → β → Prop} {f : α → Bool} {g : β → Bool}
    (hfg : ∀ a b, R a b → f a = g b) {as : List α} {bs : List β} (h : List.Forall₂ R as bs) :
    as.find? f = none ∧ bs.find? g = none ∨
      ∃ a b, as.find? f = some a ∧ bs.find? g = some b ∧ R a b := by
  induction h with
  | nil => exact .inl ⟨rfl, rfl⟩
  | @cons a b as bs hab _ ih =>
    rw [List.find?_cons, List.find?_cons, hfg a b hab]
    cases g b with
    | true => exact .inr ⟨a, b, rfl, rfl, hab⟩
    | false => exact ih

/-- Tables agree whose members agree one by one before they are sorted. -/
theorem agrees_table {ms ns : List (String × Datum)} (horder : Datum.NamesInPrintedOrder ms)
    (h : List.Forall₂ (fun m n => Text.lower m.1 = n.1 ∧ Agrees (readBack m.2) n.2) ms ns) :
    Agrees (readBack (.table ms)) (.table ns) := by
  have hget (name : String) : (readBack (.table ms)).get? name = none ∧
      Datum.get? (.table ns) name = none ∨ ∃ a b, (readBack (.table ms)).get? name = some a ∧
        Datum.get? (.table ns) name = some b ∧ Agrees a b := by
    rw [get?_readBack horder]
    rcases find?_forall₂ (f := fun m => Text.lower m.1 == name) (g := fun n => n.1 == name)
      (fun m n hmn => by rw [hmn.1]) (List.rel_reverse h) with ⟨hm, hn⟩ | ⟨m, n, hm, hn, hmn⟩
    · exact .inl ⟨by rw [Datum.lastNamed, hm]; rfl, by rw [Datum.get?, Datum.members, hn]; rfl⟩
    · exact .inr ⟨_, _, by rw [Datum.lastNamed, hm]; rfl,
        by rw [Datum.get?, Datum.members, hn]; rfl, hmn.2⟩
  rw [readBack_table] at hget ⊢
  refine .table (fun name => ?_) fun name x y hx hy => ?_
  · rcases hget name with ⟨hx, hy⟩ | ⟨a, b, hx, hy, -⟩
    · rw [hx, hy]
    · rw [hx, hy]
      rfl
  · rcases hget name with ⟨hx', -⟩ | ⟨a, b, hx', hy', hab⟩
    · rw [hx] at hx'
      cases hx'
    · rw [hx] at hx'
      rw [hy] at hy'
      cases hx'
      cases hy'
      exact hab

/-- The text of a finite number is dull. -/
theorem dull_number {x : Binary64} (hfinite : x.isFinite = true) (span : Span) :
    Dull (Text.lower (Expr.number span x).text) := by
  show Dull (Text.lower (x.text .plain))
  rw [(lowers_text hfinite .plain).lower_eq]
  have hchars := isNumberChar_text hfinite .plain
  refine ⟨fun hstar => absurd (hchars _ hstar) (by decide), fun hallow => ?_⟩
  rw [hallow] at hchars
  exact absurd (hchars 'l' (by decide)) (by decide)

/-- The texts of the truth values are dull. -/
theorem dull_boolean (b : Bool) : Dull (Text.lower (if b then "true" else "false")) := by
  cases b <;> exact ⟨by decide, by decide⟩

/-- The text of nothing is dull. -/
theorem dull_null : Dull (Text.lower "null") :=
  ⟨by decide, by decide⟩

mutual

/-- The data of both spellings agree. -/
theorem agrees_dataOf : ∀ {e : Expr} {d : Datum}, datum? e = some d → d.InPrintedOrder →
    Agrees (readBack d) (dataOf e)
  | .string _ s, _, h, _ => by
    cases h
    exact .text _
  | .number span x, _, h, _ => by
    rw [datum?] at h
    split at h
    · next hfinite =>
      cases h
      exact .number (dull_number hfinite span)
    · cases h
  | .boolean _ b, _, h, _ => by
    cases h
    exact .flag (dull_boolean b)
  | .null _, _, h, _ => by
    cases h
    exact .null dull_null
  | .array _ _, _, h, horder => by
    obtain ⟨ds, hds, rfl⟩ := Option.map_eq_some_iff.1 h
    rw [readBack_list]
    exact .list (agrees_dataItems hds horder)
  | .hash _ _, _, h, horder => by
    obtain ⟨ms, hms, rfl⟩ := Option.map_eq_some_iff.1 h
    exact agrees_table horder.1 (agrees_dataEntries hms horder.2)
  | .absent, _, h, _ | .reference _ _, _, h, _ | .call _ _ _, _, h, _ | .methodCall _ _ _ _, _, h, _
  | .unary _ _ _, _, h, _ | .binary _ _ _ _, _, h, _ | .conditional _ _, _, h, _ => by
    simp only [datum?, reduceCtorEq] at h

/-- The data of items agree. -/
theorem agrees_dataItems : ∀ {es : List Expr} {ds : List Datum}, datumItems? es = some ds →
    Datum.ItemsInPrintedOrder ds → List.Forall₂ Agrees (ds.map readBack) (dataItems es)
  | [], _, h, _ => by
    cases h
    exact .nil
  | _ :: _, _, h, horder => by
    obtain ⟨d, hd, h⟩ := Option.bind_eq_some_iff.1 h
    obtain ⟨ds, hds, h⟩ := Option.bind_eq_some_iff.1 h
    cases h
    exact .cons (agrees_dataOf hd horder.1) (agrees_dataItems hds horder.2)

/-- The data of entries agree, under names in lower case. -/
theorem agrees_dataEntries : ∀ {es : List (Expr × Expr)} {ms : List (String × Datum)},
    datumMembers? es = some ms → Datum.ValuesInPrintedOrder ms →
    List.Forall₂ (fun m n => Text.lower m.1 = n.1 ∧ Agrees (readBack m.2) n.2) ms (dataEntries es)
  | [], _, h, _ => by
    cases h
    exact .nil
  | (_, _) :: _, _, h, horder => by
    obtain ⟨name, hname, h⟩ := Option.bind_eq_some_iff.1 h
    obtain ⟨d, hd, h⟩ := Option.bind_eq_some_iff.1 h
    obtain ⟨ms, hms, h⟩ := Option.bind_eq_some_iff.1 h
    cases h
    exact .cons ⟨congrArg Text.lower (text_of_name? hname).symm, agrees_dataOf hd horder.1⟩
      (agrees_dataEntries hms horder.2)

end

/-! ## Verdicts -/

/-- The resource is of a type that holds a policy document, and the value is its document. -/
def HoldsPolicy (r : Resource) (v : Expr) : Prop :=
  documentHolders.contains r.type = true ∧ ∃ p, attribute? r "policy" = some p ∧ p.value = v

/-- A resource is reported for its document if this allows too much. -/
theorem sensitiveAction_ne_nil {r : Resource} {v : Expr} (h : HoldsPolicy r v)
    (hv : v.isAbsent = false) (c : Context) (path : String) :
    sensitiveAction c (.resource r) path ≠ [] ↔ (document? v).any isWildDocument = true := by
  obtain ⟨htype, p, hp, rfl⟩ := h
  have hother : (r.type == "data.aws_iam_policy_document") = false := by
    refine beq_eq_false_iff_ne.2 fun hdata => ?_
    rw [hdata] at htype
    exact absurd htype (by decide)
  have hvalued : valued? (attribute? r "policy") = some p := by
    rw [hp, valued?, Option.filter_some, hv]
    rfl
  rw [sensitiveAction]
  simp only [hother, htype, hvalued, Option.filter_some]
  cases (document? p.value).any isWildDocument <;> simp

/-- The text of a value is read as a document, if the value is no deeper than a text may be. -/
theorem document?_written (span : Span) (level : Option Nat) {d : Datum} (hd : d.IsValue)
    (horder : d.InPrintedOrder) (hdepth : d.depth ≤ Json.maxDepth) :
    document? (.string span (Json.write level d.normalize)) = some (readBack d) := by
  rw [← Datum.depth_normalize horder] at hdepth
  rw [document?, Datum.ofJson?_lower_write level hd.normalize hdepth]
  exact if_pos (Datum.isRepresentable_reread hd.normalize)

/-- The text of a deeper value is not read. -/
theorem document?_written_deep (span : Span) (level : Option Nat) {d : Datum} (hd : d.IsValue)
    (horder : d.InPrintedOrder) (hdeep : Json.maxDepth < d.depth) :
    document? (.string span (Json.write level d.normalize)) = none := by
  rw [← Datum.depth_normalize horder, ← Datum.depth_withTexts Text.lower] at hdeep
  rw [document?, (Json.lowers_write level hd.normalize).lower_eq,
    Datum.ofJson?_write_deep level (Datum.isWritten_lowered hd.normalize) hdeep]
  rfl

/-- A policy document is reported where it is written as a text exactly if it is reported where JSON
is made of it and is no deeper than a JSON text may be, provided that names that are the same in
lower case stand in the order in which they are printed. -/
theorem spellings_agree {e : Expr} {d : Datum} (hd : datum? e = some d) (horder : d.InPrintedOrder)
    (level : Option Nat) {written encoded : Resource} {s s' : Span}
    (hwritten : HoldsPolicy written (.string s (Json.write level d.normalize)))
    (hencoded : HoldsPolicy encoded (.call s' "jsonencode" [e]))
    (c c' : Context) (path path' : String) :
    sensitiveAction c (.resource written) path ≠ [] ↔
      d.depth ≤ Json.maxDepth ∧ sensitiveAction c' (.resource encoded) path' ≠ [] := by
  have hvalue := isValue_of_datum? hd
  rw [sensitiveAction_ne_nil hwritten rfl, sensitiveAction_ne_nil hencoded rfl]
  by_cases hdepth : d.depth ≤ Json.maxDepth
  · rw [document?_written s level hvalue horder hdepth, document?, Option.any_some, Option.any_some,
      (agrees_dataOf hd horder).isWildDocument]
    exact (and_iff_right hdepth).symm
  · rw [document?_written_deep s level hvalue horder (Nat.lt_of_not_le hdepth)]
    simp [hdepth]

/-! ## Some documents -/

/-- A resource with a policy document. -/
def roleWith (document : Expr) : Resource :=
  ⟨.nowhere, .absent, "resource.aws_iam_role_policy",
    [⟨.nowhere, .attr, "policy", document, false, []⟩], []⟩

/-- The resource has its document. -/
theorem holdsPolicy_roleWith (document : Expr) : HoldsPolicy (roleWith document) document := by
  have htype : documentHolders.contains "resource.aws_iam_role_policy" = true := by decide
  exact ⟨htype, _, rfl, rfl⟩

/-- A hash of named values. -/
def named (members : List (String × Expr)) : Expr :=
  .hash .nowhere (members.map fun (name, value) => (.string .nowhere name, value))

/-- Statements of which one allows what the members say. -/
def allowing (members : List (String × String)) : Expr :=
  .array .nowhere [named (("Effect", .string .nowhere "Allow") ::
    members.map fun (name, value) => (name, .string .nowhere value))]

/-- The value of statements that allow every action. -/
def everyAction : Datum :=
  .list [.table [("Effect", .text "Allow"), ("Action", .text "*")]]

/-- No two names of a table are the same there. -/
theorem inPrintedOrder_everyAction : everyAction.InPrintedOrder := by
  have hnames : [Text.lower "Effect", Text.lower "Action"].Nodup := by decide
  exact ⟨⟨Datum.namesInPrintedOrder_of_nodup hnames, trivial, trivial, trivial⟩, trivial⟩

/-- A document that allows every action is reported in both spellings. -/
theorem spellings_agree_everyAction :
    let e := named [("Statement", allowing [("Action", "*")])]
    let d := Datum.table [("Statement", everyAction)]
    datum? e = some d ∧ d.InPrintedOrder ∧ d.depth ≤ Json.maxDepth ∧
      sensitiveAction default (.resource (roleWith (.string .nowhere d.normalize.toJson)))
        "main.tf" ≠ [] := by
  intro e d
  have hd : datum? e = some d := rfl
  have horder : d.InPrintedOrder := ⟨Datum.namesInPrintedOrder_of_nodup (List.nodup_singleton _),
    inPrintedOrder_everyAction, trivial⟩
  have hdepth : d.depth ≤ Json.maxDepth := by decide
  have hencoded := holdsPolicy_roleWith (.call .nowhere "jsonencode" [e])
  have hreported := (sensitiveAction_ne_nil hencoded rfl default "main.tf").2 rfl
  exact ⟨hd, horder, hdepth, (spellings_agree hd horder none (holdsPolicy_roleWith _) hencoded
    default default "main.tf" "main.tf").2 ⟨hdepth, hreported⟩⟩

/-- An array within so many arrays. -/
def nested : Nat → Expr
  | 0 => .array .nowhere []
  | n + 1 => .array .nowhere [nested n]

/-- The value of nested arrays. -/
theorem datum?_nested (n : Nat) :
    ∃ d, datum? (nested n) = some d ∧ d.depth = n + 1 ∧ d.InPrintedOrder := by
  induction n with
  | zero => exact ⟨.list [], rfl, rfl, trivial⟩
  | succ n ih =>
    obtain ⟨d, hd, hdepth, horder⟩ := ih
    refine ⟨.list [d], ?_, ?_, horder, trivial⟩
    · simp only [nested, datum?, datumItems?, hd]
      rfl
    · simp only [Datum.depth, Datum.itemsDepth, hdepth, Nat.max_zero]

/-- A document that allows every action, with another member in front. -/
def beside (other : Expr) : Expr :=
  named [("A", other), ("Statement", allowing [("Action", "*")])]

/-- The value of a document with another member is deeper than the value of the member. -/
theorem datum?_beside {other : Expr} {x : Datum} (h : datum? other = some x)
    (hx : x.InPrintedOrder) :
    ∃ d, datum? (beside other) = some d ∧ x.depth < d.depth ∧ d.InPrintedOrder := by
  have hnames : [Text.lower "A", Text.lower "Statement"].Nodup := by decide
  refine ⟨.table [("A", x), ("Statement", everyAction)], ?_, ?_, ?_⟩
  · simp only [beside, named, List.map_cons, datum?, datumMembers?, name?, h]
    rfl
  · exact Nat.lt_succ_of_le (le_max_left _ _)
  · exact ⟨Datum.namesInPrintedOrder_of_nodup hnames, hx, inPrintedOrder_everyAction, trivial⟩

/-- A document that names the actions twice, in another order than names are printed in. -/
def namedTwice : Expr :=
  named [("Statement", allowing [("action", "read"), ("Action", "*")])]

/-- Documents that are reported where JSON is made of them and not where they are written as texts:
one names the actions twice, the other is deeper than a JSON text may be. -/
theorem spellings_disagree :
    (∃ d, datum? namedTwice = some d ∧ d.depth ≤ Json.maxDepth ∧
      sensitiveAction default (.resource (roleWith (.string .nowhere d.normalize.toJson)))
        "main.tf" = [] ∧
      sensitiveAction default (.resource (roleWith (.call .nowhere "jsonencode" [namedTwice])))
        "main.tf" ≠ []) ∧
    (∃ d, datum? (beside (nested Json.maxDepth)) = some d ∧ d.InPrintedOrder ∧
      sensitiveAction default (.resource (roleWith (.string .nowhere d.normalize.toJson)))
        "main.tf" = [] ∧
      sensitiveAction default (.resource (roleWith (.call .nowhere "jsonencode"
        [beside (nested Json.maxDepth)]))) "main.tf" ≠ []) := by
  constructor
  · refine ⟨_, rfl, by decide, ?_, ?_⟩
    · decide +kernel
    · exact (sensitiveAction_ne_nil (holdsPolicy_roleWith _) rfl default "main.tf").2 rfl
  · obtain ⟨x, hx, hdepth, horder⟩ := datum?_nested Json.maxDepth
    obtain ⟨d, hd, hdeeper, horder⟩ := datum?_beside hx horder
    have hdeep : Json.maxDepth < d.depth := by omega
    refine ⟨d, hd, horder, ?_, ?_⟩
    · by_contra hreported
      have hwild :=
        (sensitiveAction_ne_nil (holdsPolicy_roleWith _) rfl default "main.tf").1 hreported
      rw [Datum.toJson, document?_written_deep .nowhere none (isValue_of_datum? hd) horder hdeep]
        at hwild
      cases hwild
    · -- the statement is found without a look at the other member
      generalize nested Json.maxDepth = other
      exact (sensitiveAction_ne_nil (holdsPolicy_roleWith _) rfl default "main.tf").2 rfl

end InfraSmells.Policy
