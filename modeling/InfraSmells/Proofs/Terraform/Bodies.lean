import InfraSmells.Terraform.Tree
import Mathlib.Data.List.Nodup
import Mathlib.Data.List.Sort

/-!
# The order of the pairs of a body

A body may hold its attributes in any order (`Terraform.Body.Reordered`), and pairs may be sorted by their
starts in any way that is a sort (`Terraform.Arranged`). Where all attributes and nested blocks of each body
start at different places (`Terraform.Body.StartsApart`), neither shows: the pairs of a body are always the
same, and they stand in the order of the source, one for each attribute and nested block
(`Terraform.pairs_in_source_order`).
-/

namespace InfraSmells.Terraform

/-! ## Bodies whose parts start at different places -/

/-- The place where a nested block starts. -/
def Section.offset : Section → Nat
  | .mk _ _ typeRange _ _ => typeRange.start.offset

/-- The places where the attributes and nested blocks of a body start. -/
def offsets (attributes : List Attribute) (sections : List Section) : List Nat :=
  attributes.map (·.range.start.offset) ++ sections.map Section.offset

mutual

/-- The attributes and nested blocks of the body start at different places, and so do those of each nested
block. -/
def Body.StartsApart : Body → Prop
  | .mk attributes sections => (offsets attributes sections).Nodup ∧ sectionsStartApart sections

/-- `Body.StartsApart` of the bodies of nested blocks. -/
def sectionsStartApart : List Section → Prop
  | [] => True
  | .mk _ _ _ _ body :: more => body.StartsApart ∧ sectionsStartApart more

end

mutual

/-- The second body is the first with the attributes of each body in some order. -/
inductive Body.Reordered : Body → Body → Prop
  | mk {attributes attributes' : List Attribute} {sections sections' : List Section}
      (hattributes : attributes.Perm attributes') (hsections : SectionsReordered sections sections') :
      Body.Reordered (.mk attributes sections) (.mk attributes' sections')

/-- `Body.Reordered` of nested blocks, which keep their order. -/
inductive SectionsReordered : List Section → List Section → Prop
  | nil : SectionsReordered [] []
  | cons {type : String} {labels : List (String × Range)} {typeRange range : Range} {body body' : Body}
      {more more' : List Section} (hbody : body.Reordered body') (hmore : SectionsReordered more more') :
      SectionsReordered (.mk type labels typeRange range body :: more)
        (.mk type labels typeRange range body' :: more')

end

mutual

/-- Pairs for the attributes and nested blocks of a body, one for each, ordered by the places where they
start: these are related by `r` from one pair to each later one. -/
inductive Arranged (s : Script) (kind : PairKind) (r : Nat → Nat → Prop) : Body → List Pair → Prop
  | mk {attributes : List Attribute} {sections : List Section} {nested items : List (Nat × Pair)}
      (hnested : SectionsArranged s kind r sections nested)
      (hitems : items.Perm (s.attributePairs kind attributes ++ nested))
      (hordered : items.Pairwise fun a b => r a.1 b.1) :
      Arranged s kind r (.mk attributes sections) (items.map Prod.snd)

/-- Pairs for nested blocks, each with the place where it starts and with arranged children. -/
inductive SectionsArranged (s : Script) (kind : PairKind) (r : Nat → Nat → Prop) :
    List Section → List (Nat × Pair) → Prop
  | nil : SectionsArranged s kind r [] []
  | cons {type : String} {labels : List (String × Range)} {typeRange range : Range} {body : Body}
      {more : List Section} {children : List Pair} {rest : List (Nat × Pair)}
      (hbody : Arranged s kind r body children) (hmore : SectionsArranged s kind r more rest) :
      SectionsArranged s kind r (.mk type labels typeRange range body :: more)
        ((typeRange.start.offset,
          ⟨s.lineSpan range, kind, Script.sectionName type labels, .absent, false, children⟩) :: rest)

end

variable {s : Script} {kind : PairKind} {r : Nat → Nat → Prop}

/-! ## Pairs and their starts -/

/-- The pairs of nested blocks start where the blocks do. -/
theorem SectionsArranged.map_fst {sections : List Section} {nested : List (Nat × Pair)}
    (h : SectionsArranged s kind r sections nested) : nested.map Prod.fst = sections.map Section.offset := by
  induction sections generalizing nested with
  | nil =>
    cases h
    rfl
  | cons x sections ih =>
    cases h with
    | cons _ hmore => rw [List.map_cons, List.map_cons, ih hmore, Section.offset]

/-- All pairs of a body start where its attributes and nested blocks do. -/
theorem map_fst_perm {attributes : List Attribute} {sections : List Section}
    {nested items : List (Nat × Pair)} (hnested : SectionsArranged s kind r sections nested)
    (hitems : items.Perm (s.attributePairs kind attributes ++ nested)) :
    (items.map Prod.fst).Perm (offsets attributes sections) := by
  have hfst : (s.attributePairs kind attributes ++ nested).map Prod.fst = offsets attributes sections := by
    rw [List.map_append, hnested.map_fst, Script.attributePairs, List.map_map]
    rfl
  exact hfst ▸ hitems.map Prod.fst

/-- Only one sorted list has given items, if no two start at the same place. -/
theorem eq_of_perm_of_ordered {items items' : List (Nat × Pair)} (hnodup : (items.map Prod.fst).Nodup)
    (hperm : items.Perm items') (hordered : items.Pairwise fun a b => a.1 ≤ b.1)
    (hordered' : items'.Pairwise fun a b => a.1 ≤ b.1) : items = items' := by
  refine hperm.eq_of_pairwise ?_ hordered hordered'
  intro a b ha hb hab hba
  exact List.inj_on_of_nodup_map hnodup ha (hperm.mem_iff.2 hb) (Nat.le_antisymm hab hba)

/-- Items are sorted by their starts. -/
theorem ordered_mergeSort (items : List (Nat × Pair)) :
    (items.mergeSort fun a b => a.1 ≤ b.1).Pairwise fun a b => a.1 ≤ b.1 := by
  have htrans (a b c : Nat × Pair) (hab : decide (a.1 ≤ b.1) = true) (hbc : decide (b.1 ≤ c.1) = true) :
      decide (a.1 ≤ c.1) = true :=
    decide_eq_true (Nat.le_trans (of_decide_eq_true hab) (of_decide_eq_true hbc))
  have htotal (a b : Nat × Pair) : (decide (a.1 ≤ b.1) || decide (b.1 ≤ a.1)) = true := by
    simp only [Bool.or_eq_true, decide_eq_true_eq]
    exact Nat.le_total a.1 b.1
  refine (List.pairwise_mergeSort htrans htotal items).imp ?_
  intro a b hab
  exact of_decide_eq_true hab

/-! ## Arranging and reordering bodies -/

mutual

/-- The pairs of a body are arranged. -/
theorem arranged_bodyPairs (s : Script) (kind : PairKind) :
    ∀ body : Body, Arranged s kind (· ≤ ·) body (s.bodyPairs kind body)
  | .mk attributes sections => by
    rw [Script.bodyPairs, Script.inOrder]
    exact .mk (sectionsArranged_sectionPairs s kind sections) (List.mergeSort_perm _ _)
      (ordered_mergeSort _)

theorem sectionsArranged_sectionPairs (s : Script) (kind : PairKind) :
    ∀ sections : List Section, SectionsArranged s kind (· ≤ ·) sections (s.sectionPairs kind sections)
  | [] => by
    rw [Script.sectionPairs]
    exact .nil
  | .mk type labels typeRange range body :: more => by
    rw [Script.sectionPairs]
    exact .cons (arranged_bodyPairs s kind body) (sectionsArranged_sectionPairs s kind more)

end

mutual

/-- Where parts start at different places, pairs that are sorted by their starts strictly increase. -/
theorem Arranged.strict : ∀ {body : Body} {pairs : List Pair}, body.StartsApart →
    Arranged s kind (· ≤ ·) body pairs → Arranged s kind (· < ·) body pairs
  | .mk _ _, _, ⟨hapart, hsections⟩, .mk hnested hitems hordered => by
    refine .mk (hnested.strict hsections) hitems ?_
    have hne := List.pairwise_map.1 ((map_fst_perm hnested hitems).nodup_iff.2 hapart)
    refine (hordered.and hne).imp ?_
    intro a b hab
    exact Nat.lt_of_le_of_ne hab.1 hab.2

theorem SectionsArranged.strict : ∀ {sections : List Section} {nested : List (Nat × Pair)},
    sectionsStartApart sections → SectionsArranged s kind (· ≤ ·) sections nested →
    SectionsArranged s kind (· < ·) sections nested
  | [], _, _, .nil => .nil
  | .mk _ _ _ _ _ :: _, _, ⟨hbody, hmore⟩, .cons hchildren hrest =>
    .cons (hchildren.strict hbody) (hrest.strict hmore)

end

mutual

/-- However the attributes of a body are ordered and its pairs sorted, the pairs are the same. -/
theorem Arranged.unique : ∀ {body body' : Body} {pairs pairs' : List Pair}, body.StartsApart →
    body.Reordered body' → Arranged s kind (· ≤ ·) body pairs →
    Arranged s kind (· ≤ ·) body' pairs' → pairs = pairs'
  | .mk attributes sections, _, _, _, ⟨hapart, hsections⟩, .mk hattributes hreordered,
      .mk hnested hitems hordered, .mk hnested' hitems' hordered' => by
    -- The blocks keep their order, so only attributes and the sorting can differ.
    cases hnested.unique hsections hreordered hnested'
    have hall : (s.attributePairs kind attributes).Perm (s.attributePairs kind _) := hattributes.map _
    have hperm := hitems.trans ((hall.append_right _).trans hitems'.symm)
    have hnodup := (map_fst_perm hnested hitems).nodup_iff.2 hapart
    rw [eq_of_perm_of_ordered hnodup hperm hordered hordered']

theorem SectionsArranged.unique : ∀ {sections sections' : List Section}
    {nested nested' : List (Nat × Pair)}, sectionsStartApart sections →
    SectionsReordered sections sections' → SectionsArranged s kind (· ≤ ·) sections nested →
    SectionsArranged s kind (· ≤ ·) sections' nested' → nested = nested'
  | [], _, _, _, _, .nil, .nil, .nil => rfl
  | .mk _ _ _ _ _ :: _, _, _, _, ⟨hbody, hmore⟩, .cons hreordered hrest, .cons hchildren hnested,
      .cons hchildren' hnested' => by
    rw [hchildren.unique hbody hreordered hchildren', hnested.unique hmore hrest hnested']

end

/-- If the attributes and nested blocks of each body start at different places, the pairs of the body are one
for each of them, in the order of these places, and their children likewise. No order of the attributes
makes them any other, and neither does the way in which pairs are sorted. -/
theorem pairs_in_source_order (s : Script) (kind : PairKind) (body : Body) (h : body.StartsApart) :
    Arranged s kind (· < ·) body (s.bodyPairs kind body) ∧
      ∀ body', body.Reordered body' → s.bodyPairs kind body' = s.bodyPairs kind body ∧
        ∀ pairs, Arranged s kind (· ≤ ·) body' pairs ↔ pairs = s.bodyPairs kind body := by
  have harranged := arranged_bodyPairs s kind body
  refine ⟨harranged.strict h, fun body' hreordered => ?_⟩
  have harranged' := arranged_bodyPairs s kind body'
  have hsame := harranged.unique h hreordered harranged'
  refine ⟨hsame.symm, fun pairs => ⟨fun hpairs => ?_, ?_⟩⟩
  · exact (harranged.unique h hreordered hpairs).symm
  · rintro rfl
    rwa [hsame]

/-- The attribute without a value that starts at a place. -/
def attributeAt (name : String) (offset : Nat) : Attribute :=
  ⟨name, .null default, ⟨⟨1, offset + 1, offset⟩, ⟨1, offset + 1, offset⟩⟩⟩

/-- A block between two attributes, given in either order, with two attributes in either order. -/
theorem pairs_in_source_order_nested :
    let script := Script.ofText ""
    let blockOf (body : Body) : Section := .mk "x" [] ⟨⟨1, 11, 10⟩, ⟨1, 12, 11⟩⟩ default body
    let body := Body.mk [attributeAt "a" 5, attributeAt "b" 20]
      [blockOf (.mk [attributeAt "c" 13, attributeAt "d" 16] [])]
    let body' := Body.mk [attributeAt "b" 20, attributeAt "a" 5]
      [blockOf (.mk [attributeAt "d" 16, attributeAt "c" 13] [])]
    body.StartsApart ∧ body.Reordered body' ∧ script.bodyPairs .attr body' = script.bodyPairs .attr body ∧
      (script.bodyPairs .attr body).map (fun x => (x.name, x.children.map (·.name))) =
        [("a", []), ("x", ["c", "d"]), ("b", [])] := by
  intro script blockOf body body'
  have hapart : body.StartsApart := by
    simp [body, blockOf, Body.StartsApart, sectionsStartApart, offsets, Section.offset, attributeAt]
  have hreordered : body.Reordered body' :=
    .mk (.swap _ _ _) (.cons (.mk (.swap _ _ _) .nil) .nil)
  refine ⟨hapart, hreordered, ((pairs_in_source_order script .attr body hapart).2 body' hreordered).1, ?_⟩
  simp [body, blockOf, attributeAt, Script.bodyPairs, Script.sectionPairs, Script.attributePairs,
    Script.inOrder, List.mergeSort, Script.pairOf, Pair.ofValue, Script.sectionName]

end InfraSmells.Terraform
