import InfraSmells.Proofs.Policy.Union
import InfraSmells.Proofs.Text.Lines

/-!
# Attributes that are found and attributes that are judged

A rule resolves its parents twice. The search for its attribute goes down a path of blocks and takes
a generated block for the block that it generates; the judgement of values compares the name of the
block around an attribute as it stands. For a rule with at most one parent the two meet at the same
attribute unless its block is generated (`Policy.coversBlock_found`): then the attribute counts as
present and its value is never judged (`Policy.found_is_judged`, `Policy.generated_escapes`).
-/

namespace InfraSmells.Policy

variable {r : Resource} {rules : List PolicyRule} {rule : PolicyRule} {p : Pair} {place : Place}
  {parent : String}

/-- Does the name belong to a generated block? -/
def isGenerated (block : String) : Bool :=
  Text.startsWith block "dynamic."

/-- Does the rule reject the value of an attribute? -/
def rejects (rule : PolicyRule) (p : Pair) : Bool :=
  !p.value.isAbsent && !acceptsAll rule && !isList p.value &&
    (if rule.values.contains anyNotEmpty then Text.trim p.value.literal == ""
      else !p.hasVariable && !satisfies rule p.value.literal)

/-- An attribute that the rule is about violates it if the rule looks at its block and rejects its
value. -/
theorem violates_eq (happlies : appliesTo rule r = true) (hname : p.name = rule.attr) :
    violates rule r p parent = (coversBlock rule parent && rejects rule p) := by
  simp only [violates, rejects, happlies, hname, beq_self_eq_true, Bool.true_and, Bool.and_assoc]

/-! ## Names of generated blocks -/

/-- A name stays as it is when the mark of generated blocks is removed, unless it has the mark. -/
theorem dropStart_eq_self_iff : Text.dropStart "dynamic." parent = parent ↔
    isGenerated parent = false := by
  unfold Text.dropStart Text.dropStart? isGenerated Text.startsWith Text.beginsWith
  cases h : Text.afterStart "dynamic.".toList parent.toList with
  | none => simp
  | some rest =>
    have hsplit := congrArg List.length (Text.eq_append_of_afterStart h)
    have hmark : 0 < "dynamic.".toList.length := by decide
    refine iff_of_false (fun heq => ?_) (by simp)
    have hrest : rest = parent.toList := by
      rw [← heq, Option.map_some, Option.getD_some, String.toList_ofList]
    rw [hrest, List.length_append] at hsplit
    omega

/-! ## The attribute that is found and the block around it -/

/-- The first place leads to an attribute, and the search leads on from there. -/
theorem exists_of_firstPlaceOf {search : Pair → Option Place} {ps : List Pair}
    (h : firstPlaceOf search ps = some place) :
    ∃ i is q, place = i :: is ∧ ps[i]? = some q ∧ search q = some is := by
  obtain ⟨⟨q, i⟩, hmem, hq⟩ := List.exists_of_findSome?_eq_some h
  obtain ⟨is, his, rfl⟩ := Option.map_eq_some_iff.1 hq
  exact ⟨i, is, q, rfl, List.mem_zipIdx_iff_getElem?.1 hmem, his⟩

/-- An attribute that is found outside blocks has the name that was asked for. -/
theorem found_outside {name : String} {ps : List Pair}
    (h : firstPlace? name [] ps = some place) :
    ∃ i q, place = [i] ∧ ps[i]? = some q ∧ q.name = name := by
  obtain ⟨i, is, q, rfl, hq, hname⟩ := exists_of_firstPlaceOf h
  split at hname
  · next hsame =>
    cases hname
    exact ⟨i, q, rfl, hq, eq_of_beq hsame⟩
  · cases hname

/-- A rule with at most one parent finds an attribute with its name, in a block that is its parent
or generates it, and looks at the value there exactly if the block is not generated. -/
theorem coversBlock_found (hparents : rule.parents.length ≤ 1)
    (hfound : find? r rule.parents rule.attr = some p) :
    ∃ place parent,
      firstPlace? rule.attr (blockPath rule.parents) r.attributes = some place ∧
      attributeAt? r place = some (p, parent) ∧ p.name = rule.attr ∧
      (coversBlock rule parent = true ↔ isGenerated parent = false) := by
  have hlocated := located_firstIn rule.attr (blockPath rule.parents) "" r.attributes
  rw [find?] at hfound
  rw [hfound] at hlocated
  generalize hfirst : firstPlace? rule.attr (blockPath rule.parents) r.attributes = first
    at hlocated
  cases hlocated with
  | @some place _ around hat =>
  refine ⟨place, around, rfl, hat, ?_⟩
  have houtside : isGenerated "" = false := by decide
  -- the path is empty for no parent and for the parent with the empty name
  match hrule : rule.parents, hparents with
  | [], _ =>
    rw [hrule] at hfirst
    obtain ⟨i, q, rfl, hq, hname⟩ := found_outside hfirst
    rw [at?, hq] at hat
    cases hat
    exact ⟨hname, by simp [coversBlock, hrule, houtside]⟩
  | [block], _ =>
    rw [hrule] at hfirst
    by_cases hblock : block = ""
    · subst hblock
      obtain ⟨i, q, rfl, hq, hname⟩ := found_outside hfirst
      rw [at?, hq] at hat
      cases hat
      exact ⟨hname, by simp [coversBlock, hrule, houtside]⟩
    · have hpath : blockPath [block] = [block] := by simp [blockPath, hblock]
      rw [hpath] at hfirst
      obtain ⟨i, is, q, rfl, hq, hinner⟩ := exists_of_firstPlaceOf hfirst
      split at hinner
      · next hsame =>
        obtain ⟨j, q', rfl, hq', hname⟩ := found_outside hinner
        rw [at?, hq, Option.bind_some, pairAt?, hq'] at hat
        cases hat
        have hsame : Text.dropStart "dynamic." q.name = block := eq_of_beq hsame
        refine ⟨hname, ?_⟩
        rw [← dropStart_eq_self_iff, hsame, coversBlock, hrule]
        simp [eq_comm]
      · cases hinner

/-! ## Whether its value is judged -/

/-- The place of a violating attribute shows among the findings of a table. -/
theorem finding_of_mem_violating {code path : String} (hplace : place ∈ violating rules r)
    (hat : attributeAt? r place = some (p, parent)) :
    Finding.of code (.pair p) path ∈ evaluate code rules r path := by
  obtain ⟨q, around, hq, hviolates⟩ := mem_violating.1 hplace
  cases hat.symm.trans hq
  have hmem : (p, parent) ∈ attributesOf r := by
    rw [attributesOf_eq, List.mem_filterMap]
    exact ⟨place, mem_places.2 (by simp [hat]), hat⟩
  refine List.mem_append_right _ (List.mem_map.2 ⟨(p, parent), List.mem_filter.2 ⟨hmem, ?_⟩, rfl⟩)
  simpa only [List.any_eq_true] using hviolates

/-- If a rule with at most one parent applies to a resource and finds its attribute there, then the
rule looks at the value of this very attribute unless the block around it is generated; a value that
the rule rejects is then reported by every table with the rule. In a generated block the attribute
counts as present, and the rule never reports its value. -/
theorem found_is_judged (hrule : rule ∈ rules) (hparents : rule.parents.length ≤ 1)
    (happlies : appliesTo rule r = true) (hfound : find? r rule.parents rule.attr = some p)
    (code path : String) :
    ∃ place parent,
      firstPlace? rule.attr (blockPath rule.parents) r.attributes = some place ∧
      attributeAt? r place = some (p, parent) ∧
      (coversBlock rule parent = true ↔ isGenerated parent = false) ∧
      (isGenerated parent = false → rejects rule p = true →
        place ∈ violating rules r ∧ Finding.of code (.pair p) path ∈ evaluate code rules r path) ∧
      (isGenerated parent = true → place ∉ violating [rule] r) := by
  obtain ⟨place, parent, hfirst, hat, hname, hcovers⟩ := coversBlock_found hparents hfound
  have hviolates : violates rule r p parent = (coversBlock rule parent && rejects rule p) :=
    violates_eq happlies hname
  refine ⟨place, parent, hfirst, hat, hcovers, fun hwritten hrejects => ?_,
    fun hgenerated hmem => ?_⟩
  · have hplace : place ∈ violating rules r := by
      refine mem_violating.2 ⟨p, parent, hat, rule, hrule, ?_⟩
      rw [hviolates, hcovers.2 hwritten, hrejects, Bool.and_self]
    exact ⟨hplace, finding_of_mem_violating hplace hat⟩
  · obtain ⟨q, around, hq, rule', hrule', hjudged⟩ := mem_violating.1 hmem
    cases hat.symm.trans hq
    cases List.mem_singleton.1 hrule'
    rw [hviolates, Bool.and_eq_true, hcovers, hgenerated] at hjudged
    cases hjudged.1

/-- A rule that requires versioning to be enabled. -/
def versioningRule : PolicyRule :=
  { types := ["bucket"], attr := "status", parents := ["versioning"], values := ["enabled"],
    requirement := .required }

/-- The status of a resource that has versioning disabled. -/
def disabledStatus : Pair :=
  ⟨.nowhere, .attr, "status", .string .nowhere "Disabled", false, []⟩

/-- A resource with the disabled status in a block of the given name. -/
def unversioned (block : String) : Resource :=
  ⟨.nowhere, .absent, "bucket", [⟨.nowhere, .attr, block, .absent, false, [disabledStatus]⟩], []⟩

/-- Where the block is written out, the disabled status is reported. -/
theorem found_is_judged_versioning :
    let r := unversioned "versioning"
    versioningRule.parents.length ≤ 1 ∧ appliesTo versioningRule r = true ∧
    find? r versioningRule.parents versioningRule.attr = some disabledStatus ∧
    rejects versioningRule disabledStatus = true ∧
    Finding.of "sec_versioning" (.pair disabledStatus) "main.tf" ∈
      evaluate "sec_versioning" [versioningRule] r "main.tf" := by
  intro r
  have happlies : appliesTo versioningRule r = true := by decide
  have hfound : find? r versioningRule.parents versioningRule.attr = some disabledStatus := rfl
  have hrejects : rejects versioningRule disabledStatus = true := by decide +kernel
  obtain ⟨place, parent, hfirst, hat, -, hjudged, -⟩ := found_is_judged
    (List.mem_singleton_self versioningRule) (by decide) happlies hfound "sec_versioning" "main.tf"
  have hplace : place = [0, 0] := by
    have hfirst' : firstPlace? versioningRule.attr (blockPath versioningRule.parents)
        r.attributes = some [0, 0] := rfl
    exact Option.some.inj (hfirst.symm.trans hfirst')
  subst hplace
  have hparent : parent = "versioning" := congrArg Prod.snd (Option.some.inj hat).symm
  subst hparent
  exact ⟨by decide, happlies, hfound, hrejects, (hjudged (by decide) hrejects).2⟩

/-- Where the block is generated, the disabled status counts as present and is not reported. -/
theorem generated_escapes :
    appliesTo versioningRule (unversioned "dynamic.versioning") = true ∧
    (find? (unversioned "dynamic.versioning") versioningRule.parents versioningRule.attr).any
      (rejects versioningRule) = true ∧
    evaluate "sec_versioning" [versioningRule] (unversioned "dynamic.versioning") "main.tf" = [] := by
  decide +kernel

end InfraSmells.Policy
