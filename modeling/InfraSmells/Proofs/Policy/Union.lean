import InfraSmells.Policy.Checkers
import InfraSmells.Proofs.Policy.Places
import Mathlib.Data.List.Forall2

/-!
# A table means the union of its rules

What a table reports of a resource (`Policy.reports`) are the resource itself, where a required
attribute is missing, and attributes by their places: first those that must not exist, then those
with violating values, each of these once and in the order of their places. The findings of a table
are about these in turn (`Policy.shows_existences`, `Policy.shows_values`), and what a table reports is
the union of what its rules report (`Policy.table_is_union`). Nothing is reported of an attribute that no
rule forbids or judges (`Policy.notMem_reports`).
-/

namespace InfraSmells.Policy

variable {r : Resource} {rules rules' : List PolicyRule} {rule : PolicyRule} {code path : String}

/-- What a finding of a table is about. -/
inductive Spot where
  /-- The resource itself. -/
  | resource
  | pair (place : Place)
  deriving DecidableEq

/-- The element of a resource that stands there. -/
def Spot.element? (r : Resource) : Spot → Option Element
  | resource => some (.resource r)
  | pair place => (attributeAt? r place).map fun x => .pair x.1

/-- What a rule reports about the existence of its attribute. -/
def existenceSpots (r : Resource) (rule : PolicyRule) : List Spot :=
  if !appliesTo rule r then []
  else
    match rule.requirement, firstPlace? rule.attr (blockPath rule.parents) r.attributes with
    | .required, none => [.resource]
    | .forbidden, some place => [.pair place]
    | _, _ => []

/-- The places of the attributes that a test picks, depth first. -/
def placesWhere (test : Pair × String → Bool) (r : Resource) : List Place :=
  (places r).filter fun place => (attributeAt? r place).any test

/-- The places of the attributes whose value violates a rule, depth first. -/
def violating (rules : List PolicyRule) (r : Resource) : List Place :=
  (places r).filter fun place =>
    (attributeAt? r place).any fun x => rules.any (violates · r x.1 x.2)

/-- What a table reports of a resource. -/
def reports (rules : List PolicyRule) (r : Resource) : List Spot :=
  rules.flatMap (existenceSpots r) ++ (violating rules r).map .pair

/-- The finding is about the element that stands there. -/
def Shows (code path : String) (r : Resource) (spot : Spot) (f : Finding) : Prop :=
  ∃ e, spot.element? r = some e ∧
    (f = Finding.of code e path ∨ ∃ advice, f = (Finding.of code e path).suggest advice)

/-! ## Findings and what they are about -/

/-- What a rule finds about the existence of its attribute is about what it reports. -/
theorem shows_existence (code path : String) (r : Resource) (rule : PolicyRule) :
    List.Forall₂ (Shows code path r) (existenceSpots r rule) (existence code path r rule) := by
  unfold existenceSpots existence
  split
  · exact .nil
  have hfirst := located_firstIn rule.attr (blockPath rule.parents) "" r.attributes
  unfold find?
  generalize firstPlace? rule.attr (blockPath rule.parents) r.attributes = place? at hfirst ⊢
  generalize firstIn rule.attr (blockPath rule.parents) r.attributes = found at hfirst ⊢
  cases hfirst with
  | none =>
    cases rule.requirement with
    | required => exact .cons ⟨_, rfl, .inr ⟨_, rfl⟩⟩ .nil
    | forbidden | optional => exact .nil
  | some hplace =>
    cases rule.requirement with
    | forbidden =>
      refine .cons ⟨_, ?_, .inl rfl⟩ .nil
      rw [Spot.element?, attributeAt?, hplace]
      rfl
    | required | optional => exact .nil

/-- What is found of the attributes that a test picks is about their places. -/
theorem shows_where (code path : String) (r : Resource) (test : Pair × String → Bool) :
    List.Forall₂ (Shows code path r) ((placesWhere test r).map .pair)
      (((attributesOf r).filter test).map fun x => Finding.of code (.pair x.1) path) := by
  rw [attributesOf_eq, placesWhere]
  have hplaces : ∀ place ∈ places r, (attributeAt? r place).isSome := fun _ => mem_places.1
  generalize places r = ps at hplaces
  induction ps with
  | nil => exact .nil
  | cons place ps ih =>
    obtain ⟨hplace, hps⟩ := List.forall_mem_cons.1 hplaces
    obtain ⟨x, hx⟩ := Option.isSome_iff_exists.1 hplace
    rw [List.filterMap_cons_some hx, List.filter_cons, List.filter_cons, hx, Option.any_some]
    split
    · refine .cons ⟨_, ?_, .inl rfl⟩ (ih hps)
      rw [Spot.element?, hx]
      rfl
    · exact ih hps

/-- What is found of violating attributes is about their places. -/
theorem shows_values (code path : String) (rules : List PolicyRule) (r : Resource) :
    List.Forall₂ (Shows code path r) ((violating rules r).map .pair)
      (((attributesOf r).filter fun x => rules.any (violates · r x.1 x.2)).map
        fun x => Finding.of code (.pair x.1) path) :=
  shows_where code path r _

/-- What the rules find about the existence of their attributes is about what they report. -/
theorem shows_existences (code path : String) (rules : List PolicyRule) (r : Resource) :
    List.Forall₂ (Shows code path r) (rules.flatMap (existenceSpots r))
      (rules.flatMap (existence code path r)) := by
  induction rules with
  | nil => exact .nil
  | cons rule rules ih => exact List.rel_append (shows_existence code path r rule) ih

/-! ## The union over the rules -/

/-- An attribute is among the picked ones if it passes the test. -/
theorem mem_placesWhere {test : Pair × String → Bool} {place : Place} :
    place ∈ placesWhere test r ↔
      ∃ p parent, attributeAt? r place = some (p, parent) ∧ test (p, parent) = true := by
  rw [placesWhere, List.mem_filter, mem_places]
  cases attributeAt? r place with
  | none => simp
  | some x => simp [Prod.ext_iff]

/-- The picked attributes are listed in increasing order. -/
theorem placesWhere_increasing (test : Pair × String → Bool) (r : Resource) :
    (placesWhere test r).Pairwise (· < ·) :=
  (places_increasing r).filter _

/-- An attribute is reported for its value if it violates some rule. -/
theorem mem_violating {place : Place} : place ∈ violating rules r ↔
    ∃ p parent, attributeAt? r place = some (p, parent) ∧
      ∃ rule ∈ rules, violates rule r p parent = true := by
  have hpicked : violating rules r = placesWhere (fun x => rules.any (violates · r x.1 x.2)) r := rfl
  simp only [hpicked, mem_placesWhere, List.any_eq_true]

/-- A table reports what one of its rules reports. -/
theorem mem_reports {spot : Spot} :
    spot ∈ reports rules r ↔ ∃ rule ∈ rules, spot ∈ reports [rule] r := by
  simp only [reports, List.mem_append, List.mem_flatMap, List.mem_map, mem_violating,
    List.mem_singleton, exists_eq_left, and_or_left, exists_or]
  refine or_congr_right ?_
  constructor
  · rintro ⟨place, ⟨p, parent, hp, rule, hrule, hviolates⟩, rfl⟩
    exact ⟨rule, hrule, place, ⟨p, parent, hp, hviolates⟩, rfl⟩
  · rintro ⟨rule, hrule, place, ⟨p, parent, hp, hviolates⟩, rfl⟩
    exact ⟨place, ⟨p, parent, hp, rule, hrule, hviolates⟩, rfl⟩

/-- A table finds what one of its rules finds. -/
theorem mem_evaluate {f : Finding} : f ∈ evaluate code rules r path ↔
    ∃ rule ∈ rules, f ∈ evaluate code [rule] r path := by
  simp only [evaluate, List.mem_append, List.mem_flatMap, List.mem_map, List.mem_filter,
    List.any_eq_true, List.mem_singleton, exists_eq_left, and_or_left, exists_or]
  refine or_congr_right ?_
  constructor
  · rintro ⟨x, ⟨hx, rule, hrule, hviolates⟩, rfl⟩
    exact ⟨rule, hrule, x, ⟨hx, hviolates⟩, rfl⟩
  · rintro ⟨rule, hrule, x, ⟨hx, hviolates⟩, rfl⟩
    exact ⟨x, ⟨hx, rule, hrule, hviolates⟩, rfl⟩

/-- A table with more rules reports no less. -/
theorem reports_subset (h : rules ⊆ rules') : reports rules r ⊆ reports rules' r := by
  intro spot hspot
  obtain ⟨rule, hrule, hspot⟩ := mem_reports.1 hspot
  exact mem_reports.2 ⟨rule, h hrule, hspot⟩

/-! ## Attributes that no rule is about -/

/-- The attribute that a search finds has the name that is asked for. -/
theorem name_of_firstIn {name : String} {p : Pair} : ∀ {path : List String} {ps : List Pair},
    firstIn name path ps = some p → p.name = name
  | [], ps, h => by simpa using List.find?_some h
  | block :: path, ps, h => by
    obtain ⟨q, -, hq⟩ := List.exists_of_findSome?_eq_some h
    split at hq
    · exact name_of_firstIn hq
    · cases hq

/-- An attribute that is reported for its existence is one that a rule forbids. -/
theorem forbidden_of_mem {place : Place} (h : .pair place ∈ existenceSpots r rule) :
    rule.requirement = .forbidden ∧
      ∃ p parent, attributeAt? r place = some (p, parent) ∧ p.name = rule.attr := by
  unfold existenceSpots at h
  split at h
  · cases h
  have hfirst := located_firstIn rule.attr (blockPath rule.parents) "" r.attributes
  have hname (p : Pair) (hfound : firstIn rule.attr (blockPath rule.parents) r.attributes = some p) :
      p.name = rule.attr := name_of_firstIn hfound
  generalize firstPlace? rule.attr (blockPath rule.parents) r.attributes = place? at hfirst h
  generalize firstIn rule.attr (blockPath rule.parents) r.attributes = found at hfirst hname
  cases hrequirement : rule.requirement with
  | required => cases hfirst <;> simp [hrequirement] at h
  | optional => cases hfirst <;> simp [hrequirement] at h
  | forbidden =>
    cases hfirst with
    | none => simp [hrequirement] at h
    | @some place' p parent hplace =>
      rw [hrequirement] at h
      cases List.mem_singleton.1 h
      exact ⟨rfl, p, parent, hplace, hname p rfl⟩

/-- An attribute is not reported if the rules of its name neither forbid it nor look at its value. -/
theorem notMem_reports {place : Place} {p : Pair} {parent : String}
    (hp : attributeAt? r place = some (p, parent))
    (hrules : ∀ rule ∈ rules, rule.attr = p.name →
      acceptsAll rule = true ∧ rule.requirement ≠ .forbidden) :
    .pair place ∉ reports rules r := by
  intro hmem
  rcases List.mem_append.1 hmem with hmem | hmem
  · obtain ⟨rule, hrule, hspot⟩ := List.mem_flatMap.1 hmem
    obtain ⟨hforbidden, q, around, hq, hname⟩ := forbidden_of_mem hspot
    cases hp.symm.trans hq
    exact (hrules rule hrule hname.symm).2 hforbidden
  · obtain ⟨place', hplace, heq⟩ := List.mem_map.1 hmem
    cases heq
    obtain ⟨q, around, hq, rule, hrule, hviolates⟩ := mem_violating.1 hplace
    cases hp.symm.trans hq
    simp only [violates, Bool.and_eq_true, beq_iff_eq, Bool.not_eq_true'] at hviolates
    obtain ⟨⟨⟨⟨⟨hname, -⟩, -⟩, -⟩, haccepts⟩, -⟩ := hviolates.1
    rw [(hrules rule hrule hname.symm).1] at haccepts
    cases haccepts

/-! ## The whole of a table -/

/-- The check of a resource finds what its table finds, and behind that what it looks at besides. -/
theorem check_table {name code path : String} {tableOf : PolicyConfig → List PolicyRule}
    {extra : ResourceCheck} {config : Config} {c : Context} {more : List Finding}
    (h : extra config c r path = some more) :
    (table name code tableOf extra).check config c (.resource r) path =
      some (evaluate code (tableOf config.policy) r path ++ more) := by
  unfold table register tableChecker
  simp only [h]
  rfl

/-- What a table reports of a resource is the union of what its rules report, and so are its findings,
which are about this one by one. Order and repetition of the rules make no difference, and a rule that
is added takes nothing away. Of the attributes whose value violates a rule, each is reported once,
depth first. -/
theorem table_is_union (rules : List PolicyRule) (r : Resource) (code path : String) :
    (∀ spot, spot ∈ reports rules r ↔ ∃ rule ∈ rules, spot ∈ reports [rule] r) ∧
    (∀ f, f ∈ evaluate code rules r path ↔ ∃ rule ∈ rules, f ∈ evaluate code [rule] r path) ∧
    (∀ rules', (∀ rule, rule ∈ rules' ↔ rule ∈ rules) →
      ∀ spot, spot ∈ reports rules' r ↔ spot ∈ reports rules r) ∧
    (∀ rules', rules ⊆ rules' → reports rules r ⊆ reports rules' r ∧
      evaluate code rules r path ⊆ evaluate code rules' r path) ∧
    (∃ existing values, evaluate code rules r path = existing ++ values ∧
      List.Forall₂ (Shows code path r) (rules.flatMap (existenceSpots r)) existing ∧
      List.Forall₂ (Shows code path r) ((violating rules r).map .pair) values) ∧
    (violating rules r).Pairwise (· < ·) ∧
    ∀ place, place ∈ violating rules r ↔ ∃ p parent, attributeAt? r place = some (p, parent) ∧
      ∃ rule ∈ rules, violates rule r p parent = true := by
  refine ⟨fun _ => mem_reports, fun _ => mem_evaluate, fun rules' hsame spot => ?_, fun rules' hsub => ?_,
    ⟨_, _, rfl, shows_existences code path rules r, shows_values code path rules r⟩,
    (places_increasing r).filter _, fun _ => mem_violating⟩
  · exact ⟨fun h => reports_subset (fun rule => (hsame rule).1) h,
      fun h => reports_subset (fun rule => (hsame rule).2) h⟩
  · refine ⟨reports_subset hsub, fun f hf => ?_⟩
    obtain ⟨rule, hrule, hf⟩ := mem_evaluate.1 hf
    exact mem_evaluate.2 ⟨rule, hsub hrule, hf⟩

/-- A port in a block of a resource. -/
def portIn (block port : String) : Pair :=
  ⟨.nowhere, .attr, block, .absent, false,
    [⟨.nowhere, .attr, "port", .string .nowhere port, false, []⟩]⟩

/-- Two blocks look the same, and the port in each violates two rules: each port is reported once,
behind the resource, which lacks a name. In another order the rules report the same. -/
theorem table_is_union_ports :
    let r : Resource := ⟨.nowhere, .absent, "server", [portIn "rule" "22", portIn "rule" "22"], []⟩
    let port (value : String) : PolicyRule :=
      { types := ["server"], attr := "port", parents := ["rule"], values := [value] }
    let name : PolicyRule := { types := ["server"], attr := "name", requirement := .required }
    let rules := [port "80", name, port "443"]
    let rules' := [port "443", name, port "80", name]
    reports rules r = [.resource, .pair [0, 0], .pair [1, 0]] ∧
      (∀ rule, rule ∈ rules' ↔ rule ∈ rules) ∧
      ∀ spot, spot ∈ reports rules' r ↔ spot ∈ reports rules r := by
  intro r port name rules rules'
  have hsame (rule : PolicyRule) : rule ∈ rules' ↔ rule ∈ rules := by
    simp only [rules, rules', List.mem_cons, List.not_mem_nil, or_false]
    tauto
  exact ⟨by decide +kernel, hsame, (table_is_union rules r "" "").2.2.1 rules' hsame⟩

end InfraSmells.Policy
