import InfraSmells.Policy.Lookup
import InfraSmells.Proofs.Text.Parts

/-!
# The first attribute of all

Of the two searches below a path of blocks one lists all attributes of a name and the other stops at
the first. What is listed are the attributes of the name that stand below the path
(`Policy.mem_allIn_iff`), where a block may be written out or generated and may occur several times
(`Policy.Below`). The search that stops finds the head of the list (`Policy.firstIn_eq_head?`): where
it enters a block in which the rest of the path is missing, it goes on behind that block
(`Policy.firstIn_append`).
-/

namespace InfraSmells.Policy

variable {name block : String} {path : List String} {p q : Pair} {ps : List Pair}

/-! ## Below a path of blocks -/

/-- The pair is a block of the name, written out or generated. The mark of generated blocks is no
part of a name: a name that has it stands only for blocks that have it twice. -/
def IsBlock (block : String) (p : Pair) : Prop :=
  p.name = block ∧ Text.startsWith block "dynamic." = false ∨ p.name = "dynamic." ++ block

/-- The attribute stands below a path of blocks: it is one of them where the path is empty, and else
stands below the rest of the path in some block of the first name. -/
inductive Below (p : Pair) : List String → List Pair → Prop
  | here {ps : List Pair} (h : p ∈ ps) : Below p [] ps
  | inside {block : String} {path : List String} {q : Pair} {ps : List Pair} (hq : q ∈ ps)
      (hblock : IsBlock block q) (h : Below p path q.children) : Below p (block :: path) ps

/-- A pair is a block of the name that is left of its own name without the mark. -/
theorem blockName_eq_iff : blockName p = block ↔ IsBlock block p := by
  unfold blockName Text.dropStart Text.dropStart? IsBlock Text.startsWith Text.beginsWith
  cases hmark : Text.afterStart "dynamic.".toList p.name.toList with
  | none =>
    have hother : p.name ≠ "dynamic." ++ block := by
      intro heq
      rw [heq, String.toList_append, Text.afterStart_eq_some_iff.2 rfl] at hmark
      cases hmark
    rw [Option.map_none, Option.getD_none, or_iff_left hother]
    refine ⟨fun heq => ⟨heq, ?_⟩, And.left⟩
    rw [← heq, hmark]
    rfl
  | some rest =>
    have hname := Text.afterStart_eq_some_iff.1 hmark
    have hown : ¬(p.name = block ∧
        (Text.afterStart "dynamic.".toList block.toList).isSome = false) := by
      rintro ⟨heq, hnone⟩
      rw [← heq, hmark] at hnone
      cases hnone
    rw [Option.map_some, Option.getD_some, or_iff_right hown, ← String.toList_inj,
      ← String.toList_inj, String.toList_append, hname, String.toList_ofList,
      List.append_cancel_left_eq]

/-! ## All attributes and the first -/

/-- Listed are the attributes of the name that stand below the path. -/
theorem mem_allIn_iff : ∀ {path : List String} {ps : List Pair},
    p ∈ allIn name path ps ↔ p.name = name ∧ Below p path ps
  | [], ps => by
    rw [allIn, List.mem_filter, beq_iff_eq, and_comm]
    refine and_congr_right fun _ => ⟨.here, ?_⟩
    rintro ⟨h⟩
    exact h
  | block :: path, ps => by
    rw [allIn, List.mem_flatMap]
    constructor
    · rintro ⟨q, hq, hp⟩
      split at hp
      · next hblock =>
        obtain ⟨hname, hbelow⟩ := mem_allIn_iff.1 hp
        exact ⟨hname, .inside hq (blockName_eq_iff.1 (eq_of_beq hblock)) hbelow⟩
      · cases hp
    · rintro ⟨hname, hbelow⟩
      cases hbelow with
      | @inside _ _ q _ hq hblock h =>
        refine ⟨q, hq, ?_⟩
        rw [if_pos (beq_iff_eq.2 (blockName_eq_iff.2 hblock))]
        exact mem_allIn_iff.2 ⟨hname, h⟩

/-- The search that stops finds the head of the list. -/
theorem firstIn_eq_head? (name : String) : ∀ (path : List String) (ps : List Pair),
    firstIn name path ps = (allIn name path ps).head?
  | [], ps => by rw [firstIn, allIn, List.head?_filter]
  | block :: path, ps => by
    rw [firstIn, allIn, List.head?_flatMap]
    congr 1
    funext q
    split
    · exact firstIn_eq_head? name path q.children
    · rfl

/-- Behind other attributes a search goes on if it finds nothing among them. -/
theorem firstIn_append (name : String) (path : List String) (ps qs : List Pair) :
    firstIn name path (ps ++ qs) = (firstIn name path ps).or (firstIn name path qs) := by
  cases path with
  | nil => rw [firstIn, firstIn, firstIn, List.find?_append]
  | cons block path => rw [firstIn, firstIn, firstIn, List.findSome?_append]

/-- A search finds nothing if nothing of the name stands below the path. -/
theorem firstIn_eq_none_iff : firstIn name path ps = none ↔
    ∀ p : Pair, p.name = name → ¬Below p path ps := by
  rw [firstIn_eq_head?, List.head?_eq_none_iff, List.eq_nil_iff_forall_not_mem]
  simp only [mem_allIn_iff, not_and]

/-- Found is the first of all attributes of the name that stand below the path, and nothing exactly
if there are none. Blocks in front in which the rest of the path is missing make no difference. -/
theorem first_of_all (r : Resource) (parents : List String) (name : String) :
    find? r parents name = (findAll r parents name).head? ∧
      (find? r parents name = none ↔ findAll r parents name = []) ∧
      (∀ p, p ∈ findAll r parents name ↔
        p.name = name ∧ Below p (blockPath parents) r.attributes) ∧
      ∀ before after, r.attributes = before ++ after →
        (∀ p : Pair, p.name = name → ¬Below p (blockPath parents) before) →
        find? r parents name = find? { r with attributes := after } parents name := by
  refine ⟨firstIn_eq_head? .., ?_, fun p => mem_allIn_iff, fun before after hsplit hnone => ?_⟩
  · rw [find?, firstIn_eq_head?, List.head?_eq_none_iff]
    rfl
  · rw [find?, hsplit, firstIn_append, firstIn_eq_none_iff.2 hnone, Option.none_or]
    rfl

/-- An attribute with a text as its value. -/
def leaf (name value : String) : Pair :=
  ⟨.nowhere, .attr, name, .string .nowhere value, false, []⟩

/-- A block around attributes. -/
def enclosing (name : String) (children : List Pair) : Pair :=
  ⟨.nowhere, .attr, name, .absent, false, children⟩

/-- A written and a generated block without the attribute do not hide it in the third. -/
theorem first_of_all_third :
    let before := [enclosing "settings" [leaf "public" "no"],
      enclosing "dynamic.settings" [enclosing "network" [], leaf "public" "no"]]
    let third := enclosing "settings" [enclosing "dynamic.network" [leaf "public" "yes"]]
    let r (attributes : List Pair) : Resource :=
      ⟨.nowhere, .absent, "resource.instance", attributes, []⟩
    (∀ p : Pair, p.name = "public" → ¬Below p ["settings", "network"] before) ∧
      (find? (r (before ++ [third])) ["settings", "network"] "public").map (·.value.text) =
        some "yes" := by
  intro before third r
  have hnone : ∀ p : Pair, p.name = "public" → ¬Below p ["settings", "network"] before :=
    firstIn_eq_none_iff.1 (by decide +kernel)
  have hthird : (find? (r [third]) ["settings", "network"] "public").map (·.value.text) =
      some "yes" := by
    decide +kernel
  obtain ⟨-, -, -, hbehind⟩ :=
    first_of_all (r (before ++ [third])) ["settings", "network"] "public"
  exact ⟨hnone, (congrArg _ (hbehind before [third] rfl hnone)).trans hthird⟩

end InfraSmells.Policy
