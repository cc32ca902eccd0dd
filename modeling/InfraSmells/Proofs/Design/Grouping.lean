import InfraSmells.Design.Structure
import Mathlib.Data.Multiset.Filter
import Mathlib.Algebra.Order.Field.Rat
import Mathlib.Tactic.NormNum

/-!
# Resources count wherever they stand

How the resources of a block are spread over the blocks nested in it, and in which order, does not
matter to the judgement whether they run commands too often. What the blocks of a tree hold is a
multiset of kinds of resources (`Block.kinds`). The count of a block is read off this multiset
(`Design.tally_eq_kinds`), and so is the verdict (`Design.judged_by_kinds`).
-/

namespace InfraSmells

mutual

/-- A block and the blocks nested in it, at any depth. -/
def Block.tree : Block → List Block
  | ⟨span, name, type, path, resources, vars, attributes, dependencies, statements, comments,
      blocks⟩ =>
    ⟨span, name, type, path, resources, vars, attributes, dependencies, statements, comments,
      blocks⟩ :: treesOf blocks

/-- Several blocks and the blocks nested in them. -/
def treesOf : List Block → List Block
  | [] => []
  | b :: bs => b.tree ++ treesOf bs

end

/-- The types of the resources that stand in a block or in one nested in it, each as often as there
are resources of it. -/
def Block.kinds (b : Block) : Multiset String :=
  (b.tree.flatMap (·.resources)).map (·.type)

namespace Design

variable (config : Config)

/-! ## The count -/

/-- Resources in a list, counted. -/
def Tally.of (rs : List Resource) : Tally :=
  ⟨rs.length, rs.countP fun r => config.isExec r.type⟩

/-- Counts of two lists are added. -/
theorem Tally.of_append (rs ss : List Resource) :
    Tally.of config (rs ++ ss) = Tally.of config rs + Tally.of config ss := by
  rw [Tally.of, List.length_append, List.countP_append]
  rfl

/-- The count of several blocks is that of all resources in their trees, if it is for each of them.
-/
theorem tallyAll_eq {bs : List Block}
    (h : ∀ b ∈ bs, tally config b = Tally.of config (b.tree.flatMap (·.resources))) :
    tallyAll config bs = Tally.of config ((treesOf bs).flatMap (·.resources)) := by
  induction bs with
  | nil => rfl
  | cons b bs ih =>
    obtain ⟨hb, hbs⟩ := List.forall_mem_cons.1 h
    rw [tallyAll, hb, ih hbs, treesOf, List.flatMap_append, Tally.of_append]

/-- The count of a block is that of all resources in its tree. -/
theorem tally_eq (b : Block) :
    tally config b = Tally.of config (b.tree.flatMap (·.resources)) := by
  cases b with
  | mk _ _ _ _ resources _ _ _ _ _ blocks =>
    have hblocks := tallyAll_eq config fun n (hn : n ∈ blocks) => tally_eq n
    rw [tally, hblocks, Block.tree, List.flatMap_cons, Tally.of_append]
    rfl
termination_by sizeOf b
decreasing_by
  have hlt := List.sizeOf_lt_of_mem hn
  rw [Block.mk.sizeOf_spec]
  omega

/-- The count of a block is read off the kinds of its resources. -/
theorem tally_eq_kinds (b : Block) :
    tally config b = ⟨b.kinds.card, b.kinds.countP (config.isExec · = true)⟩ := by
  rw [tally_eq, Tally.of, Block.kinds, Multiset.coe_card, Multiset.coe_countP, List.length_map,
    List.countP_map]
  simp only [Bool.decide_eq_true, Function.comp_def]

/-! ## The verdict -/

variable {config}

/-- A share of more than one in five, where there is something to share. -/
theorem fifth_lt_div_iff {all execs : Nat} (h : 0 < all) :
    (1 / 5 : ℚ) < execs / all ↔ all < 5 * execs := by
  have hall : (0 : ℚ) < all := by exact_mod_cast h
  rw [div_lt_div_iff₀ (by norm_num) hall, one_mul, mul_comm (execs : ℚ)]
  exact_mod_cast Iff.rfl

/-- What runs commands is among what there is. -/
theorem execs_le_all (b : Block) : (tally config b).execs ≤ (tally config b).all := by
  rw [tally_eq_kinds]
  exact Multiset.countP_le_card (config.isExec · = true) b.kinds

/-- A block is reported if more than two resources, and more than one in five, run commands. -/
theorem imperativeAbstraction_eq (c : Context) (b : Block) (path : String) :
    imperativeAbstraction config c (.block b) path =
      if 2 < (tally config b).execs ∧ (tally config b).all < 5 * (tally config b).execs then
        [Finding.of "design_imperative_abstraction" (.block b) path]
      else [] := by
  simp only [imperativeAbstraction, Bool.and_eq_true, decide_eq_true_eq]

/-- The count of a block holds the number of the resources in its tree and of those that run
commands. The share of these is only asked for where there are resources. Two blocks with the same
kinds of resources in their trees, each the same number of times, are both reported or neither is. -/
theorem judged_by_kinds (config : Config) (b : Block) :
    tally config b = ⟨b.kinds.card, b.kinds.countP (config.isExec · = true)⟩ ∧
      (2 < (tally config b).execs → 0 < (tally config b).all) ∧
      (∀ c path, imperativeAbstraction config c (.block b) path ≠ [] ↔
        2 < (tally config b).execs ∧
          (1 / 5 : ℚ) < (tally config b).execs / (tally config b).all) ∧
      ∀ b', b'.kinds = b.kinds → ∀ c c' path path',
        imperativeAbstraction config c (.block b) path =
              [Finding.of "design_imperative_abstraction" (.block b) path] ∧
            imperativeAbstraction config c' (.block b') path' =
              [Finding.of "design_imperative_abstraction" (.block b') path'] ∨
          imperativeAbstraction config c (.block b) path = [] ∧
            imperativeAbstraction config c' (.block b') path' = [] := by
  have hshare : 2 < (tally config b).execs → 0 < (tally config b).all := fun h =>
    (Nat.zero_lt_of_lt h).trans_le (execs_le_all b)
  refine ⟨tally_eq_kinds config b, hshare, fun c path => ?_, fun b' hkinds c c' path path' => ?_⟩
  · have hlist (p : Prop) [Decidable p] (f : Finding) : (if p then [f] else []) ≠ [] ↔ p := by
      split <;> simp [*]
    rw [imperativeAbstraction_eq, hlist]
    exact and_congr_right fun h => (fifth_lt_div_iff (hshare h)).symm
  · have htally : tally config b' = tally config b := by
      rw [tally_eq_kinds, tally_eq_kinds, hkinds]
    rw [imperativeAbstraction_eq, imperativeAbstraction_eq, htally]
    split
    · exact .inl ⟨rfl, rfl⟩
    · exact .inr ⟨rfl, rfl⟩

/-- A configuration in which `execute` runs commands. -/
def executes : Config :=
  { (default : Config) with design := { execTypes := ["execute"] } }

/-- A block with resources of these types and with other blocks. -/
def grouped (types : List String) (blocks : List Block) : Block :=
  ⟨.nowhere, "recipe", .script, "recipe.rb",
    types.map fun type => ⟨.nowhere, .absent, type, [], []⟩, [], [], [], [], [], blocks⟩

/-- Three commands among four resources are reported, in one block or in three. -/
theorem judged_by_kinds_regrouped :
    let flat := grouped ["execute", "execute", "package", "execute"] []
    let deep := grouped [] [grouped ["package"] [grouped ["execute", "execute"] []],
      grouped ["execute"] []]
    deep.kinds = flat.kinds ∧
      imperativeAbstraction executes default (.block flat) "recipe.rb" ≠ [] ∧
      imperativeAbstraction executes default (.block deep) "recipe.rb" ≠ [] := by
  intro flat deep
  have hkinds : deep.kinds = flat.kinds := Multiset.coe_eq_coe.2 (by decide +kernel)
  obtain ⟨-, -, -, halike⟩ := judged_by_kinds executes flat
  have hverdicts := halike deep hkinds default default "recipe.rb" "recipe.rb"
  rcases hverdicts with ⟨hflat, hdeep⟩ | ⟨hflat, -⟩
  · rw [hflat, hdeep]
    exact ⟨hkinds, List.cons_ne_nil _ _, List.cons_ne_nil _ _⟩
  · revert hflat
    decide +kernel

end Design

end InfraSmells
