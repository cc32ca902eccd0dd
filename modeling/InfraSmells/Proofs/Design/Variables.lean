import InfraSmells.Design.Structure
import InfraSmells.Proofs.Tree.Occurrences
import InfraSmells.Proofs.Tree.Scopes
import Mathlib.Algebra.GroupWithZero.Nat

/-!
# Whose variables are counted

The variables of a block are those it declares itself, in its list and in its statements, and those
counted for the blocks that stand among these statements (`Design.countBlock_eq`). So what a block
holds counts for the blocks around it as far as only statements lead to it, and no further: not
behind a list of nested blocks, nor among the statements of a listed resource
(`Design.Swapped.count`). What a block among statements declares is counted for two blocks
(`Design.inner_variable_counted_twice`).
-/

namespace InfraSmells

/-! ## Blocks among statements -/

mutual

/-- The blocks among the statements of an element, or the element itself if it is a block. -/
def Element.outermost : Element → List Block
  | .block b => [b]
  | .resource r => r.outermost
  | .expr (.conditional head rest) => head.outermost ++ outermostInBranches rest
  | .expr _ | .pair _ | .dependency _ | .comment _ | .project _ | .module _ => []

/-- The blocks among statements that are not in another one of these. -/
def outermostIn : List Element → List Block
  | [] => []
  | s :: ss => s.outermost ++ outermostIn ss

/-- The blocks among the statements of a resource. -/
def Resource.outermost : Resource → List Block
  | ⟨_, _, _, _, statements⟩ => outermostIn statements

/-- The blocks among the statements of a branch. -/
def Branch.outermost : Branch → List Block
  | ⟨_, _, _, _, statements⟩ => outermostIn statements

/-- The blocks among the statements of branches. -/
def outermostInBranches : List Branch → List Block
  | [] => []
  | b :: bs => b.outermost ++ outermostInBranches bs

end

namespace Design

/-- What is declared by names and what is counted for blocks, together. -/
def counted (names : List String) (blocks : List Block) : Nat :=
  names.length + (blocks.map countBlock).sum

theorem counted_append (names names' : List String) (blocks blocks' : List Block) :
    counted (names ++ names') (blocks ++ blocks') =
      counted names blocks + counted names' blocks' := by
  simp only [counted, List.length_append, List.map_append, List.sum_append]
  omega

mutual

/-- An element counts with the names it declares and with its blocks. -/
theorem countVariables_eq : ∀ e : Element, countVariables e = counted e.declared e.outermost
  | .block b => by
    rw [countVariables, Element.declared, Element.outermost, counted, List.map_singleton,
      List.sum_singleton, List.length_nil, Nat.zero_add]
  | .resource r => by
    rw [countVariables, countResource_eq r, Element.declared, Element.outermost]
  | .pair p => by
    rw [countVariables, Element.declared, Element.outermost]
    split <;> rfl
  | .expr (.conditional head rest) => by
    rw [countVariables, countExpr, countBranch_eq head, countBranches_eq rest, Element.declared,
      Element.outermost, counted_append]
  | .expr .absent | .expr (.string ..) | .expr (.number ..) | .expr (.boolean ..)
  | .expr (.null _) | .expr (.array ..) | .expr (.hash ..) | .expr (.reference ..)
  | .expr (.call ..) | .expr (.methodCall ..) | .expr (.unary ..) | .expr (.binary ..)
  | .dependency _ | .comment _ | .project _ | .module _ => rfl

/-- Statements count with the names they declare and with their blocks. -/
theorem countStatements_eq : ∀ ss : List Element,
    countStatements ss = counted (declaredIn ss) (outermostIn ss)
  | [] => rfl
  | s :: ss => by
    rw [countStatements, countVariables_eq s, countStatements_eq ss, declaredIn, outermostIn,
      counted_append]

/-- A resource counts with its statements. -/
theorem countResource_eq : ∀ r : Resource, countResource r = counted r.declared r.outermost
  | ⟨_, _, _, _, statements⟩ => countStatements_eq statements

/-- A branch counts with its statements. -/
theorem countBranch_eq : ∀ b : Branch, countBranch b = counted b.declared b.outermost
  | ⟨_, _, _, _, statements⟩ => countStatements_eq statements

/-- Branches count with their statements. -/
theorem countBranches_eq : ∀ bs : List Branch,
    countBranches bs = counted (declaredInBranches bs) (outermostInBranches bs)
  | [] => rfl
  | b :: bs => by
    rw [countBranches, countBranch_eq b, countBranches_eq bs, declaredInBranches,
      outermostInBranches, counted_append]

end

/-- The variables that a block declares itself, in its list and in its statements. -/
def ownVariables (b : Block) : Nat :=
  b.vars.length + (declaredIn b.statements).length

/-- A block counts with its list of variables and with its statements. -/
theorem countVariables_block (b : Block) :
    countVariables (.block b) = b.vars.length + countStatements b.statements := by
  cases b
  rfl

/-- A block counts with its own variables and with the blocks among its statements. -/
theorem countBlock_eq (b : Block) :
    countBlock b = ownVariables b + ((outermostIn b.statements).map countBlock).sum := by
  have hblock : countBlock b = b.vars.length + countStatements b.statements :=
    countVariables_block b
  rw [hblock, countStatements_eq, counted, ownVariables, Nat.add_assoc]

/-! ## Other blocks in a place -/

/-- The second element is the first one with `d'` in the place of the block `d`, which stands in it
or is the element itself. The Boolean tells whether only statements lead to the place. -/
inductive Swapped (d d' : Block) : Bool → Element → Element → Prop
  | here : Swapped d d' true (.block d) (.block d')
  | statement {through : Bool} {s s' : Element} {b : Block} (before after : List Element)
      (hb : b.statements = before ++ s :: after) (h : Swapped d d' through s s') :
      Swapped d d' through (.block b) (.block { b with statements := before ++ s' :: after })
  | nested {through : Bool} {n n' : Block} {b : Block} (before after : List Block)
      (hb : b.blocks = before ++ n :: after) (h : Swapped d d' through (.block n) (.block n')) :
      Swapped d d' false (.block b) (.block { b with blocks := before ++ n' :: after })
  | listed {through : Bool} {r r' : Resource} {b : Block} (before after : List Resource)
      (hb : b.resources = before ++ r :: after)
      (h : Swapped d d' through (.resource r) (.resource r')) :
      Swapped d d' false (.block b) (.block { b with resources := before ++ r' :: after })
  | resource {through : Bool} {s s' : Element} {r : Resource} (before after : List Element)
      (hr : r.statements = before ++ s :: after) (h : Swapped d d' through s s') :
      Swapped d d' through (.resource r)
        (.resource { r with statements := before ++ s' :: after })
  | branch {through : Bool} {s s' : Element} {c : Branch} (before after : List Element)
      (cs : List Branch) (hc : c.statements = before ++ s :: after)
      (h : Swapped d d' through s s') :
      Swapped d d' through (.expr (.conditional c cs))
        (.expr (.conditional { c with statements := before ++ s' :: after } cs))
  | elseBranch {through : Bool} {s s' : Element} {c : Branch} {cs : List Branch}
      (before after : List Element) (first : Branch) (earlier later : List Branch)
      (hcs : cs = earlier ++ c :: later) (hc : c.statements = before ++ s :: after)
      (h : Swapped d d' through s s') :
      Swapped d d' through (.expr (.conditional first cs))
        (.expr (.conditional first
          (earlier ++ { c with statements := before ++ s' :: after } :: later)))

theorem countVariables_resource (r : Resource) :
    countVariables (.resource r) = countStatements r.statements := by
  cases r
  rfl

theorem countBranch_statements (c : Branch) : countBranch c = countStatements c.statements := by
  cases c
  rfl

theorem countStatements_append (ss ts : List Element) :
    countStatements (ss ++ ts) = countStatements ss + countStatements ts := by
  induction ss with
  | nil => simp [countStatements]
  | cons s ss ih => rw [List.cons_append, countStatements, countStatements, ih, Nat.add_assoc]

theorem countBranches_append (bs cs : List Branch) :
    countBranches (bs ++ cs) = countBranches bs + countBranches cs := by
  induction bs with
  | nil => simp [countBranches]
  | cons b bs ih => rw [List.cons_append, countBranches, countBranches, ih, Nat.add_assoc]

/-- Along statements a count changes by what the swapped blocks count, elsewhere it stays. -/
theorem Swapped.count {d d' : Block} {through : Bool} {e e' : Element}
    (h : Swapped d d' through e e') :
    countVariables e + (if through then countBlock d' else 0) =
      countVariables e' + (if through then countBlock d else 0) := by
  induction h with
  | here => exact Nat.add_comm ..
  | statement before after hb _ ih =>
    simp only [countVariables_block, hb, countStatements_append, countStatements]
    omega
  | nested | listed => simp only [countVariables_block, Bool.false_eq_true, if_false]
  | resource before after hr _ ih =>
    simp only [countVariables_resource, hr, countStatements_append, countStatements]
    omega
  | branch before after cs hc _ ih =>
    simp only [countVariables, countExpr, countBranch_statements, hc, countStatements_append,
      countStatements]
    omega
  | elseBranch before after first earlier later hcs hc _ ih =>
    simp only [countVariables, countExpr, hcs, countBranches_append, countBranches,
      countBranch_statements, hc, countStatements_append, countStatements]
    omega

/-- A swap in a child is one in the element around it. -/
theorem Swapped.exists_parent {d d' : Block} {through : Bool} {c c' e : Element}
    (h : Swapped d d' through c c') (hc : c ∈ e.children) (he : e.isChecked = true) :
    ∃ through' e', Swapped d d' through' e e' := by
  cases e with
  | block b =>
    simp only [Element.children, List.mem_append, List.mem_map, List.mem_filter] at hc
    rcases hc with (((((⟨r, hr, rfl⟩ | ⟨x, -, rfl⟩) | ⟨x, -, rfl⟩) | ⟨x, -, rfl⟩) | ⟨hs, -⟩) |
      ⟨x, -, rfl⟩) | ⟨n, hn, rfl⟩
    · obtain ⟨before, after, hsplit⟩ := List.append_of_mem hr
      cases h with
      | resource inBefore inAfter hr h =>
        exact ⟨_, _, .listed before after hsplit (.resource inBefore inAfter hr h)⟩
    · cases h
    · cases h
    · cases h
    · obtain ⟨before, after, hsplit⟩ := List.append_of_mem hs
      exact ⟨_, _, .statement before after hsplit h⟩
    · cases h
    · obtain ⟨before, after, hsplit⟩ := List.append_of_mem hn
      obtain ⟨n', rfl⟩ : ∃ n', c' = .block n' := by cases h <;> exact ⟨_, rfl⟩
      exact ⟨_, _, .nested before after hsplit h⟩
  | resource r =>
    simp only [Element.children, List.mem_append, List.mem_map, List.mem_filter] at hc
    rcases hc with ⟨x, -, rfl⟩ | ⟨hs, -⟩
    · cases h
    · obtain ⟨before, after, hsplit⟩ := List.append_of_mem hs
      exact ⟨_, _, .resource before after hsplit h⟩
  | pair p =>
    simp only [Element.children, List.mem_map] at hc
    obtain ⟨x, -, rfl⟩ := hc
    cases h
  | expr x =>
    cases x with
    | conditional first cs =>
      simp only [Element.children, List.mem_filter, List.mem_flatMap, List.mem_cons] at hc
      obtain ⟨⟨b, rfl | hb, hs⟩, -⟩ := hc
      · obtain ⟨before, after, hsplit⟩ := List.append_of_mem hs
        exact ⟨_, _, .branch before after cs hsplit h⟩
      · obtain ⟨before, after, hsplit⟩ := List.append_of_mem hs
        obtain ⟨earlier, later, hbranches⟩ := List.append_of_mem hb
        exact ⟨_, _, .elseBranch before after first earlier later hbranches hsplit h⟩
    | _ => cases hc
  | dependency | comment => cases hc
  | project | module => cases he

/-- Every block in an element stands in a place where another one can stand. -/
theorem exists_swapped {d : Block} (d' : Block) {e : Element} (h : Element.Within (.block d) e)
    (he : e.isChecked = true) : ∃ through e', Swapped d d' through e e' := by
  generalize hd : Element.block d = inner at h
  induction h with
  | refl =>
    subst hd
    exact ⟨_, _, .here⟩
  | child hc _ ih =>
    obtain ⟨_, _, hswapped⟩ := ih (Element.isChecked_of_mem_children hc he)
    exact hswapped.exists_parent hc he

/-- A block counts with its own variables and with the blocks among its statements. So a block in it
counts as far as only statements lead there, and an empty block in its place changes nothing exactly
if another list leads there too or nothing is counted for it. -/
theorem counted_along_statements (b : Block) :
    countBlock b = ownVariables b + ((outermostIn b.statements).map countBlock).sum ∧
      (∀ d, Element.Within (.block d) (.block b) → ∀ d', ∃ through b',
        Swapped d d' through (.block b) (.block b')) ∧
      ∀ d d' through b', Swapped d d' through (.block b) (.block b') →
        countBlock b + (if through then countBlock d' else 0) =
            countBlock b' + (if through then countBlock d else 0) ∧
          (d'.vars = [] → d'.statements = [] →
            (countBlock b' = countBlock b ↔ through = false ∨ countBlock d = 0)) := by
  refine ⟨countBlock_eq b, fun d hd d' => ?_, fun d d' through b' h => ?_⟩
  · obtain ⟨through, e', hswapped⟩ := exists_swapped d' hd rfl
    obtain ⟨b', rfl⟩ : ∃ b', e' = .block b' := by cases hswapped <;> exact ⟨_, rfl⟩
    exact ⟨through, b', hswapped⟩
  · have hcount := h.count
    rw [countVariables, countVariables] at hcount
    refine ⟨hcount, fun hvars hstatements => ?_⟩
    have hempty : countBlock d' = 0 := by
      rw [countBlock_eq, ownVariables, hvars, hstatements]
      rfl
    rw [hempty] at hcount
    cases through with
    | false => exact iff_of_true hcount.symm (.inl rfl)
    | true =>
      simp only [if_true, Bool.true_eq_false, false_or] at hcount ⊢
      omega

/-- A variable without a value. -/
def unset (name : String) : Pair :=
  ⟨.nowhere, .var, name, .absent, false, []⟩

/-- A block with variables, statements and nested blocks. -/
def declaring (name : String) (vars : List String) (statements : List Element)
    (blocks : List Block) : Block :=
  ⟨.nowhere, name, .script, "site.yml", [], vars.map unset, [], [], statements, [], blocks⟩

/-- A conditional that declares `z` in its else branch, which also holds a block. -/
def elseWith (d : Block) : Element :=
  .expr (.conditional ⟨.nowhere, .absent, .ifChain, false, []⟩
    [⟨.nowhere, .absent, .ifChain, true, [.pair (unset "z"), .block d]⟩])

/-- A block with two variables counts where it stands in an else branch, and not where it is nested.
-/
theorem counted_along_statements_else :
    let inner := declaring "inner" ["x", "y"] [] []
    let empty := declaring "inner" [] [] []
    let outer := declaring "outer" ["v"] [elseWith inner] [inner]
    let behind := declaring "outer" ["v"] [elseWith empty] [inner]
    let below := declaring "outer" ["v"] [elseWith inner] [empty]
    Swapped inner empty true (.block outer) (.block behind) ∧
      countBlock behind + 2 = countBlock outer ∧
      Swapped inner empty false (.block outer) (.block below) ∧
      countBlock below = countBlock outer := by
  intro inner empty outer behind below
  have hbehind : Swapped inner empty true (.block outer) (.block behind) :=
    .statement [] [] rfl (.elseBranch [.pair (unset "z")] [] _ [] [] rfl rfl .here)
  have hbelow : Swapped inner empty false (.block outer) (.block below) :=
    .nested [] [] rfl .here
  obtain ⟨-, -, hswap⟩ := counted_along_statements outer
  have hcount := (hswap inner empty true behind hbehind).1
  have hsame := ((hswap inner empty false below hbelow).2 rfl rfl).2 (.inl rfl)
  exact ⟨hbehind, hcount.symm, hbelow, hsame⟩

/-- A block that is not meant for variables is reported if there are more than three for ten lines. -/
theorem tooManyVariables_eq (c : Context) (b : Block) (path : String) :
    tooManyVariables false c (.block b) path =
      if b.type ≠ .vars ∧ 3 * max c.lines.length 1 < 10 * countBlock b then
        [Finding.of "implementation_too_many_variables" (.block b) path]
      else [] := by
  simp [tooManyVariables]

/-- The variable of a block among statements is counted for two blocks, and both are reported for it.
-/
theorem inner_variable_counted_twice :
    let inner := declaring "inner" ["x"] [] []
    let empty := declaring "inner" [] [] []
    let outer (d : Block) := declaring "outer" [] [.block d] []
    Swapped inner empty true (.block (outer inner)) (.block (outer empty)) ∧
      countBlock inner = 1 ∧ countBlock (outer inner) = 1 ∧ countBlock (outer empty) = 0 ∧
      tooManyVariables false default (.block inner) "site.yml" ≠ [] ∧
      tooManyVariables false default (.block (outer inner)) "site.yml" ≠ [] ∧
      tooManyVariables false default (.block (outer empty)) "site.yml" = [] := by
  intro inner empty outer
  refine ⟨.statement [] [] rfl .here, rfl, rfl, rfl, ?_, ?_, ?_⟩
  · rw [tooManyVariables_eq, if_pos (by decide)]
    exact List.cons_ne_nil _ _
  · rw [tooManyVariables_eq, if_pos (by decide)]
    exact List.cons_ne_nil _ _
  · rw [tooManyVariables_eq, if_neg (by decide)]

end Design

end InfraSmells
