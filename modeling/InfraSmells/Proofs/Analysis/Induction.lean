import InfraSmells.Analysis.Basic
import InfraSmells.Proofs.Tree.Occurrences

/-!
# Induction over the way through a tree

The functions that go through a tree call each other, one for each kind of element and one for
each kind of list. `Action.Descent` states what has to be shown of the steps they are made of, so
that a property holds of all of them: the property relates an action to the path at which it looks
at elements and to the trees it goes through, each with the path around it, in any order. For many
properties it does not matter how the elements hang together: `Action.Law` is a property of an
action and of the occurrences it is responsible for. `Action.Law.root?` then gives the property of
the whole way through a tree, for the occurrences of `Element.occurrences`.
-/

namespace InfraSmells.Action

variable {fs : FileSystem} {ok : String → Prop}

/-- Nothing is added by doing nothing more. -/
theorem andThen_done (x : Action) : x.andThen done = x := by
  funext a
  unfold andThen
  cases x a with
  | mk b stop => cases stop <;> rfl

/-- How a sequence is put together does not matter. -/
theorem andThen_assoc (x y z : Action) : (x.andThen y).andThen z = x.andThen (y.andThen z) := by
  funext a
  unfold andThen
  cases x a with
  | mk b stop => cases stop <;> rfl

/-! ## Trees -/

/-- The steps of the way through a tree have the property `Q`, at paths that are `ok`: it holds of the
way through an element as soon as it holds of the way through its children. What is done in a block is
done at the path of the block, whatever the path outside. -/
structure Descent (fs : FileSystem) (ok : String → Prop)
    (Q : String → Action → List (String × Element) → Prop) : Prop where
  perm : ∀ {path x l m}, l.Perm m → Q path x l → Q path x m
  done : ∀ {path}, Q path done []
  andThen : ∀ {path x y l m}, Q path x l → Q path y m → Q path (x.andThen y) (l ++ m)
  declare : ∀ {path} names, Q path (change (·.declare names)) []
  among : ∀ {path} scope, Q path (change ({ · with scope := scope })) []
  element : ∀ {path e x}, e.isChecked = true → (∀ b, e ≠ .block b) → e.pathFrom path = path →
    Q path x (e.children.map (path, ·)) → Q path ((visit e path).andThen x) [(path, e)]
  group : ∀ {around e x}, e.isChecked = false →
    Q "" x (e.children.map (e.pathFrom around, ·)) → Q "" x [(around, e)]
  block : ∀ {around path b parts nested l m} outer names, path = (Element.block b).pathFrom around →
    ok path → Q path parts l → Q path nested m →
    (l ++ m).Perm ((Element.block b).children.map (path, ·)) →
    Q outer (entering fs path fun newFile =>
        (change (·.openScope)).andThen <|
        (change (·.declare names)).andThen <|
        (inside newFile parts nested (.block b) path).andThen <|
        change (·.closeScope))
      [(around, .block b)]

namespace Descent

variable {Q : String → Action → List (String × Element) → Prop}

/-- One after the other, what is done for two lists of trees is done for both together. -/
theorem both (h : Descent fs ok Q) {outer around : String} {x y : Action} {es ds : List Element}
    (hx : Q outer x (es.map (around, ·))) (hy : Q outer y (ds.map (around, ·))) :
    Q outer (x.andThen y) ((es ++ ds).map (around, ·)) := by
  rw [List.map_append]
  exact h.andThen hx hy

/-- What is done for every item of a list is done for the trees of all items. -/
theorem each {α : Type} (h : Descent fs ok Q) {f : α → Action} {g : α → Element}
    {outer around : String} : ∀ xs : List α, (∀ x ∈ xs, Q outer (f x) [(around, g x)]) →
      Q outer (Action.each f xs) ((xs.map g).map (around, ·))
  | [], _ => h.done
  | x :: xs, hf => h.andThen (hf x (.head _)) (h.each xs fun y hy => hf y (.tail _ hy))

/-- An element without children is visited, and that is all. -/
theorem leaf (h : Descent fs ok Q) {e : Element} {path : String} (he : e.isChecked = true)
    (hblock : ∀ b, e ≠ .block b) (hpath : e.pathFrom path = path) (hchildren : e.children = []) :
    Q path (Action.visit e path) [(path, e)] := by
  have hdone : Q path Action.done (e.children.map (path, ·)) := by
    rw [hchildren]
    exact h.done
  have := h.element he hblock hpath hdone
  rwa [andThen_done] at this

mutual

/-- The way through a pair. -/
theorem pair (h : Descent fs ok Q) (path : String) :
    ∀ x : Pair, Q path (Action.pair path x) [(path, .pair x)]
  | ⟨_, _, _, _, _, children⟩ =>
    h.element rfl (fun _ => nofun) rfl (h.pairs path children)

/-- The way through pairs. -/
theorem pairs (h : Descent fs ok Q) (path : String) : ∀ xs : List Pair,
    Q path (Action.pairs path xs) ((xs.map Element.pair).map (path, ·))
  | [] => h.done
  | x :: xs => h.andThen (h.pair path x) (h.pairs path xs)

end

/-- The way through the variables of a block, as through pairs. -/
theorem variableList (h : Descent fs ok Q) (path : String) : ∀ xs : List Pair,
    Q path (Action.variableList path xs) ((xs.map Element.pair).map (path, ·))
  | [] => h.done
  | x :: xs => h.andThen (h.andThen (h.declare [x.name]) (h.pair path x)) (h.variableList path xs)

mutual

/-- The way through a block. -/
theorem blockAt (h : Descent fs ok Q) {outer around : String} (ha : ok around) :
    ∀ b : Block, (Element.block b).PathsAre ok → Q outer (Action.block fs around b) [(around, .block b)]
  | ⟨span, name, type, own, resources, vars, attributes, dependencies, statements, comments,
      blocks⟩, hb => by
    obtain ⟨path, hpath⟩ : ∃ path, path = if own = "" then around else own := ⟨_, rfl⟩
    have hok : ok path := by
      rw [hpath]
      split
      · exact ha
      · exact hb _ _ (.refl _) rfl
    have hresources := h.resourceList hok resources
      fun r hr => hb.child (by simp [Element.children, hr])
    have hvars := h.variableList path vars
    have hattributes := h.pairs path attributes
    have hdependencies : Q path _ ((dependencies.map Element.dependency).map (path, ·)) :=
      h.each dependencies fun _ _ => h.leaf rfl (fun _ => nofun) rfl rfl
    have hstatements := h.statementList hok statements
      fun s hs hc => hb.child (by simp [Element.children, hs, hc])
    have hcomments : Q path _ ((comments.map Element.comment).map (path, ·)) :=
      h.each comments fun _ _ => h.leaf rfl (fun _ => nofun) rfl rfl
    have hnested : Q path (Action.blockList fs path blocks) _ :=
      h.blockList hok blocks fun c hc => hb.child (by simp [Element.children, hc])
    have hparts := h.both hresources <| h.both hvars <| h.both hattributes <|
      h.both hdependencies <| h.both hstatements hcomments
    have := h.block (b := ⟨span, name, type, own, resources, vars, attributes, dependencies,
      statements, comments, blocks⟩) outer (attributes.map (·.name)) hpath hok hparts hnested
      (by simp [Element.children])
    subst hpath
    exact this

/-- The way through blocks. -/
theorem blockList (h : Descent fs ok Q) {outer around : String} (ha : ok around) :
    ∀ bs : List Block, (∀ b ∈ bs, (Element.block b).PathsAre ok) →
      Q outer (Action.blockList fs around bs) ((bs.map Element.block).map (around, ·))
  | [], _ => h.done
  | b :: bs, hb =>
    h.andThen (h.blockAt ha b (hb b (.head _))) (h.blockList ha bs fun c hc => hb c (.tail _ hc))

/-- The way through a resource. -/
theorem resource (h : Descent fs ok Q) {path : String} (hp : ok path) :
    ∀ r : Resource, (Element.resource r).PathsAre ok →
      Q path (Action.resource fs path r) [(path, .resource r)]
  | ⟨_, _, _, attributes, statements⟩, hr =>
    h.element rfl (fun _ => nofun) rfl <| h.both (h.pairs path attributes) <|
      h.statementList hp statements fun s hs hc => hr.child (by simp [Element.children, hs, hc])

/-- The way through resources. -/
theorem resourceList (h : Descent fs ok Q) {path : String} (hp : ok path) :
    ∀ rs : List Resource, (∀ r ∈ rs, (Element.resource r).PathsAre ok) →
      Q path (Action.resourceList fs path rs) ((rs.map Element.resource).map (path, ·))
  | [], _ => h.done
  | r :: rs, hr =>
    h.andThen (h.resource hp r (hr r (.head _)))
      (h.resourceList hp rs fun s hs => hr s (.tail _ hs))

/-- The way through a statement, if it is one that is looked at. -/
theorem statement (h : Descent fs ok Q) {path : String} (hp : ok path) :
    ∀ s : Element, (s.isChecked = true → s.PathsAre ok) →
      Q path (Action.statement fs path s) (([s].filter Element.isChecked).map (path, ·))
  | .resource r, hs => h.resource hp r (hs rfl)
  | .pair x, _ => h.andThen (h.declare _) (h.pair path x)
  | .block b, hs => h.blockAt hp b (hs rfl)
  | .dependency _, _ => h.leaf rfl (fun _ => nofun) rfl rfl
  | .comment _, _ => h.leaf rfl (fun _ => nofun) rfl rfl
  | .expr (.conditional head rest), hs => by
    have hhead := h.branch hp head
      fun s hmem hc => (hs rfl).child (by simp [Element.children, hmem, hc])
    have hrest := h.branchList hp rest fun b hb s hmem hc => (hs rfl).child (by
      simp only [Element.children, List.flatMap_cons, List.mem_filter, List.mem_append,
        List.mem_flatMap]
      exact ⟨.inr ⟨b, hb, hmem⟩, hc⟩)
    have hbranches := h.both hhead hrest
    rw [← List.filter_append, ← List.flatMap_cons] at hbranches
    exact h.element rfl (fun _ => nofun) rfl hbranches
  | .expr .absent, _ | .expr (.string ..), _ | .expr (.number ..), _ | .expr (.boolean ..), _
  | .expr (.null _), _ | .expr (.array ..), _ | .expr (.hash ..), _ | .expr (.reference ..), _
  | .expr (.call ..), _ | .expr (.methodCall ..), _ | .expr (.unary ..), _
  | .expr (.binary ..), _ | .project _, _ | .module _, _ => h.done

/-- The way through statements. -/
theorem statementList (h : Descent fs ok Q) {path : String} (hp : ok path) :
    ∀ ss : List Element, (∀ s ∈ ss, s.isChecked = true → s.PathsAre ok) →
      Q path (Action.statementList fs path ss) ((ss.filter Element.isChecked).map (path, ·))
  | [], _ => h.done
  | s :: ss, hs => by
    have := h.both (h.statement hp s (hs s (.head _)))
      (h.statementList hp ss fun t ht => hs t (.tail _ ht))
    rw [← List.filter_append] at this
    exact this

/-- The way through the statements of a branch. -/
theorem branch (h : Descent fs ok Q) {path : String} (hp : ok path) :
    ∀ b : Branch, (∀ s ∈ b.statements, s.isChecked = true → s.PathsAre ok) →
      Q path (Action.branch fs path b) ((b.statements.filter Element.isChecked).map (path, ·))
  | ⟨_, _, _, _, statements⟩, hb => h.statementList hp statements hb

/-- The way through the statements of several branches. -/
theorem branchList (h : Descent fs ok Q) {path : String} (hp : ok path) :
    ∀ bs : List Branch, (∀ b ∈ bs, ∀ s ∈ b.statements, s.isChecked = true → s.PathsAre ok) →
      Q path (Action.branchList fs path bs)
        (((bs.flatMap (·.statements)).filter Element.isChecked).map (path, ·))
  | [], _ => h.done
  | b :: bs, hb => by
    have := h.both (h.branch hp b (hb b (.head _)))
      (h.branchList hp bs fun c hc => hb c (.tail _ hc))
    rw [← List.filter_append] at this
    exact this

end

/-- The way through a block, whichever blocks it sees. -/
theorem blockAmong (h : Descent fs ok Q) {outer around : String} (ha : ok around)
    (scope : List Block) (b : Block) (hb : (Element.block b).PathsAre ok) :
    Q outer (Action.blockAmong fs scope around b) [(around, .block b)] :=
  h.andThen (h.among scope) (h.blockAt ha b hb)

mutual

/-- The way through a module: its blocks, and the modules in it. -/
theorem module (h : Descent fs ok Q) (around : String) :
    ∀ m : Module, (Element.module m).PathsAre ok → Q "" (Action.module fs m) [(around, .module m)]
  | ⟨_, path, blocks, modules⟩, hm => by
    have hpath : ok path := hm _ _ (.refl _) rfl
    have hblocks : Q "" _ ((blocks.map Element.block).map (path, ·)) := h.each blocks
      fun b hb => h.blockAmong hpath blocks b (hm.child (by simp [Element.children, hb]))
    have hmodules := h.moduleList path modules
      fun n hn => hm.child (by simp [Element.children, hn])
    exact h.group rfl (h.both hblocks hmodules)

/-- The way through modules. -/
theorem moduleList (h : Descent fs ok Q) (around : String) :
    ∀ ms : List Module, (∀ m ∈ ms, (Element.module m).PathsAre ok) →
      Q "" (Action.moduleList fs ms) ((ms.map Element.module).map (around, ·))
  | [], _ => h.done
  | m :: ms, hm =>
    h.andThen (h.module around m (hm m (.head _)))
      (h.moduleList around ms fun n hn => hm n (.tail _ hn))

end

/-- The whole way through a tree. -/
theorem root? (h : Descent fs ok Q) (he : ok "") {e : Element} (hp : e.PathsAre ok) {x : Action}
    (hx : Action.root? fs e = some x) : Q "" x [("", e)] := by
  match e with
  | .project p =>
    cases hx
    have hmodules := h.moduleList "" p.modules
      fun m hm => hp.child (by simp [Element.children, hm])
    have hblocks : Q "" _ ((p.blocks.map Element.block).map ("", ·)) := h.each p.blocks
      fun b hb => h.blockAmong he [b] b (hp.child (by simp [Element.children, hb]))
    exact h.group rfl (h.both hmodules hblocks)
  | .module m => cases hx; exact h.module "" m hp
  | .block b => cases hx; exact h.blockAmong he [b] b hp
  | .resource _ | .pair _ | .dependency _ | .comment _ | .expr _ => cases hx

end Descent

/-! ## Occurrences -/

variable {P : String → Action → List (Element × String) → Prop}

/-- The steps of the way through a tree have the property `P`, at paths that are `ok`. What is done in
a block is done at the path of the block, whatever the path around it. -/
structure Law (fs : FileSystem) (ok : String → Prop)
    (P : String → Action → List (Element × String) → Prop) : Prop where
  perm : ∀ {path x l m}, l.Perm m → P path x l → P path x m
  done : ∀ {path}, P path done []
  andThen : ∀ {path x y l m}, P path x l → P path y m → P path (x.andThen y) (l ++ m)
  declare : ∀ {path} names, P path (change (·.declare names)) []
  among : ∀ {path} scope, P path (change ({ · with scope := scope })) []
  visit : ∀ e path, P path (visit e path) [(e, path)]
  block : ∀ {path parts nested l m} outer names e, ok path → P path parts l → P path nested m →
    P outer (entering fs path fun newFile =>
        (change (·.openScope)).andThen <|
        (change (·.declare names)).andThen <|
        (inside newFile parts nested e path).andThen <|
        change (·.closeScope))
      ((e, path) :: (l ++ m))

namespace Law

/-- The occurrences in several trees, each with the path around it. -/
def occurrencesOf (forest : List (String × Element)) : List (Element × String) :=
  forest.flatMap fun t => t.2.occurrences t.1

theorem occurrencesOf_map (around : String) (es : List Element) :
    occurrencesOf (es.map (around, ·)) = Element.occurrencesIn around es :=
  List.flatMap_map ..

theorem occurrencesOf_singleton (around : String) (e : Element) :
    occurrencesOf [(around, e)] = e.occurrences around :=
  List.flatMap_singleton ..

/-- A property of occurrences is one of the trees they stand in. -/
theorem descent (h : Law fs ok P) : Descent fs ok fun path x forest => P path x (occurrencesOf forest)
    where
  perm hperm hx := h.perm (hperm.flatMap_right _) hx
  done := h.done
  andThen {path x y l m} hx hy := by
    rw [occurrencesOf, List.flatMap_append]
    exact h.andThen hx hy
  declare := h.declare
  among := h.among
  element {path e x} he _ hpath hx := by
    rw [occurrencesOf_map] at hx
    rw [occurrencesOf_singleton, Element.occurrences_eq, he, hpath]
    exact h.andThen (h.visit e path) hx
  group {around e x} he hx := by
    rw [occurrencesOf_map] at hx
    rw [occurrencesOf_singleton, Element.occurrences_eq, he]
    exact hx
  block {around path b parts nested l m} outer names hpath hok hparts hnested hall := by
    rw [occurrencesOf_singleton, Element.occurrences_eq, ← hpath, ← occurrencesOf_map]
    refine h.perm ?_ (h.block outer names (.block b) hok hparts hnested)
    have := hall.flatMap_right fun t : String × Element => t.2.occurrences t.1
    rw [List.flatMap_append] at this
    exact this.cons _

/-- A block is visited once, and so is what occurs in it. -/
theorem blockAt (h : Law fs ok P) {outer around : String} (ha : ok around) (b : Block)
    (hb : (Element.block b).PathsAre ok) :
    P outer (Action.block fs around b) (Element.occurrences around (.block b)) := by
  rw [← occurrencesOf_singleton]
  exact h.descent.blockAt ha b hb

/-- A block is visited once, whichever blocks it sees. -/
theorem blockAmong (h : Law fs ok P) {outer around : String} (ha : ok around)
    (scope : List Block) (b : Block) (hb : (Element.block b).PathsAre ok) :
    P outer (Action.blockAmong fs scope around b) (Element.occurrences around (.block b)) :=
  h.andThen (h.among scope) (h.blockAt ha b hb)

/-- The way through a tree has the property for all that occurs in the tree. -/
theorem root? (h : Law fs ok P) (he : ok "") {e : Element} (hp : e.PathsAre ok) {x : Action}
    (hx : Action.root? fs e = some x) : P "" x (e.occurrences "") := by
  rw [← occurrencesOf_singleton]
  exact h.descent.root? he hp hx

end Law

end InfraSmells.Action
