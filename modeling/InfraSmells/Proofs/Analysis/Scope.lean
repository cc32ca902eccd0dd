import InfraSmells.Proofs.Analysis.Coverage
import InfraSmells.Proofs.Analysis.Invariant
import InfraSmells.Proofs.Tree.Scopes

/-!
# Variables in scope

The names in scope when a block is looked at can be read off the tree: they are those that
`Block.scopes` tells. `Action.Scoped` is a triple of an action, with the names in scope before it
and after it and the blocks that are looked at on the way. It goes through the steps of the way
through a tree, and a block brings the names in scope back because it closes the scope that it has
opened (`Action.Scoped.balanced`). `Analysis.scopes_restored` says it of whole blocks and trees.
-/

namespace InfraSmells

/-- The checker, the block and the names in scope, if the call was about a block. -/
def CheckerCall.blockSeen? (c : CheckerCall) : Option (Checker × Block × List String) :=
  match c.visit.element with
  | .block b => some (c.checker, b, c.visit.context.vars)
  | _ => none

/-- All blocks are looked at by all checkers, one after the other. -/
def seenBy (checkers : List Checker) (scopes : List (Block × List String)) :
    List (Checker × Block × List String) :=
  scopes.flatMap fun s => checkers.map fun c => (c, s.1, s.2)

/-- Blocks are looked at one after the other. -/
theorem seenBy_append (checkers : List Checker) (l m : List (Block × List String)) :
    seenBy checkers (l ++ m) = seenBy checkers l ++ seenBy checkers m :=
  List.flatMap_append

/-- An element that is a block, with the names in scope. -/
def Element.ownScope (names : List String) : Element → List (Block × List String)
  | .block b => [(b, names)]
  | _ => []

namespace Analysis

/-- The blocks that checkers have looked at, in this order, each with the names in scope. -/
def blocksSeen (a : Analysis) : List (Checker × Block × List String) :=
  a.calls.reverse.filterMap (·.blockSeen?)

/-- On the way from one state to another, checkers have looked at these blocks, and at all of them
if every file was text. -/
structure Saw (a b : Analysis) (scopes : List (Block × List String)) : Prop where
  checkers : b.checkers = a.checkers
  notText : b.notText = [] → a.notText = []
  blocks : ∃ entered, entered.Sublist scopes ∧ (b.notText = [] → entered = scopes) ∧
    b.blocksSeen = a.blocksSeen ++ seenBy a.checkers entered

variable {a b c : Analysis} {l m : List (Block × List String)}

/-- Nothing is looked at when no checker is called. -/
theorem Saw.of_calls_eq (hcheckers : b.checkers = a.checkers)
    (hnotText : b.notText = [] → a.notText = []) (hcalls : b.calls = a.calls) : a.Saw b [] where
  checkers := hcheckers
  notText := hnotText
  blocks := ⟨[], .refl [], fun _ => rfl, by simp [blocksSeen, seenBy, hcalls]⟩

/-- The innermost scope is closed. -/
theorem closeScope_eq {mark : Nat} {marks : List Nat} (h : a.marks = mark :: marks) :
    a.closeScope = { a with marks := marks, vars := a.vars.take mark } := by
  unfold closeScope
  rw [h]

/-- What is looked at on two ways is looked at on both together. -/
theorem Saw.trans (hl : a.Saw b l) (hm : b.Saw c m) : a.Saw c (l ++ m) where
  checkers := hm.checkers.trans hl.checkers
  notText h := hl.notText (hm.notText h)
  blocks := by
    obtain ⟨entered, hsub, hall, hseen⟩ := hl.blocks
    obtain ⟨entered', hsub', hall', hseen'⟩ := hm.blocks
    refine ⟨entered ++ entered', hsub.append hsub', fun h => ?_, ?_⟩
    · rw [hall (hm.notText h), hall' h]
    · rw [hseen', hseen, hl.checkers, seenBy_append, List.append_assoc]

/-- Nothing more is looked at when no checker is called in the end. -/
theorem Saw.trans_nil (hl : a.Saw b l) (hm : b.Saw c []) : a.Saw c l :=
  List.append_nil l ▸ hl.trans hm

end Analysis

namespace Action

/-- From a state with the names `before` in scope, the action leads, unless it stops, to one with
the names `after` and the same marks, and on the way checkers look at the blocks `scopes`. -/
def Scoped (x : Action) (before after : List String) (scopes : List (Block × List String)) : Prop :=
  ∀ a, a.vars = before → (x a).2 = none →
    (x a).1.vars = after ∧ (x a).1.marks = a.marks ∧ a.Saw (x a).1 scopes

namespace Scoped

variable {fs : FileSystem} {x y : Action} {p q r : List String} {l m : List (Block × List String)}

/-- Nothing is looked at by a change that calls no checker. -/
theorem change {f : Analysis → Analysis} (hvars : ∀ a, a.vars = p → (f a).vars = q)
    (hmarks : ∀ a, (f a).marks = a.marks) (hcheckers : ∀ a, (f a).checkers = a.checkers)
    (hnotText : ∀ a, (f a).notText = a.notText) (hcalls : ∀ a, (f a).calls = a.calls) :
    Scoped (change f) p q [] :=
  fun a ha _ => ⟨hvars a ha, hmarks a, .of_calls_eq (hcheckers a) (hnotText a ▸ id) (hcalls a)⟩

/-- Names are declared behind those in scope. -/
theorem declare (names : List String) :
    Scoped (Action.change (·.declare names)) p (p ++ names) [] :=
  change (fun _ ha => congrArg (· ++ names) ha) (fun _ => rfl) (fun _ => rfl) (fun _ => rfl)
    fun _ => rfl

/-- Where nothing is done, the names in scope stay as they are. -/
theorem done : Scoped done p p [] :=
  fun _ ha _ => ⟨ha, rfl, .of_calls_eq rfl id rfl⟩

/-- The second part goes on where the first has ended. -/
theorem andThen (hx : Scoped x p q l) (hy : Scoped y q r m) :
    Scoped (x.andThen y) p r (l ++ m) := by
  intro a ha hnone
  rcases andThen_cases x y a with ⟨hx', h⟩ | ⟨e, -, h⟩
  · obtain ⟨hvars, hmarks, hsaw⟩ := hx a ha hx'
    rw [h] at hnone ⊢
    obtain ⟨hvars', hmarks', hsaw'⟩ := hy _ hvars hnone
    exact ⟨hvars', hmarks'.trans hmarks, hsaw.trans hsaw'⟩
  · rw [h] at hnone
    cases hnone

/-- Leaving the names in scope as they are is declaring no names. -/
theorem declares_nil (hx : Scoped x p p l) : Scoped x p (p ++ []) l := by
  rwa [List.append_nil]

/-- Parts that leave the names in scope as they are leave them so together. -/
theorem each {α : Type} {f : α → Action} (h : ∀ x, Scoped (f x) p p []) :
    ∀ xs : List α, Scoped (Action.each f xs) p p []
  | [] => done
  | x :: xs => (h x).andThen (each h xs)

/-- A visit looks at the element itself, if that is a block, with the names in scope. -/
theorem visit (e : Element) (path : String) : Scoped (visit e path) p p (e.ownScope p) := by
  intro a ha hnone
  obtain ⟨_, _, calls, heq, -, hcalls⟩ := visit_eq e path a
  rw [heq]
  refine ⟨ha, rfl, rfl, id, _, .refl _, fun _ => rfl, ?_⟩
  show calls.reverse.filterMap _ = _
  rw [hcalls hnone, List.reverse_append, List.reverse_reverse, List.filterMap_append,
    List.filterMap_map]
  refine congrArg (a.blocksSeen ++ ·) ?_
  subst ha
  cases e with
  | block b =>
    rw [Element.ownScope, seenBy, List.flatMap_singleton, ← List.filterMap_eq_map]
    rfl
  | _ => exact List.filterMap_eq_nil_iff.2 fun _ _ => rfl

/-- What is declared between the opening and the closing of a scope goes out of scope. -/
theorem balanced {names : List String} (hx : Scoped x p (p ++ names) l) :
    Scoped ((Action.change (·.openScope)).andThen (x.andThen (Action.change (·.closeScope)))) p p
      l := by
  intro a ha hnone
  have heq : (Action.change (·.openScope)).andThen (x.andThen (Action.change (·.closeScope))) a =
      x.andThen (Action.change (·.closeScope)) a.openScope := rfl
  rw [heq] at hnone ⊢
  rcases andThen_cases x (Action.change (·.closeScope)) a.openScope with
    ⟨hstop, heq⟩ | ⟨e, -, heq⟩
  · obtain ⟨hvars, hmarks, hsaw⟩ := hx a.openScope ha hstop
    have hclosed := Analysis.closeScope_eq hmarks
    have hopened : a.Saw a.openScope [] := .of_calls_eq rfl id rfl
    have hleft : (x a.openScope).1.Saw (x a.openScope).1.closeScope [] := by
      rw [hclosed]
      exact .of_calls_eq rfl id rfl
    rw [heq]
    refine ⟨?_, ?_, (hopened.trans hsaw).trans_nil hleft⟩
    · show (x a.openScope).1.closeScope.vars = p
      rw [hclosed]
      show (x a.openScope).1.vars.take a.vars.length = p
      rw [hvars, ha, List.take_left']
      rfl
    · show (x a.openScope).1.closeScope.marks = a.marks
      rw [hclosed]
  · rw [heq] at hnone
    cases hnone

/-- A block whose file is no text is passed over, and every other one is gone through. -/
theorem entering {path : String} {body : Bool → Action}
    (h : ∀ newFile, Scoped (body newFile) p p l) : Scoped (entering fs path body) p p l := by
  intro a ha hnone
  obtain ⟨_, _, _, _, _, henter⟩ := Analysis.enterFile_eq fs a path
  obtain ⟨hcalls, hnotText, hskipped⟩ := Analysis.enterFile_calls fs a path
  have hvars : (a.enterFile fs path).1.vars = a.vars := by rw [henter]
  have hmarks : (a.enterFile fs path).1.marks = a.marks := by rw [henter]
  have hcheckers : (a.enterFile fs path).1.checkers = a.checkers := by rw [henter]
  rcases entering_cases fs path body a with ⟨e, -, heq⟩ | ⟨hfalse, heq⟩ | ⟨-, heq⟩
  · rw [heq] at hnone
    cases hnone
  · rw [heq]
    refine ⟨hvars.trans ha, hmarks, hcheckers, hnotText, [], List.nil_sublist _, ?_, ?_⟩
    · exact fun hnil => absurd hnil (hskipped hfalse)
    · show (a.enterFile fs path).1.calls.reverse.filterMap _ = _
      rw [hcalls]
      exact (List.append_nil _).symm
  · rw [heq] at hnone ⊢
    obtain ⟨hvars', hmarks', hsaw⟩ :=
      h (a.enterFile fs path).1.newFile _ (hvars.trans ha) hnone
    have hentered : a.Saw (a.enterFile fs path).1 [] := .of_calls_eq hcheckers hnotText hcalls
    have hleft (b : Analysis) : b.Saw (b.withFileOf a) [] := .of_calls_eq rfl id rfl
    exact ⟨hvars', hmarks'.trans hmarks, (hentered.trans hsaw).trans_nil (hleft _)⟩

/-- A block is looked at with all names in scope that are declared before it in its file. -/
theorem inside {newFile : Bool} {before after : Action} {e : Element} {path : String}
    (hbefore : Scoped before p q l) (hafter : Scoped after q q m) :
    Scoped (inside newFile before after e path) p q (l ++ (e.ownScope q ++ m)) := by
  have hnew (newFile : Bool) {p : List String} :
      Scoped (Action.change ({ · with newFile := newFile })) p p [] :=
    change (fun _ ha => ha) (fun _ => rfl) (fun _ => rfl) (fun _ => rfl) fun _ => rfl
  exact (hnew false).andThen <| hbefore.andThen <| (hnew newFile).andThen <|
    (visit e path).andThen <| (hnew false).andThen hafter

/-- Whatever is declared in a block, the names in scope are afterwards what they were before. -/
theorem enclosed {names rest : List String} {parts nested : Action} (e : Element) (path : String)
    (hparts : Scoped parts (p ++ names) (p ++ rest) l)
    (hnested : Scoped nested (p ++ rest) (p ++ rest) m) :
    Scoped (Action.entering fs path fun newFile =>
        (Action.change (·.openScope)).andThen <|
        (Action.change (·.declare names)).andThen <|
        (Action.inside newFile parts nested e path).andThen <|
        Action.change (·.closeScope))
      p p (l ++ (e.ownScope (p ++ rest) ++ m)) := by
  refine entering fun newFile => ?_
  rw [← andThen_assoc (Action.change (·.declare names))]
  exact balanced ((declare names).andThen (hparts.inside hnested))

/-! ## The way through a tree -/

mutual

/-- Pairs declare nothing. -/
theorem pair (path : String) : ∀ x : Pair, Scoped (Action.pair path x) p p []
  | ⟨_, _, _, _, _, children⟩ => (visit _ path).andThen (pairs path children)

/-- Pairs declare nothing. -/
theorem pairs (path : String) : ∀ xs : List Pair, Scoped (Action.pairs path xs) p p []
  | [] => done
  | x :: xs => (pair path x).andThen (pairs path xs)

end

/-- The variables of a block declare their names. -/
theorem variableList (path : String) :
    ∀ (xs : List Pair) {p : List String},
      Scoped (Action.variableList path xs) p (p ++ xs.map Pair.name) []
  | [], _ => declares_nil done
  | x :: xs, p => by
    rw [List.map_cons, List.append_cons]
    exact ((declare [x.name]).andThen (pair path x)).andThen (variableList path xs)

mutual

/-- A block leaves the names in scope as they are. -/
theorem block (around : String) : ∀ (b : Block) {p : List String},
    Scoped (Action.block fs around b) p p (b.scopes p)
  | ⟨span, name, type, own, resources, vars, attributes, dependencies, statements, comments,
      blocks⟩, p => by
    obtain ⟨path, hpath⟩ : ∃ path, path = if own = "" then around else own := ⟨_, rfl⟩
    obtain ⟨b, hb⟩ : ∃ b : Block, b = ⟨span, name, type, own, resources, vars, attributes,
      dependencies, statements, comments, blocks⟩ := ⟨_, rfl⟩
    have hend : p ++ attributes.map (·.name) ++ resources.flatMap (·.declared) ++
        vars.map (·.name) ++ declaredIn statements = p ++ b.declared := by
      simp [hb, Block.declared]
    have hresources : Scoped (Action.resourceList fs path resources) (p ++ attributes.map (·.name))
        _ _ := resourceList path resources
    have hstatements : Scoped (Action.statementList fs path statements) _ (p ++ b.declared) _ :=
      hend ▸ statementList path statements
    have hparts := hresources.andThen <| (variableList path vars).andThen <|
      (pairs path attributes).andThen <|
      (each (fun d => visit (.dependency d) path) dependencies).andThen <|
      hstatements.andThen (each (fun c => visit (.comment c) path) comments)
    have hnested : Scoped (Action.blockList fs path blocks) (p ++ b.declared) _ _ :=
      blockList path blocks
    have : Scoped (Action.entering fs path _) p p _ := enclosed (.block b) path hparts hnested
    simp only [List.nil_append, List.append_nil] at this
    rw [Block.scopes]
    subst hpath hb
    exact this

/-- Blocks leave the names in scope as they are. -/
theorem blockList (around : String) : ∀ (bs : List Block) {p : List String},
    Scoped (Action.blockList fs around bs) p p (scopesInBlocks p bs)
  | [], _ => done
  | b :: bs, _ => (block around b).andThen (blockList around bs)

/-- A resource declares what its statements declare. -/
theorem resource (path : String) : ∀ (r : Resource) {p : List String},
    Scoped (Action.resource fs path r) p (p ++ r.declared) (r.scopes p)
  | ⟨_, _, _, attributes, statements⟩, _ =>
    (visit _ path).andThen <| (pairs path attributes).andThen (statementList path statements)

/-- Resources declare what their statements declare. -/
theorem resourceList (path : String) : ∀ (rs : List Resource) {p : List String},
    Scoped (Action.resourceList fs path rs) p (p ++ rs.flatMap (·.declared))
      (scopesInResources p rs)
  | [], _ => declares_nil done
  | r :: rs, p => by
    rw [List.flatMap_cons, ← List.append_assoc]
    exact (resource path r).andThen (resourceList path rs)

/-- A statement declares its names in the block it stands in. -/
theorem statement (path : String) : ∀ (s : Element) {p : List String},
    Scoped (Action.statement fs path s) p (p ++ s.declared) (s.scopes p)
  | .resource r, _ => resource path r
  | .pair x, _ => (declare _).andThen (pair path x)
  | .block b, _ => declares_nil (block path b)
  | .dependency _, _ => declares_nil (visit _ path)
  | .comment _, _ => declares_nil (visit _ path)
  | .expr (.conditional head rest), p => by
    rw [Element.declared, ← List.append_assoc]
    exact (visit _ path).andThen <| (branch path head).andThen (branchList path rest)
  | .expr .absent, _ | .expr (.string ..), _ | .expr (.number ..), _ | .expr (.boolean ..), _
  | .expr (.null _), _ | .expr (.array ..), _ | .expr (.hash ..), _ | .expr (.reference ..), _
  | .expr (.call ..), _ | .expr (.methodCall ..), _ | .expr (.unary ..), _
  | .expr (.binary ..), _ | .project _, _ | .module _, _ => declares_nil done

/-- Statements declare their names in the block they stand in. -/
theorem statementList (path : String) : ∀ (ss : List Element) {p : List String},
    Scoped (Action.statementList fs path ss) p (p ++ declaredIn ss) (scopesIn p ss)
  | [], _ => declares_nil done
  | s :: ss, p => by
    rw [declaredIn, ← List.append_assoc]
    exact (statement path s).andThen (statementList path ss)

/-- A branch declares what its statements declare. -/
theorem branch (path : String) : ∀ (b : Branch) {p : List String},
    Scoped (Action.branch fs path b) p (p ++ b.declared) (b.scopes p)
  | ⟨_, _, _, _, statements⟩, _ => statementList path statements

/-- Branches declare what their statements declare. -/
theorem branchList (path : String) : ∀ (bs : List Branch) {p : List String},
    Scoped (Action.branchList fs path bs) p (p ++ declaredInBranches bs) (scopesInBranches p bs)
  | [], _ => declares_nil done
  | b :: bs, p => by
    rw [declaredInBranches, ← List.append_assoc]
    exact (branch path b).andThen (branchList path bs)

end

/-- A block leaves the names in scope as they are, whichever blocks it sees. -/
theorem blockAmong (seen : List Block) (around : String) (b : Block) :
    Scoped (Action.blockAmong fs seen around b) p p (b.scopes p) := by
  have hseen : Scoped (Action.change ({ · with scope := seen })) p p [] :=
    change (fun _ ha => ha) (fun _ => rfl) (fun _ => rfl) (fun _ => rfl) fun _ => rfl
  exact hseen.andThen (block around b)

/-- Blocks leave the names in scope as they are, whichever blocks they see. -/
theorem blocksAmong (seen : Block → List Block) (around : String) : ∀ bs : List Block,
    Scoped (Action.each (fun b => Action.blockAmong fs (seen b) around b) bs) p p
      (scopesInBlocks p bs)
  | [] => done
  | b :: bs => (blockAmong (seen b) around b).andThen (blocksAmong seen around bs)

mutual

/-- Nothing is in scope around the blocks of a module, and nothing after them. -/
theorem module : ∀ m : Module, Scoped (Action.module fs m) [] [] m.scopes
  | ⟨_, path, blocks, modules⟩ =>
    (blocksAmong (fun _ => blocks) path blocks).andThen (moduleList modules)

/-- Nothing is in scope around the blocks of modules, and nothing after them. -/
theorem moduleList : ∀ ms : List Module, Scoped (Action.moduleList fs ms) [] [] (scopesInModules ms)
  | [] => done
  | m :: ms => (module m).andThen (moduleList ms)

end

/-- Nothing is in scope around the blocks of a tree, and nothing after them. -/
theorem root? {root : Element} (hx : Action.root? fs root = some x) :
    Scoped x [] [] root.rootScopes := by
  cases root with
  | project p =>
    cases hx
    exact (moduleList p.modules).andThen (blocksAmong (fun b => [b]) "" p.blocks)
  | module m =>
    cases hx
    exact module m
  | block b =>
    cases hx
    exact blockAmong [b] "" b
  | resource | pair | dependency | comment | expr => cases hx

end Scoped

end Action

/-- What a block brings back: the names in scope, the marks of open scopes, and the current file
with what is known of it. -/
structure Analysis.Restored (before after : Analysis) : Prop where
  vars : after.vars = before.vars
  marks : after.marks = before.marks
  file : after.file = before.file
  firstCodeLine : after.firstCodeLine = before.firstCodeLine
  newFile : after.newFile = before.newFile

/-- What is current is the file with what is known of it. -/
theorem Analysis.Restored.of_current {a b : Analysis} (hvars : b.vars = a.vars)
    (hmarks : b.marks = a.marks) (hcurrent : b.current = a.current) : a.Restored b := by
  obtain ⟨hfile, hfirst, hnew⟩ : b.file = a.file ∧ b.firstCodeLine = a.firstCodeLine ∧
      b.newFile = a.newFile := by
    simpa [current] using hcurrent
  exact ⟨hvars, hmarks, hfile, hfirst, hnew⟩

/-- Unless it stops, a block restores what it has found, at any depth and also when it is passed
over; and checkers look at it and at the blocks in it with the names in scope that the tree says.
After a tree that has been gone through to its end nothing is in scope. -/
theorem Analysis.scopes_restored (fs : FileSystem) :
    (∀ (a : Analysis) around b, (Action.block fs around b a).2 = none →
      a.Restored (Action.block fs around b a).1 ∧
        a.Saw (Action.block fs around b a).1 (b.scopes a.vars)) ∧
    ∀ (a : Analysis) root found, (a.check fs root).1 = .ok found →
      (a.check fs root).2.vars = [] ∧ a.reset.Restored (a.check fs root).2 ∧
        a.reset.Saw (a.check fs root).2 root.rootScopes := by
  constructor
  · intro a around b hnone
    have hscoped : (Action.block fs around b).Scoped a.vars a.vars (b.scopes a.vars) :=
      .block around b
    obtain ⟨hvars, hmarks, hsaw⟩ := hscoped a rfl hnone
    have hcurrent : (Action.block fs around b).Keeps current :=
      @Action.Law.blockAt fs _ _ (Action.law_current fs) "" around trivial b fun _ _ _ _ => trivial
    exact ⟨.of_current hvars hmarks (hcurrent a), hsaw⟩
  · intro a root found hok
    unfold check at hok ⊢
    cases hx : Action.root? fs root with
    | none =>
      rw [hx] at hok
      cases hok
    | some x =>
      have hscoped := Action.Scoped.root? hx a.reset rfl
      have hcurrent : x.Keeps current :=
        (Action.law_current fs).root? trivial (fun _ _ _ _ => trivial) hx
      have hcurrent := hcurrent a.reset
      rw [hx] at hok
      dsimp only at hok ⊢
      generalize x a.reset = result at hok hscoped hcurrent
      obtain ⟨b, stop⟩ := result
      cases stop with
      | some e => cases hok
      | none =>
        obtain ⟨hvars, hmarks, hsaw⟩ := hscoped rfl
        have hsorted : b.Saw { b with found := Finding.sort b.found } [] := .of_calls_eq rfl id rfl
        exact ⟨hvars, .of_current hvars hmarks hcurrent, hsaw.trans_nil hsorted⟩

namespace Analysis

/-- A block with variables in all places where they are declared, and blocks in all places where a
block may stand. -/
def nestedScopes : Element :=
  let var (name : String) : Pair := .ofValue .var name .absent .nowhere
  let block (name : String) (resources : List Resource) (vars : List Pair)
      (statements : List Element) (blocks : List Block) : Block :=
    ⟨.nowhere, name, .script, "", resources, vars, [.ofValue .attr "k" .absent .nowhere], [],
      statements, [], blocks⟩
  let branch (statements : List Element) : Branch :=
    ⟨.nowhere, .absent, .ifChain, false, statements⟩
  let inner := block "inner" [] [var "x"] [] []
  .block (block "outer"
    [⟨.nowhere, .absent, "r", [], [.block inner, .pair (var "r")]⟩] [var "v"]
    [.expr (.conditional (branch [.pair (var "s")]) [branch [.block inner, .pair (var "t")]])]
    [inner])

/-- The inner block stands in a resource, in a branch and among the nested blocks: each time it sees what
the outer block has declared so far and its own names, and nothing is in scope behind the tree. -/
theorem scopes_restored_nestedScopes :
    let a := fresh (.builtIn .terraform) [quiet] 0
    (a.check (.empty []) nestedScopes).2.vars = [] ∧
      (a.check (.empty []) nestedScopes).2.blocksSeen.map (fun s => (s.2.1.name, s.2.2)) =
        [("inner", ["k", "k", "x"]), ("inner", ["k", "r", "v", "s", "k", "x"]),
          ("outer", ["k", "r", "v", "s", "t"]),
          ("inner", ["k", "r", "v", "s", "t", "k", "x"])] := by
  intro a
  have hnothing : (a.check (.empty []) nestedScopes).1.toOption = some [] := by decide +kernel
  obtain ⟨hvars, -, hsaw⟩ :=
    (scopes_restored (.empty [])).2 a nestedScopes [] (toOption_eq_some_iff.1 hnothing)
  refine ⟨hvars, ?_⟩
  obtain ⟨entered, -, hall, hseen⟩ := hsaw.blocks
  rw [hseen, hall (by decide +kernel)]
  decide +kernel

end Analysis

end InfraSmells
