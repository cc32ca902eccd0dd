import InfraSmells.Proofs.Analysis.Invariant
import InfraSmells.Proofs.Failing
import InfraSmells.Proofs.Finding.Repetition

/-!
# Every element is looked at once

`Analysis.calls_perm_occurrences`: when a tree is gone through to its end and all files on the way
are text, every checker has been called exactly once for each occurrence of `Element.occurrences`,
with the path that belongs to it, and for nothing else. The order of the calls is another matter;
it is that of the way through the tree.

The account of calls is a true one: in every state on the way, what has been reported is what the
checkers answer to the calls that stand in it, in their order (`Analysis.Accounted`). So the findings
about the tree can be read off the account (`Analysis.found_of_calls`).
-/

namespace InfraSmells

/-- Which checker was called, for which element and with which path. -/
def CheckerCall.key (c : CheckerCall) : Checker × Element × String :=
  (c.checker, c.visit.element, c.visit.path)

/-- The calls of checkers that occurrences ask for. -/
def callsFor (checkers : List Checker) (l : List (Element × String)) :
    List (Checker × Element × String) :=
  l.flatMap fun o => checkers.map fun c => (c, o.1, o.2)

/-- Two lists of occurrences ask for the calls of both. -/
theorem callsFor_append (checkers : List Checker) (l m : List (Element × String)) :
    callsFor checkers (l ++ m) = callsFor checkers l ++ callsFor checkers m :=
  List.flatMap_append

/-- Entering a file calls no checker. It forgets no file that is not text, and knows one when the
block is to be passed over. -/
theorem Analysis.enterFile_calls (fs : FileSystem) (a : Analysis) (path : String) :
    (a.enterFile fs path).1.calls = a.calls ∧
      ((a.enterFile fs path).1.notText = [] → a.notText = []) ∧
      ((a.enterFile fs path).2 = .ok false → (a.enterFile fs path).1.notText ≠ []) := by
  unfold enterFile
  split
  · exact ⟨rfl, id, fun h => nomatch h⟩
  split
  · exact ⟨rfl, id, fun h => nomatch h⟩
  split
  · next hskip => exact ⟨rfl, id, fun _ => List.ne_nil_of_mem hskip⟩
  dsimp only
  unfold takeFile
  split
  · exact ⟨rfl, id, fun h => nomatch h⟩
  · exact ⟨rfl, fun h => absurd h (List.cons_ne_nil _ _), fun _ => List.cons_ne_nil _ _⟩
  · split
    · exact ⟨rfl, id, fun h => nomatch h⟩
    · exact ⟨rfl, id, fun h => nomatch h⟩

namespace Action

/-- The action makes the calls that `keys` says for the checkers at hand, provided that it comes
to its end and has met no file that is not text. It forgets no such file. -/
def Makes (x : Action) (keys : List Checker → List (Checker × Element × String)) : Prop :=
  ∀ a, ((x a).1.notText = [] → a.notText = []) ∧
    ((x a).2 = none → (x a).1.notText = [] → ∃ calls : List CheckerCall,
      (x a).1.calls = calls ++ a.calls ∧ (calls.map (·.key)).Perm (keys a.checkers))

section
variable {x y : Action} {k k' : List Checker → List (Checker × Element × String)}

/-- The order in which calls are counted does not matter. -/
theorem Makes.perm (hx : Makes x k) (h : ∀ cs, (k cs).Perm (k' cs)) : Makes x k' := by
  refine fun a => ⟨(hx a).1, fun hend ht => ?_⟩
  obtain ⟨calls, heq, hperm⟩ := (hx a).2 hend ht
  exact ⟨calls, heq, hperm.trans (h a.checkers)⟩

/-- A change of the state that makes no calls. -/
theorem Makes.change {f : Analysis → Analysis} (ht : ∀ a, (f a).notText = a.notText)
    (hc : ∀ a, (f a).calls = a.calls) : Makes (change f) fun _ => [] := by
  intro a
  exact ⟨fun h => (ht a).symm.trans h, fun _ _ => ⟨[], hc a, .refl []⟩⟩

/-- The calls of a sequence are those of its parts. -/
theorem Makes.andThen (hteam : x.Keeps Analysis.team) (hx : Makes x k) (hy : Makes y k') :
    Makes (x.andThen y) fun cs => k cs ++ k' cs := by
  intro a
  obtain ⟨hxt, hxc⟩ := hx a
  rcases andThen_cases x y a with ⟨hnone, h⟩ | ⟨e, -, h⟩
  · obtain ⟨hyt, hyc⟩ := hy (x a).1
    have hcheckers : (x a).1.checkers = a.checkers := congrArg Prod.snd (hteam a)
    rw [h]
    refine ⟨fun ht => hxt (hyt ht), fun hend ht => ?_⟩
    obtain ⟨calls₁, heq₁, hperm₁⟩ := hxc hnone (hyt ht)
    obtain ⟨calls₂, heq₂, hperm₂⟩ := hyc hend ht
    rw [hcheckers] at hperm₂
    refine ⟨calls₂ ++ calls₁, ?_, ?_⟩
    · rw [heq₂, heq₁, List.append_assoc]
    · rw [List.map_append]
      exact (hperm₂.append hperm₁).trans List.perm_append_comm
  · rw [h]
    exact ⟨hxt, fun hend => nomatch hend⟩

/-- One checker is called once. -/
theorem Makes.call (e : Element) (path : String) (c : Checker) :
    Makes (call e path c) fun _ => [(c, e, path)] := by
  intro a
  unfold Action.call
  dsimp only
  split
  · exact ⟨id, fun hend => nomatch hend⟩
  · next found _ =>
    obtain ⟨_, _, h⟩ := Analysis.reports_eq found
      { a with calls := ⟨c, a.context, e, path⟩ :: a.calls }
    rw [h]
    exact ⟨id, fun _ _ => ⟨[⟨c, a.context, e, path⟩], rfl, .refl _⟩⟩

/-- A visit calls every checker once. -/
theorem Makes.visit (e : Element) (path : String) :
    Makes (visit e path) (callsFor · [(e, path)]) := by
  have heach (cs : List Checker) :
      Makes (each (Action.call e path) cs) fun _ => cs.map fun c => (c, e, path) := by
    induction cs with
    | nil => exact fun a => ⟨id, fun _ _ => ⟨[], rfl, .refl _⟩⟩
    | cons c cs ih =>
      exact Makes.andThen (Keeps.call (fun _ _ _ _ => rfl) e path c) (Makes.call e path c) ih
  intro a
  have := heach a.checkers a
  simpa [callsFor, Action.visit] using this

/-- In an entered file, calls are made before, for the element itself, and after. -/
theorem Makes.inside {before after : Action} (hb : Makes before k)
    (hbt : before.Keeps Analysis.team) (ha : Makes after k') (e : Element) (path : String)
    (newFile : Bool) :
    Makes (inside newFile before after e path)
      fun cs => k cs ++ (callsFor cs [(e, path)] ++ k' cs) := by
  have hnew (b : Bool) : Makes (Action.change ({ · with newFile := b })) fun _ => [] :=
    Makes.change (fun _ => rfl) fun _ => rfl
  have hvisit : (Action.visit e path).Keeps Analysis.team := Keeps.visit (fun _ _ _ _ => rfl) e path
  have := (hnew false).andThen (fun _ => rfl) <| hb.andThen hbt <|
    (hnew newFile).andThen (fun _ => rfl) <| (Makes.visit e path).andThen hvisit <|
    (hnew false).andThen (fun _ => rfl) ha
  exact this

/-- Entering a block makes the calls that are made inside: when the block is passed over, a file has
been met that is not text. -/
theorem Makes.entering {fs : FileSystem} {path : String} {body : Bool → Action}
    (h : ∀ newFile, Makes (body newFile) k) : Makes (entering fs path body) k := by
  intro a
  obtain ⟨hcalls, ht, hskip⟩ := Analysis.enterFile_calls fs a path
  have hcheckers : (a.enterFile fs path).1.checkers = a.checkers :=
    congrArg Prod.snd (Analysis.team_enterFile fs a path)
  rcases entering_cases fs path body a with ⟨e, -, heq⟩ | ⟨hfalse, heq⟩ | ⟨-, heq⟩
  · rw [heq]
    exact ⟨ht, fun hend => nomatch hend⟩
  · rw [heq]
    exact ⟨ht, fun _ hnil => absurd hnil (hskip hfalse)⟩
  · obtain ⟨hbt, hbc⟩ := h (a.enterFile fs path).1.newFile (a.enterFile fs path).1
    rw [hcalls, hcheckers] at hbc
    rw [heq]
    exact ⟨fun hnil => ht (hbt hnil), hbc⟩

end

/-- The steps of the way through a tree call every checker once for each occurrence. -/
theorem law_calls (fs : FileSystem) :
    Law fs (fun _ => True) fun _ x l => x.Keeps Analysis.team ∧ Makes x (callsFor · l) where
  perm hlm h := ⟨h.1, h.2.perm fun _ => hlm.flatMap_right _⟩
  done := ⟨fun _ => rfl, fun a => ⟨id, fun _ _ => ⟨[], rfl, .refl _⟩⟩⟩
  andThen hx hy := by
    refine ⟨hx.1.andThen hy.1, ?_⟩
    have := hx.2.andThen hx.1 hy.2
    simpa only [callsFor_append] using this
  declare names := ⟨fun _ => rfl, Makes.change (fun _ => rfl) fun _ => rfl⟩
  among scope := ⟨fun _ => rfl, Makes.change (fun _ => rfl) fun _ => rfl⟩
  visit e path := ⟨(law_team fs).visit e path, Makes.visit e path⟩
  block {path parts nested l m} outer names e hp hparts hnested := by
    refine ⟨(law_team fs).block (l := l) (m := m) outer names e hp hparts.1 hnested.1,
      Makes.entering fun newFile => ?_⟩
    have hopen : Makes (change (·.openScope)) fun _ => [] :=
      Makes.change (fun _ => rfl) fun _ => rfl
    have hdeclare : Makes (change (·.declare names)) fun _ => [] :=
      Makes.change (fun _ => rfl) fun _ => rfl
    have hclose : Makes (change (·.closeScope)) fun _ => [] := by
      refine Makes.change (fun a => ?_) fun a => ?_
      all_goals
        unfold Analysis.closeScope
        split <;> rfl
    have hinside := hparts.2.inside hparts.1 hnested.2 e path newFile
    have hteam := Keeps.inside (fun _ _ => rfl) hparts.1 ((law_team fs).visit e path) hnested.1
      newFile
    have hdeclared := hdeclare.andThen (fun _ => rfl) (hinside.andThen hteam hclose)
    refine (hopen.andThen (fun _ => rfl) hdeclared).perm fun cs => ?_
    have hcount : callsFor cs ((e, path) :: (l ++ m)) =
        callsFor cs [(e, path)] ++ (callsFor cs l ++ callsFor cs m) := by
      rw [← callsFor_append, ← callsFor_append]
      rfl
    rw [hcount]
    simp only [List.nil_append, List.append_nil]
    exact List.perm_append_comm_assoc _ _ _

end Action

/-- When a tree has been gone through to its end and every file on the way was text, each checker
has been called exactly once for every element that occurs in the tree, with the path that belongs
to it there, and for nothing else. -/
theorem Analysis.calls_perm_occurrences (fs : FileSystem) (a : Analysis) (root : Element)
    (found : List Finding) (hok : (a.check fs root).1 = .ok found)
    (htext : (a.check fs root).2.notText = []) :
    ((a.check fs root).2.calls.map fun c => (c.checker, c.visit.element, c.visit.path)).Perm
      ((root.occurrences "").flatMap fun o => a.checkers.map fun c => (c, o.1, o.2)) := by
  unfold check at hok htext ⊢
  cases hx : Action.root? fs root with
  | none => rw [hx] at hok; cases hok
  | some x =>
    have ⟨_, hmakes⟩ := (Action.law_calls fs).root? trivial (fun _ _ _ _ => trivial) hx
    have hcalls := (hmakes a.reset).2
    rw [hx] at hok htext
    dsimp only at hok htext ⊢
    generalize x a.reset = result at hok htext hcalls
    obtain ⟨b, stop⟩ := result
    cases stop with
    | some e => cases hok
    | none =>
      obtain ⟨calls, heq, hperm⟩ := hcalls rfl htext
      have : b.calls = calls := heq.trans (List.append_nil calls)
      show (b.calls.map _).Perm _
      rw [this]
      exact hperm

namespace Analysis

/-- A checker that finds nothing. -/
def quiet : Checker :=
  .ofFindings "quiet" fun _ _ _ => []

/-- A module with a pair below a pair, a block among the statements of a resource and a comment in
the second branch of a conditional. -/
def nestedModule : Element :=
  let comment : Element := .comment ⟨.nowhere, "c"⟩
  let pair : Pair := .ofValue .attr "k" .absent .nowhere
  let block (statements : List Element) : Block :=
    ⟨.nowhere, "b", .script, "", [], [], [], [], statements, [], []⟩
  let branch (statements : List Element) : Branch :=
    ⟨.nowhere, .absent, .ifChain, false, statements⟩
  let resource : Resource := ⟨.nowhere, .absent, "r", [{ pair with children := [pair] }],
    [.block (block [comment]), .expr .absent]⟩
  .module ⟨"m", "mod", [block [.resource resource,
    .expr (.conditional (branch []) [branch [comment]])]], []⟩

/-- The module is gone through without a file: the eight elements that are looked at, the pair below the
pair and both comments among them, are each called for once, at the path of the module. -/
theorem calls_perm_occurrences_nestedModule :
    let a := fresh (.builtIn .terraform) [quiet] 0
    let calls := (a.check (.empty []) nestedModule).2.calls
    calls.length = 8 ∧ (∀ c ∈ calls, c.visit.path = "mod") ∧
      (calls.map fun c => (c.checker, c.visit.element, c.visit.path)).Perm
        ((nestedModule.occurrences "").flatMap fun o => a.checkers.map fun c => (c, o.1, o.2)) := by
  refine ⟨by decide +kernel, by decide +kernel, ?_⟩
  have hnothing : ((fresh (.builtIn .terraform) [quiet] 0).check (.empty [])
      nestedModule).1.toOption = some [] := by decide +kernel
  exact calls_perm_occurrences _ _ nestedModule [] (toOption_eq_some_iff.1 hnothing) (by decide +kernel)

end Analysis

/-! ## What the calls have found -/

/-- What the checker finds there; nothing if it breaks down. -/
def CheckerCall.findings (c : CheckerCall) : List Finding :=
  (c.checker.check c.visit.context c.visit.element c.visit.path).getD []

namespace Analysis

/-- As long as all files were text, what is found comes from the calls on account: it is what they found,
reported in their order. -/
def Accounted (a : Analysis) : Prop :=
  a.notText = [] →
    (a.calls.reverse.flatMap (·.findings)).foldl (fun s f => s.1.report s.2 f) ({}, []) =
      (a.reporter, a.found)

/-- If all files were text, findings are reported without looking at their paths. -/
theorem reports_of_notText_eq_nil : ∀ (new : List Finding) (a : Analysis), a.notText = [] →
    new.foldl (fun s f => s.1.report s.2 f) (a.reporter, a.found) =
      ((new.foldl report a).reporter, (new.foldl report a).found)
  | [], _, _ => rfl
  | f :: new, a, hnil => by
    have hf : f.path ∉ a.notText := by
      rw [hnil]
      exact List.not_mem_nil
    have hreport : a.report f = { a with
        reporter := (a.reporter.report a.found f).1
        found := (a.reporter.report a.found f).2 } := if_neg hf
    have hnil' : (a.report f).notText = [] := by
      rw [hreport]
      exact hnil
    rw [List.foldl_cons, List.foldl_cons, ← reports_of_notText_eq_nil new _ hnil', hreport]

/-- A call puts itself on account, with what it reports. -/
theorem Accounted.call {a : Analysis} (h : a.Accounted) (e : Element) (path : String) (c : Checker) :
    (Action.call e path c a).1.Accounted := by
  unfold Action.call
  dsimp only
  cases hnew : c.check a.context e path with
  | none =>
    -- Whoever breaks down has found nothing.
    have hfindings : CheckerCall.findings ⟨c, a.context, e, path⟩ = [] := by
      simp [CheckerCall.findings, hnew]
    intro hnil
    simpa [hfindings] using h hnil
  | some new =>
    have hfindings : CheckerCall.findings ⟨c, a.context, e, path⟩ = new := by
      simp [CheckerCall.findings, hnew]
    obtain ⟨b, hb⟩ : ∃ b, b = { a with calls := ⟨c, a.context, e, path⟩ :: a.calls } := ⟨_, rfl⟩
    obtain ⟨reporter, found, hreports⟩ := reports_eq new b
    have hcalls : (new.foldl report b).calls = ⟨c, a.context, e, path⟩ :: a.calls := by
      rw [hreports, hb]
    have htext : (new.foldl report b).notText = a.notText := by
      rw [hreports, hb]
    intro hnil
    dsimp only at hnil ⊢
    rw [← hb] at hnil ⊢
    rw [htext] at hnil
    have hbefore := h hnil
    have hnow := reports_of_notText_eq_nil new b (by rw [hb]; exact hnil)
    rw [hcalls, List.reverse_cons, List.flatMap_append, List.foldl_append, hbefore,
      List.flatMap_singleton, hfindings, ← hnow, hb]

/-- The account is true at every step of the way through a tree. -/
theorem accounted_invariant (fs : FileSystem) :
    Action.Invariant fs (fun _ => True) Accounted where
  scope _ _ _ _ _ h := h
  putBack _ _ _ h := h
  outside := trivial
  enter a path h := by
    obtain ⟨-, hforgets, -⟩ := enterFile_calls fs a path
    obtain ⟨_, _, _, _, _, heq⟩ := enterFile_eq fs a path
    refine ⟨fun hnil => ?_, fun _ => trivial⟩
    have hbefore := h (hforgets hnil)
    rw [heq]
    exact hbefore
  visit a e path _ h := by
    have heach : ∀ (cs : List Checker) (b : Analysis), b.Accounted →
        (Action.each (Action.call e path) cs b).1.Accounted := by
      intro cs
      induction cs with
      | nil => exact fun _ hb => hb
      | cons c cs ih => exact Action.Invariant.andThen (fun _ hb => hb.call e path c) ih
    exact heach a.checkers a h

/-- If every file on the way was text, the findings about a tree are those of the calls on account, once
for each code, path and line, and sorted. -/
theorem found_of_calls (fs : FileSystem) (a : Analysis) (root : Element) (found : List Finding)
    (hok : (a.check fs root).1 = .ok found) (htext : (a.check fs root).2.notText = []) :
    found = Finding.sort
      (Finding.dedup ((a.check fs root).2.calls.reverse.flatMap (·.findings))) := by
  obtain ⟨b, found', hb, hend, hsorted⟩ :=
    (accounted_invariant fs).check (a := a) (fun _ => rfl) root
  rw [hend] at htext ⊢
  have hreported := Finding.reports_eq_dedupFrom (b.calls.reverse.flatMap (·.findings)) [] {}
  rw [hb htext] at hreported
  rw [hsorted found hok]
  exact congrArg Finding.sort hreported

end Analysis

end InfraSmells
