import InfraSmells.Proofs.Analysis.Independence
import InfraSmells.Proofs.Finding.Order

/-!
# Invariants of an analysis

What an analysis does to its state comes down to three things: variables and marks change, a file
is entered, and checkers are called. An `Action.Invariant` is a property of states that all three
keep; it then holds wherever the way through a tree ends, also when it stops early
(`Action.Invariant.check`). Checkers are only called at paths that were entered, so that what
entering shows of a path may be used of a call there.
-/

namespace InfraSmells

variable {fs : FileSystem}

namespace Analysis

/-- Entering a file changes the reader, the current file and the files known not to be text. -/
theorem enterFile_eq (fs : FileSystem) (a : Analysis) (path : String) :
    ∃ reader file first newFile notText, (a.enterFile fs path).1 =
      { a with
        reader := reader
        file := file
        firstCodeLine := first
        newFile := newFile
        notText := notText } := by
  unfold enterFile
  split
  · exact ⟨_, _, _, _, _, rfl⟩
  split
  · exact ⟨_, _, _, _, _, rfl⟩
  split
  · exact ⟨_, _, _, _, _, rfl⟩
  dsimp only
  unfold takeFile
  split
  · exact ⟨_, _, _, _, _, rfl⟩
  · exact ⟨_, _, _, _, _, rfl⟩
  · split
    · exact ⟨_, _, _, _, _, rfl⟩
    · exact ⟨_, _, _, _, _, rfl⟩

/-- Findings that are reported are added to those found before, or left out. -/
theorem mem_found_reports : ∀ (new : List Finding) (a : Analysis),
    ∀ f ∈ (new.foldl report a).found, f ∈ a.found ∨ f ∈ new
  | [], _, f, hf => .inl hf
  | g :: new, a, f, hf => by
    rcases mem_found_reports new (a.report g) f hf with hf | hf
    · have : f ∈ a.found ∨ f = g := by
        unfold report at hf
        split at hf
        · exact .inl hf
        · unfold Reporter.report at hf
          dsimp only at hf
          split at hf
          · exact .inl hf
          · simpa using hf
      rcases this with hf | rfl
      · exact .inl hf
      · exact .inr (.head _)
    · exact .inr (.tail _ hf)

end Analysis

namespace Action

/-- The finding comes from one of the checkers, called at the path. -/
def StemsFrom (checkers : List Checker) (path : String) (f : Finding) : Prop :=
  ∃ c ∈ checkers, ∃ context e found, c.check context e path = some found ∧ f ∈ found

/-- The call of a checker is put on account, and changes the findings. What it adds to them stems
from the checker. -/
theorem call_eq (e : Element) (path : String) (c : Checker) (a : Analysis) :
    ∃ reporter found, (call e path c a).1 =
        { a with
          reporter := reporter
          found := found
          calls := ⟨c, a.context, e, path⟩ :: a.calls } ∧
      ∀ f ∈ found, f ∈ a.found ∨ StemsFrom [c] path f := by
  unfold call
  dsimp only
  split
  · exact ⟨_, _, rfl, fun f hf => .inl hf⟩
  · next new hnew =>
    obtain ⟨reporter, found, h⟩ := Analysis.reports_eq new
      { a with calls := ⟨c, a.context, e, path⟩ :: a.calls }
    refine ⟨reporter, found, h, fun f hf => ?_⟩
    have hmem := Analysis.mem_found_reports new
      { a with calls := ⟨c, a.context, e, path⟩ :: a.calls } f (by rw [h]; exact hf)
    exact hmem.imp_right fun hf => ⟨c, .head _, _, _, _, hnew, hf⟩

/-- A visit changes the findings and the account of calls. What it adds to the findings stems from
the checkers; unless it stops, every checker has been called. -/
theorem visit_eq (e : Element) (path : String) (a : Analysis) :
    ∃ reporter found calls, (visit e path a).1 =
        { a with reporter := reporter, found := found, calls := calls } ∧
      (∀ f ∈ found, f ∈ a.found ∨ StemsFrom a.checkers path f) ∧
      ((visit e path a).2 = none →
        calls = (a.checkers.map fun c => ⟨c, a.context, e, path⟩).reverse ++ a.calls) := by
  have heach : ∀ (cs : List Checker) (b : Analysis), ∃ reporter found calls,
      (each (call e path) cs b).1 =
        { b with reporter := reporter, found := found, calls := calls } ∧
      (∀ f ∈ found, f ∈ b.found ∨ StemsFrom cs path f) ∧
      ((each (call e path) cs b).2 = none →
        calls = (cs.map fun c => ⟨c, b.context, e, path⟩).reverse ++ b.calls) := by
    intro cs
    induction cs with
    | nil => exact fun b => ⟨_, _, _, rfl, fun f hf => .inl hf, fun _ => rfl⟩
    | cons c cs ih =>
      intro b
      obtain ⟨reporter, found, hcall, hfound⟩ := call_eq e path c b
      have hfirst (f : Finding) (hf : f ∈ found) : f ∈ b.found ∨ StemsFrom (c :: cs) path f := by
        refine (hfound f hf).imp_right ?_
        rintro ⟨d, hd, hstems⟩
        exact ⟨d, List.mem_cons.2 (.inl (List.mem_singleton.1 hd)), hstems⟩
      have hsequence : each (call e path) (c :: cs) b =
        (call e path c).andThen (each (call e path) cs) b := rfl
      rcases andThen_cases (call e path c) (each (call e path) cs) b with ⟨-, h⟩ | ⟨_, -, h⟩
      · obtain ⟨reporter', found', calls', hrest, hfound', hcalls⟩ := ih (call e path c b).1
        rw [hsequence, h]
        refine ⟨reporter', found', calls', ?_, fun f hf => ?_, fun hnone => ?_⟩
        · rw [hrest, hcall]
        · rcases hfound' f hf with hf | ⟨d, hd, hstems⟩
          · rw [hcall] at hf
            exact hfirst f hf
          · exact .inr ⟨d, .tail _ hd, hstems⟩
        · rw [hcalls hnone, hcall, List.map_cons, List.reverse_cons, List.append_assoc]
          rfl
      · rw [hsequence, h]
        exact ⟨reporter, found, _, hcall, hfirst, fun hnone => nomatch hnone⟩
  exact heach a.checkers a

/-- A property of states that every step keeps. At paths that can be entered, and outside all
blocks, `Entered` is known when checkers are called. -/
structure Invariant (fs : FileSystem) (Entered : String → Prop) (I : Analysis → Prop) : Prop where
  scope : ∀ a vars scope marks newFile, I a →
    I { a with vars := vars, scope := scope, marks := marks, newFile := newFile }
  putBack : ∀ a b, I a → I b → I (b.withFileOf a)
  enter : ∀ a path, I a →
    I (a.enterFile fs path).1 ∧ ((a.enterFile fs path).2 = .ok true → Entered path)
  visit : ∀ a e path, Entered path → I a → I (visit e path a).1
  outside : Entered ""

namespace Invariant

variable {Entered : String → Prop} {I : Analysis → Prop} {x y : Action}

/-- A sequence keeps what both its parts keep. -/
theorem andThen (hx : ∀ a, I a → I (x a).1) (hy : ∀ a, I a → I (y a).1) (a : Analysis) (ha : I a) :
    I (x.andThen y a).1 := by
  rcases andThen_cases x y a with ⟨-, h⟩ | ⟨e, -, h⟩
  · rw [h]
    exact hy _ (hx a ha)
  · rw [h]
    exact hx a ha

/-- The steps of the way through a tree keep an invariant, at paths that have been entered. -/
theorem law (h : Invariant fs Entered I) :
    Law fs (fun _ => True) fun path x _ => Entered path → ∀ a, I a → I (x a).1 where
  perm _ h := h
  done _ _ ha := ha
  andThen hx hy hp := andThen (hx hp) (hy hp)
  declare _ _ _ ha := h.scope _ _ _ _ _ ha
  among _ _ _ ha := h.scope _ _ _ _ _ ha
  visit e path hp a ha := h.visit a e path hp ha
  block {path parts nested l m} outer names e _ hparts hnested _ a ha := by
    obtain ⟨henter, hentered⟩ := h.enter a path ha
    rcases entering_cases fs path _ a with ⟨e, -, heq⟩ | ⟨-, heq⟩ | ⟨htrue, heq⟩
    · rw [heq]
      exact h.putBack a _ ha henter
    · rw [heq]
      exact h.putBack a _ ha henter
    rw [heq]
    have hp := hentered htrue
    have hclose (b : Analysis) (hb : I b) : I (change (·.closeScope) b).1 := by
      show I b.closeScope
      unfold Analysis.closeScope
      split
      · exact hb
      · exact h.scope b _ b.scope _ b.newFile hb
    refine h.putBack a _ ha (andThen (fun b hb => h.scope b b.vars b.scope _ b.newFile hb) ?_ _
      henter)
    refine andThen (fun b hb => h.scope b _ b.scope b.marks b.newFile hb) ?_
    refine andThen ?_ hclose
    have hnew (newFile : Bool) (b : Analysis) (hb : I b) :
        I (change ({ · with newFile := newFile }) b).1 :=
      h.scope b b.vars b.scope b.marks newFile hb
    exact andThen (hnew _) <| andThen (hparts hp) <| andThen (hnew _) <|
      andThen (fun b hb => h.visit b e path hp hb) <| andThen (hnew _) (hnested hp)

/-- However a tree is gone through, the state that is left has the invariant, up to the order of
the findings; and these are what the answer consists of. -/
theorem check (h : Invariant fs Entered I) {a : Analysis} (ha : I a.reset) (root : Element) :
    ∃ b found', I b ∧ (a.check fs root).2 = { b with found := found' } ∧
      ∀ found, (a.check fs root).1 = .ok found → found = Finding.sort b.found := by
  unfold Analysis.check
  cases hx : Action.root? fs root with
  | none => exact ⟨a.reset, [], ha, rfl, fun _ hok => nomatch hok⟩
  | some x =>
    have hb := h.law.root? trivial (fun _ _ _ _ => trivial) hx h.outside a.reset ha
    dsimp only
    generalize x a.reset = result at hb
    obtain ⟨b, stop⟩ := result
    cases stop with
    | none => exact ⟨b, _, hb, rfl, fun _ hok => (Except.ok.inj hok).symm⟩
    | some e => exact ⟨b, b.found, hb, rfl, fun _ hok => nomatch hok⟩

/-- An invariant that the beginning of a tree keeps is there before every tree. -/
theorem after (h : Invariant fs Entered I) (hreset : ∀ b, I b → I b.reset) :
    ∀ (roots : List Element) {a : Analysis}, I a.reset → I (a.after fs roots).reset
  | [], _, ha => ha
  | root :: roots, a, ha => by
    obtain ⟨b, _, hb, heq, -⟩ := h.check ha root
    have hroot : I (a.check fs root).2.reset := by
      rw [heq]
      exact hreset b hb
    exact after h hreset roots hroot

end Invariant

/-- Every finding of an answer stems from a checker. -/
theorem stemsFrom_of_check {a : Analysis} {root : Element} {found : List Finding}
    (hok : (a.check fs root).1 = .ok found) :
    ∀ f ∈ found, ∃ path, StemsFrom a.checkers path f := by
  have hinvariant : Invariant fs (fun _ => True) fun b =>
      b.checkers = a.checkers ∧ ∀ f ∈ b.found, ∃ path, StemsFrom a.checkers path f := by
    constructor
    case scope => exact fun _ _ _ _ _ h => h
    case putBack => exact fun _ _ _ h => h
    case outside => trivial
    case enter =>
      intro b path h
      obtain ⟨_, _, _, _, _, heq⟩ := Analysis.enterFile_eq fs b path
      rw [heq]
      exact ⟨h, fun _ => trivial⟩
    case visit =>
      intro b e path _ h
      obtain ⟨_, found, _, heq, hfound, -⟩ := visit_eq e path b
      rw [heq]
      refine ⟨h.1, fun f hf => ?_⟩
      rcases hfound f hf with hf | hstems
      · exact h.2 f hf
      · exact ⟨path, h.1 ▸ hstems⟩
  obtain ⟨b, -, hb, -, hsorted⟩ := hinvariant.check (a := a) ⟨rfl, fun _ hf => nomatch hf⟩ root
  intro f hf
  rw [hsorted found hok] at hf
  exact hb.2 f ((Finding.sort_perm _).mem_iff.1 hf)

end Action

end InfraSmells
