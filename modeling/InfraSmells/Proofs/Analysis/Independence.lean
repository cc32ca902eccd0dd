import InfraSmells.Proofs.Analysis.Induction
import InfraSmells.Config.BuiltIn
import InfraSmells.Proofs.Source.Cache

/-!
# One tree after the other

What an analysis says about a tree does not depend on the trees before it
(`check_after_eq_check`), however they ended. Two facts carry this. The way through a tree ends
with the current file it began with, on every exit (`law_current`), so that no tree
leaves a file behind. And as long as the paths of a tree are clean, it is the same with every
faithful reader (`law_blind`), so that what is left in the cache cannot be noticed. All else is
reset when a tree is begun.
-/

namespace InfraSmells

variable {fs : FileSystem}

/-- The path is empty or has its clean form. -/
def Path.IsClean (p : String) : Prop :=
  p = "" ∨ Path.clean p = p

namespace Analysis

/-- The analysis with another reader. -/
def withReader (a : Analysis) (r : Reader) : Analysis :=
  { a with reader := r }

/-- What an analysis never changes. -/
def team (a : Analysis) : Config × List Checker :=
  (a.config, a.checkers)

/-- The current file and what is known of it. -/
def current (a : Analysis) : Option SourceFile × Nat × Bool :=
  (a.file, a.firstCodeLine, a.newFile)

/-- A report changes the reporter and the findings only. -/
theorem report_eq (a : Analysis) (f : Finding) :
    ∃ reporter found, a.report f = { a with reporter := reporter, found := found } := by
  unfold report
  split
  · exact ⟨_, _, rfl⟩
  · exact ⟨_, _, rfl⟩

/-- Reports change the reporter and the findings only. -/
theorem reports_eq : ∀ (fs : List Finding) (a : Analysis),
    ∃ reporter found, fs.foldl report a = { a with reporter := reporter, found := found }
  | [], _ => ⟨_, _, rfl⟩
  | f :: fs, a => by
    obtain ⟨_, _, h⟩ := report_eq a f
    obtain ⟨reporter, found, h'⟩ := reports_eq fs (a.report f)
    exact ⟨reporter, found, by rw [List.foldl_cons, h', h]⟩

/-- Reports are the same with every reader. -/
theorem reports_withReader : ∀ (fs : List Finding) (a : Analysis) (r : Reader),
    fs.foldl report (a.withReader r) = (fs.foldl report a).withReader r
  | [], _, _ => rfl
  | f :: fs, a, r => by
    have hf : (a.withReader r).report f = (a.report f).withReader r := by
      unfold report withReader
      split <;> rfl
    rw [List.foldl_cons, List.foldl_cons, hf, reports_withReader fs]

/-- Taking a file as the current one has nothing to do with the checkers and with the reader. -/
theorem takeFile_withReader (fs : FileSystem) (a : Analysis) (r : Reader) (path : String)
    (result : Except ReadError SourceFile) :
    (a.takeFile fs path result).1.team = a.team ∧
      (a.takeFile fs path result).1.reader = a.reader ∧
      (a.withReader r).takeFile fs path result =
        ((a.takeFile fs path result).1.withReader r, (a.takeFile fs path result).2) := by
  unfold takeFile
  split
  · exact ⟨rfl, rfl, rfl⟩
  · exact ⟨rfl, rfl, rfl⟩
  · split
    · exact ⟨rfl, rfl, rfl⟩
    · exact ⟨rfl, rfl, rfl⟩

/-- Entering a file never changes the checkers. -/
theorem team_enterFile (fs : FileSystem) (a : Analysis) (path : String) :
    (a.enterFile fs path).1.team = a.team := by
  unfold enterFile
  split
  · rfl
  split
  · rfl
  split
  · rfl
  · exact (takeFile_withReader fs _ a.reader path _).1

/-- Entering a file at a clean path is the same with every faithful reader. -/
theorem enterFile_withReader {a : Analysis} {r : Reader} {path : String} (hp : Path.IsClean path)
    (ha : a.reader.Faithful fs) (hr : r.Faithful fs) :
    (a.enterFile fs path).1.reader.Faithful fs ∧ ∃ r' : Reader, r'.Faithful fs ∧
      (a.withReader r).enterFile fs path =
        ((a.enterFile fs path).1.withReader r', (a.enterFile fs path).2) := by
  have hfile : (a.withReader r).file = a.file := rfl
  have hskip : (a.withReader r).notText = a.notText := rfl
  have hreader : (a.withReader r).reader = r := rfl
  unfold enterFile
  rw [hfile, hskip]
  split
  · exact ⟨ha, r, hr, rfl⟩
  split
  · exact ⟨ha, r, hr, rfl⟩
  split
  · exact ⟨ha, r, hr, rfl⟩
  rename_i hempty _ _
  -- Both readers answer what a read without a cache answers.
  have ⟨hra, hfa⟩ := ha.load (hp.resolve_left hempty)
  have ⟨hrr, hfr⟩ := hr.load (hp.resolve_left hempty)
  rw [hreader]
  generalize a.reader.load fs path = answer at hra hfa
  generalize r.load fs path = answer' at hrr hfr
  obtain ⟨result, ra⟩ := answer
  obtain ⟨result', rr⟩ := answer'
  obtain rfl : result' = result := hrr.trans hra.symm
  obtain ⟨-, htaken, htake⟩ := takeFile_withReader fs { a with reader := ra } rr path result'
  refine ⟨?_, rr, hfr, htake⟩
  show (takeFile fs path _ result').1.reader.Faithful fs
  rw [htaken]
  exact hfa

end Analysis

namespace Action

/-- A sequence of two actions ends where the first stops, or else where the second ends. -/
theorem andThen_cases (x y : Action) (a : Analysis) :
    ((x a).2 = none ∧ x.andThen y a = y (x a).1) ∨
      (∃ e, (x a).2 = some e ∧ x.andThen y a = ((x a).1, some e)) := by
  unfold andThen
  obtain ⟨b, stop⟩ := x a
  cases stop with
  | none => exact .inl ⟨rfl, rfl⟩
  | some e => exact .inr ⟨e, rfl, rfl⟩

/-- Entering a block stops, passes the block over or goes through it; the current file is put back
in every case. -/
theorem entering_cases (fs : FileSystem) (path : String) (body : Bool → Action) (a : Analysis) :
    let b := (a.enterFile fs path).1
    (∃ e, (a.enterFile fs path).2 = .error e ∧
      entering fs path body a = (b.withFileOf a, some e)) ∨
    ((a.enterFile fs path).2 = .ok false ∧ entering fs path body a = (b.withFileOf a, none)) ∨
    ((a.enterFile fs path).2 = .ok true ∧ entering fs path body a =
      ((body b.newFile b).1.withFileOf a, (body b.newFile b).2)) := by
  unfold entering keepingFile
  dsimp only
  obtain ⟨b, answer⟩ := a.enterFile fs path
  match answer with
  | .error e => exact .inl ⟨e, rfl, rfl⟩
  | .ok false => exact .inr (.inl ⟨rfl, rfl⟩)
  | .ok true => exact .inr (.inr ⟨rfl, rfl⟩)

/-! ## What is kept on every exit -/

/-- However the action ends, it leaves `g` as it was. -/
def Keeps {β : Type} (g : Analysis → β) (x : Action) : Prop :=
  ∀ a, g (x a).1 = g a

section
variable {β : Type} {g : Analysis → β}

/-- A sequence keeps what both its parts keep. -/
theorem Keeps.andThen {x y : Action} (hx : x.Keeps g) (hy : y.Keeps g) :
    (x.andThen y).Keeps g := by
  intro a
  rcases andThen_cases x y a with ⟨-, h⟩ | ⟨e, -, h⟩
  · rw [h, hy, hx]
  · rw [h, hx]

/-- Actions for the items of a list keep what each of them keeps. -/
theorem Keeps.each {α : Type} {f : α → Action} (h : ∀ x, (f x).Keeps g) :
    ∀ xs, (Action.each f xs).Keeps g
  | [] => fun _ => rfl
  | x :: xs => (h x).andThen (Keeps.each h xs)

/-- The call of a checker keeps what does not depend on findings and calls. -/
theorem Keeps.call
    (hg : ∀ (a : Analysis) reporter found calls,
      g { a with reporter := reporter, found := found, calls := calls } = g a)
    (e : Element) (path : String) (c : Checker) : (call e path c).Keeps g := by
  intro a
  unfold Action.call
  dsimp only
  split
  · exact hg a _ _ _
  · next found _ =>
    obtain ⟨_, _, h⟩ := Analysis.reports_eq found
      { a with calls := ⟨c, a.context, e, path⟩ :: a.calls }
    rw [h]
    exact hg a _ _ _

/-- A visit keeps what does not depend on findings and calls. -/
theorem Keeps.visit
    (hg : ∀ (a : Analysis) reporter found calls,
      g { a with reporter := reporter, found := found, calls := calls } = g a)
    (e : Element) (path : String) : (visit e path).Keeps g :=
  fun a => Keeps.each (Keeps.call hg e path) a.checkers a

/-- An action in a file keeps what the steps around it keep. -/
theorem Keeps.inside (hg : ∀ (a : Analysis) newFile, g { a with newFile := newFile } = g a)
    {before after : Action} {e : Element} {path : String} (hb : before.Keeps g)
    (hv : (Action.visit e path).Keeps g) (ha : after.Keeps g) (newFile : Bool) :
    (inside newFile before after e path).Keeps g := by
  have hnew (b : Bool) : (change ({ · with newFile := b })).Keeps g := fun a => hg a b
  exact (hnew _).andThen <| hb.andThen <| (hnew _).andThen <| hv.andThen <| (hnew _).andThen ha

end

/-- The steps of the way through a tree never change the checkers. -/
theorem law_team (fs : FileSystem) :
    Law fs (fun _ => True) fun _ x _ => x.Keeps Analysis.team where
  perm _ h := h
  done _ := rfl
  andThen := Keeps.andThen
  declare _ _ := rfl
  among _ _ := rfl
  visit := Keeps.visit fun _ _ _ _ => rfl
  block {path parts nested} _ _ _ names e _ hparts hnested := by
    have hclose : (change (·.closeScope)).Keeps Analysis.team := by
      intro a
      show a.closeScope.team = a.team
      unfold Analysis.closeScope
      split <;> rfl
    have hbody (newFile : Bool) :
        ((change (·.openScope)).andThen <| (change (·.declare names)).andThen <|
          (inside newFile parts nested e path).andThen <| change (·.closeScope)).Keeps
            Analysis.team :=
      Keeps.andThen (fun _ => rfl) <| Keeps.andThen (fun _ => rfl) <|
        (Keeps.inside (fun _ _ => rfl) hparts (Keeps.visit (fun _ _ _ _ => rfl) e path)
          hnested newFile).andThen hclose
    intro a
    rw [← Analysis.team_enterFile fs a path]
    rcases entering_cases fs path _ a with ⟨e, h, heq⟩ | ⟨h, heq⟩ | ⟨h, heq⟩
    · rw [heq]; rfl
    · rw [heq]; rfl
    · rw [heq]
      exact hbody _ (a.enterFile fs path).1

/-- The steps of the way through a tree end with the current file they began with. -/
theorem law_current (fs : FileSystem) :
    Law fs (fun _ => True) fun _ x _ => x.Keeps Analysis.current where
  perm _ h := h
  done _ := rfl
  andThen := Keeps.andThen
  declare _ _ := rfl
  among _ _ := rfl
  visit := Keeps.visit fun _ _ _ _ => rfl
  block _ _ _ _ _ _ _ := rfl

/-! ## What the reader has no part in -/

/-- The action is the same with every faithful reader, and leaves a faithful one, however it ends.
-/
def Blind (fs : FileSystem) (x : Action) : Prop :=
  ∀ (a : Analysis) (r : Reader), a.reader.Faithful fs → r.Faithful fs →
    (x a).1.reader.Faithful fs ∧ ∃ r' : Reader, r'.Faithful fs ∧
      x (a.withReader r) = ((x a).1.withReader r', (x a).2)

/-- A change that has nothing to do with the reader. -/
theorem Blind.change {f : Analysis → Analysis} (hf : ∀ a, (f a).reader = a.reader)
    (h : ∀ a r, f (a.withReader r) = (f a).withReader r) : Blind fs (change f) := by
  intro a r ha hr
  refine ⟨?_, r, hr, ?_⟩
  · show (f a).reader.Faithful fs
    rw [hf]
    exact ha
  · show (f (a.withReader r), none) = _
    rw [h]
    rfl

/-- A sequence of two actions that the reader has no part in. -/
theorem Blind.andThen {x y : Action} (hx : Blind fs x) (hy : Blind fs y) :
    Blind fs (x.andThen y) := by
  intro a r ha hr
  obtain ⟨hxa, r₁, hr₁, h₁⟩ := hx a r ha hr
  unfold Action.andThen
  rw [h₁]
  generalize x a = result at hxa
  obtain ⟨b, stop⟩ := result
  cases stop with
  | none => exact hy b r₁ hxa hr₁
  | some e => exact ⟨hxa, r₁, hr₁, rfl⟩

/-- A visit has nothing to do with the reader. -/
theorem Blind.visit (e : Element) (path : String) : Blind fs (visit e path) := by
  have hcall (c : Checker) : Blind fs (call e path c) := by
    intro a r ha hr
    have hc : (a.withReader r).context = a.context := rfl
    unfold call
    rw [hc]
    dsimp only
    split
    · exact ⟨ha, r, hr, rfl⟩
    · next found _ =>
      obtain ⟨_, _, h⟩ := Analysis.reports_eq found
        { a with calls := ⟨c, a.context, e, path⟩ :: a.calls }
      refine ⟨by rw [h]; exact ha, r, hr, ?_⟩
      rw [← Analysis.reports_withReader]
      rfl
  have heach : ∀ cs : List Checker, Blind fs (each (call e path) cs) := by
    intro cs
    induction cs with
    | nil => exact fun a r ha hr => ⟨ha, r, hr, rfl⟩
    | cons c cs ih => exact (hcall c).andThen ih
  exact fun a r => heach a.checkers a r

/-- Entering a block at a clean path, if what is done inside has nothing to do with the reader. -/
theorem Blind.entering {path : String} (hp : Path.IsClean path) {body : Bool → Action}
    (h : ∀ newFile, Blind fs (body newFile)) : Blind fs (entering fs path body) := by
  intro a r ha hr
  obtain ⟨hea, r₁, hr₁, h₁⟩ := Analysis.enterFile_withReader hp ha hr
  unfold Action.entering keepingFile
  dsimp only
  rw [h₁]
  generalize a.enterFile fs path = result at hea
  obtain ⟨b, answer⟩ := result
  match answer with
  | .error e => exact ⟨hea, r₁, hr₁, rfl⟩
  | .ok false => exact ⟨hea, r₁, hr₁, rfl⟩
  | .ok true =>
    obtain ⟨hb, r₂, hr₂, h₂⟩ := h b.newFile b r₁ hea hr₁
    refine ⟨hb, r₂, hr₂, ?_⟩
    show ((body b.newFile (b.withReader r₁)).1.withFileOf _,
      (body b.newFile (b.withReader r₁)).2) = _
    rw [h₂]
    rfl

/-- The reader has no part in the steps of the way through a tree, at clean paths. -/
theorem law_blind (fs : FileSystem) : Law fs Path.IsClean fun _ x _ => Blind fs x where
  perm _ h := h
  done := fun a r ha hr => ⟨ha, r, hr, rfl⟩
  andThen := Blind.andThen
  declare _ := Blind.change (fun _ => rfl) fun _ _ => rfl
  among _ := Blind.change (fun _ => rfl) fun _ _ => rfl
  visit := Blind.visit
  block _ names e hp hparts hnested := by
    have hnew (b : Bool) : Blind fs (change ({ · with newFile := b })) :=
      Blind.change (fun _ => rfl) fun _ _ => rfl
    have hclose : Blind fs (change (·.closeScope)) := by
      refine Blind.change (fun a => ?_) fun a r => ?_
      · unfold Analysis.closeScope
        split <;> rfl
      · unfold Analysis.closeScope Analysis.withReader
        dsimp only
        split <;> rfl
    refine Blind.entering hp fun newFile => ?_
    refine Blind.andThen (Blind.change (fun _ => rfl) fun _ _ => rfl) ?_
    refine Blind.andThen (Blind.change (fun _ => rfl) fun _ _ => rfl) ?_
    refine Blind.andThen ?_ hclose
    exact (hnew _).andThen <| hparts.andThen <| (hnew _).andThen <| (Blind.visit e _).andThen <|
      (hnew _).andThen hnested

end Action

/-! ## The analysis between two trees -/

namespace Analysis

/-- Between two trees: no file is current, and the reader is faithful. -/
structure Idle (fs : FileSystem) (a : Analysis) : Prop where
  current : a.current = (none, 0, false)
  reader : a.reader.Faithful fs

/-- An idle analysis begins a tree in the same state as any other with the same checkers, but for
the reader. -/
theorem Idle.reset_eq {a b : Analysis} (ha : a.Idle fs) (hb : b.Idle fs) (ht : a.team = b.team) :
    a.reset = b.reset.withReader a.reader := by
  have hc := ha.current.trans hb.current.symm
  simp only [Analysis.current, team, Prod.mk.injEq] at hc ht
  unfold reset withReader
  rw [hc.1, hc.2.1, hc.2.2, ht.1, ht.2]

/-- If the way through a tree comes to its end, the answer is what was found, in order. -/
theorem check_of_end {a b : Analysis} {root : Element} {x : Action}
    (hx : Action.root? fs root = some x) (hend : x a.reset = (b, none)) :
    a.check fs root = (.ok (Finding.sort b.found), { b with found := Finding.sort b.found }) := by
  unfold Analysis.check
  rw [hx]
  dsimp only
  rw [hend]

/-- A tree to which there is an answer was gone through to its end. -/
theorem end_of_check {a : Analysis} {root : Element} {found : List Finding}
    (hok : (a.check fs root).1 = .ok found) :
    ∃ x b, Action.root? fs root = some x ∧ x a.reset = (b, none) ∧ found = Finding.sort b.found := by
  cases hx : Action.root? fs root with
  | none =>
    unfold Analysis.check at hok
    rw [hx] at hok
    cases hok
  | some x =>
    obtain ⟨⟨b, stop⟩, hend⟩ : ∃ result, x a.reset = result := ⟨_, rfl⟩
    cases stop with
    | some e =>
      unfold Analysis.check at hok
      rw [hx] at hok
      dsimp only at hok
      rw [hend] at hok
      cases hok
    | none =>
      rw [check_of_end hx hend] at hok
      exact ⟨x, b, rfl, hend, (Except.ok.inj hok).symm⟩

/-- A tree leaves an idle analysis idle, with the checkers it had, however it ends. -/
theorem Idle.check {a : Analysis} (h : a.Idle fs) {root : Element}
    (hp : root.PathsAre Path.IsClean) :
    (a.check fs root).2.Idle fs ∧ (a.check fs root).2.team = a.team := by
  unfold Analysis.check
  cases hx : Action.root? fs root with
  | none => exact ⟨⟨h.current, h.reader⟩, rfl⟩
  | some x =>
    have hcurrent := (Action.law_current fs).root? trivial (fun _ _ _ _ => trivial) hx a.reset
    have hteam := (Action.law_team fs).root? trivial (fun _ _ _ _ => trivial) hx a.reset
    have hreader := ((Action.law_blind fs).root? (.inl rfl) hp hx a.reset a.reader h.reader
      h.reader).1
    dsimp only
    generalize x a.reset = result at hcurrent hteam hreader
    obtain ⟨b, stop⟩ := result
    cases stop with
    | none => exact ⟨⟨hcurrent.trans h.current, hreader⟩, hteam⟩
    | some e => exact ⟨⟨hcurrent.trans h.current, hreader⟩, hteam⟩

/-- Several trees leave an idle analysis idle, with the checkers it had. -/
theorem Idle.after {a : Analysis} (h : a.Idle fs) {roots : List Element}
    (hp : ∀ root ∈ roots, root.PathsAre Path.IsClean) :
    (a.after fs roots).Idle fs ∧ (a.after fs roots).team = a.team := by
  induction roots generalizing a with
  | nil => exact ⟨h, rfl⟩
  | cons root roots ih =>
    have ⟨hidle, hteam⟩ := h.check (hp root (.head _))
    have ⟨hidle', hteam'⟩ := ih hidle fun r hr => hp r (.tail _ hr)
    exact ⟨hidle', hteam'.trans hteam⟩

/-- Idle analyses with the same checkers say the same about a tree. -/
theorem Idle.check_eq {a b : Analysis} (ha : a.Idle fs) (hb : b.Idle fs) (ht : a.team = b.team)
    {root : Element} (hp : root.PathsAre Path.IsClean) :
    (a.check fs root).1 = (b.check fs root).1 := by
  unfold Analysis.check
  cases hx : Action.root? fs root with
  | none => rfl
  | some x =>
    obtain ⟨-, r, -, h⟩ := (Action.law_blind fs).root? (.inl rfl) hp hx b.reset a.reader
      hb.reader ha.reader
    dsimp only
    rw [ha.reset_eq hb ht, h]
    obtain ⟨c, stop⟩ := x b.reset
    cases stop <;> rfl

/-- What an analysis says about a tree is what a new one would say, whichever trees it has been
through before and however it came through them. -/
theorem check_after_eq_check (fs : FileSystem) (config : Config) (checkers : List Checker)
    (size : Int) (earlier : List Element) (root : Element)
    (hearlier : ∀ e ∈ earlier, e.PathsAre Path.IsClean) (hroot : root.PathsAre Path.IsClean) :
    (((fresh config checkers size).after fs earlier).check fs root).1 =
      ((fresh config checkers size).check fs root).1 := by
  have hfresh : (fresh config checkers size).Idle fs := ⟨rfl, Reader.keeps_ofSize fs _ size⟩
  have ⟨hidle, hteam⟩ := hfresh.after hearlier
  exact hidle.check_eq hfresh hteam hroot

/-- A checker that breaks down over comments, and says of all else which variables are in scope. -/
def fragile : Checker where
  name := "fragile"
  check c e path :=
    match e with
    | .comment _ => none
    | _ => some [.about "code" e path (Text.join "," c.vars)]

/-- A block with a variable and comments. -/
def blockOf (path : String) (comments : List Comment) : Element :=
  .block ⟨.nowhere, "b", .script, path, [], [.ofValue .var "v" .absent .nowhere], [], [], [],
    comments, []⟩

/-- Only the path of the block itself is written in it. -/
theorem pathsAre_blockOf {path : String} (h : Path.IsClean path) (comments : List Comment) :
    (blockOf path comments).PathsAre Path.IsClean := by
  refine Element.pathsAre_iff.2 ⟨fun p hp => ?_, fun c hc => ?_⟩
  · cases hp
    exact h
  · rcases List.mem_cons.1 hc with rfl | hc
    · exact .of_leaf rfl rfl
    · obtain ⟨comment, -, rfl⟩ := List.mem_map.1 (by simpa [blockOf] using hc)
      exact .of_leaf rfl rfl

/-- The checker breaks down on a script and a comment is no root, and the reader has read the file of the
last tree before; the answer about that tree is the one of a new analysis. -/
theorem check_after_eq_check_fragile :
    let a := fresh (.builtIn .terraform) [fragile] 1
    let fs := (FileSystem.empty ["w"]).write "a.tf" [0x61, 0x0A]
    (a.check fs (blockOf "" [⟨.nowhere, ""⟩])).1 = .error .breakdown ∧
      ((a.after fs [blockOf "a.tf" [⟨.nowhere, ""⟩], .comment ⟨.nowhere, ""⟩]).check fs
        (blockOf "a.tf" [])).1 = (a.check fs (blockOf "a.tf" [])).1 := by
  refine ⟨rfl, check_after_eq_check _ _ _ _ _ _ ?_ ?_⟩
  · intro e he
    rcases List.mem_cons.1 he with rfl | he
    · exact pathsAre_blockOf (.inr (by decide)) _
    · obtain rfl := List.mem_singleton.1 he
      exact .of_leaf rfl rfl
  · exact pathsAre_blockOf (.inr (by decide)) []

end Analysis

end InfraSmells
