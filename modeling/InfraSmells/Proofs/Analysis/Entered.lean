import InfraSmells.Proofs.Analysis.Alike
import InfraSmells.Proofs.Analysis.Sites

/-!
# What is found in new files

In the way through a tree the current file is at any time that of the block around (`Analysis.At`), and
a file is new to a block if it is another one. So what checks of new files find in a block is what there
is to show at its site (`Action.descent_adds`), and what they find in a tree is what there is in the
files that it enters, each of them once (`Analysis.check_entered`).
-/

namespace InfraSmells

variable {fs : FileSystem} {about : SourceFile → String → Finding.Key → Prop}

/-! ## States in a block -/

/-- In a block at the path: the current file is the one of this path, and what is kept of files and
findings is what there is. -/
structure Analysis.At (fs : FileSystem) (checkers : List Checker) (path : String) (a : Analysis) : Prop where
  checkers : a.checkers = checkers
  reader : a.reader.Faithful fs
  file : a.file = (fs.source path).toOption
  notText : ∀ p ∈ a.notText, ¬fs.Legible p
  seen : ∀ k, k ∈ a.reporter.seen ↔ k ∈ a.keys
  nodup : a.keys.Nodup

/-- A file is new to a block at the path, if there is one and it is not that of the block around. -/
def FileSystem.isNew (fs : FileSystem) (outer path : String) : Bool :=
  (fs.fileAt path).isSome && fs.fileAt outer != some path

/-- A file is new to a block if the file that is current around it is another one. -/
theorem FileSystem.isNew_iff {outer path : String} {f : SourceFile} (h : fs.source path = .ok f) :
    fs.isNew outer path = true ↔ fs.fileAt outer ≠ some path := by
  have hfile : fs.fileAt path = some path := by rw [fileAt, h]
  simp [isNew, hfile]

namespace Analysis

variable {checkers : List Checker} {outer path : String} {a b : Analysis}

/-- The path of the current file. -/
theorem At.path_of_file (h : a.At fs checkers path) : a.file.map (·.path) = fs.fileAt path := by
  rw [h.file, FileSystem.fileAt]
  cases hsource : fs.source path with
  | ok f => exact congrArg some (FileSystem.path_of_source hsource)
  | error e => rfl

/-- With the current file put back, the state is one of the block around again. -/
theorem At.withFileOf (h : b.At fs checkers path) (ha : a.At fs checkers outer) :
    (b.withFileOf a).At fs checkers outer :=
  { h with file := ha.file }

/-- Entering a file at a clean path finds nothing. It leads into a block at the path, unless the file is no
text, and whether the file is new is known then. -/
theorem At.enterFile (h : a.At fs checkers outer) (hp : Path.IsClean path) :
    (a.enterFile fs path).1.keys = a.keys ∧
    ((a.enterFile fs path).2 = .ok false →
      ¬fs.Legible path ∧ ((a.enterFile fs path).1.withFileOf a).At fs checkers outer) ∧
    ((a.enterFile fs path).2 = .ok true →
      fs.Legible path ∧ (a.enterFile fs path).1.At fs checkers path ∧
        (a.enterFile fs path).1.newFile = fs.isNew outer path) := by
  obtain ⟨reader, notText, hreader, hnotText, henter⟩ := enterFile_eq_arrive h.reader h.notText hp
  have hcurrent : a.file.map (·.path) = fs.fileAt outer := h.path_of_file
  rw [henter]
  unfold Analysis.arrive
  split
  · next hempty =>
    subst hempty
    refine ⟨rfl, fun hok => (nomatch hok), fun _ => ⟨fs.legible_empty, ?_, rfl⟩⟩
    exact ⟨h.checkers, hreader, rfl, hnotText, h.seen, h.nodup⟩
  split
  · next hsame =>
    rw [hcurrent] at hsame
    obtain ⟨rfl, f, hsource⟩ := FileSystem.fileAt_eq_some hsame
    refine ⟨rfl, fun hok => (nomatch hok), fun _ => ⟨FileSystem.legible_of_source hsource rfl, ?_, ?_⟩⟩
    · exact ⟨h.checkers, hreader, h.file, hnotText, h.seen, h.nodup⟩
    · simp [FileSystem.isNew, hsame]
  next hother =>
  rw [hcurrent] at hother
  unfold takeFile
  split
  · next f hsource =>
    refine ⟨rfl, fun hok => (nomatch hok), fun _ => ⟨FileSystem.legible_of_source hsource rfl, ?_, ?_⟩⟩
    · exact ⟨h.checkers, hreader, by rw [hsource]; rfl, hnotText, h.seen, h.nodup⟩
    · have hfile : fs.fileAt path = some path := by rw [FileSystem.fileAt, hsource]
      simp [FileSystem.isNew, hfile, hother]
  · next hsource =>
    refine ⟨rfl, fun _ => ⟨FileSystem.not_legible_of_source hsource, ?_⟩, fun hok => nomatch hok⟩
    exact ⟨h.checkers, hreader, h.file, hnotText, h.seen, h.nodup⟩
  · next e hsource =>
    have hnone : fs.fileAt path = none := by rw [FileSystem.fileAt, hsource]
    split
    · refine ⟨rfl, fun hok => (nomatch hok), fun _ =>
        ⟨FileSystem.legible_of_source_error hsource, ?_, by simp [FileSystem.isNew, hnone, leaveFile]⟩⟩
      exact ⟨h.checkers, hreader, by rw [hsource]; rfl, hnotText, h.seen, h.nodup⟩
    · exact ⟨rfl, fun hok => (nomatch hok), fun hok => nomatch hok⟩

/-- A checker that does not break down adds the keys of what it reports, files known not to be text
apart. -/
theorem At.call (h : a.At fs checkers path) (e : Element) (place : String) (c : Checker)
    (hnone : (Action.call e place c a).2 = none) :
    let b := (Action.call e place c a).1
    b.At fs checkers path ∧ b.context = a.context ∧ b.notText = a.notText ∧
      ∀ k, k ∈ b.keys ↔ k ∈ a.keys ∨ ∃ found, c.check a.context e place = some found ∧
        ∃ f ∈ found, f.path ∉ a.notText ∧ f.key = k := by
  unfold Action.call at hnone ⊢
  cases hcheck : c.check a.context e place with
  | none => simp [hcheck] at hnone
  | some found =>
    dsimp only
    obtain ⟨hseen, hkeys, hnodup⟩ := reports_keys found
      (a := { a with calls := ⟨c, a.context, e, place⟩ :: a.calls }) h.seen
    obtain ⟨_, _, heq⟩ := reports_eq found { a with calls := ⟨c, a.context, e, place⟩ :: a.calls }
    rw [heq] at hseen hkeys hnodup ⊢
    refine ⟨?_, rfl, rfl, fun k => (hkeys k).trans (or_congr_right ?_)⟩
    · exact ⟨h.checkers, h.reader, h.file, h.notText, hseen, hnodup h.nodup⟩
    · simp

/-- A visit that does not stop adds the keys of what the checkers report, files known not to be text
apart. -/
theorem At.visit (h : a.At fs checkers path) (e : Element) (place : String)
    (hnone : (Action.visit e place a).2 = none) :
    (Action.visit e place a).1.At fs checkers path ∧
      ∀ k, k ∈ (Action.visit e place a).1.keys ↔ k ∈ a.keys ∨
        ∃ c ∈ checkers, ∃ found, c.check a.context e place = some found ∧
          ∃ f ∈ found, f.path ∉ a.notText ∧ f.key = k := by
  have heach : ∀ (cs : List Checker) {a : Analysis}, a.At fs checkers path →
      (Action.each (Action.call e place) cs a).2 = none →
      (Action.each (Action.call e place) cs a).1.At fs checkers path ∧
        ∀ k, k ∈ (Action.each (Action.call e place) cs a).1.keys ↔ k ∈ a.keys ∨
          ∃ c ∈ cs, ∃ found, c.check a.context e place = some found ∧
            ∃ f ∈ found, f.path ∉ a.notText ∧ f.key = k := by
    intro cs
    induction cs with
    | nil => exact fun h _ => ⟨h, fun k => by simp [Action.each, Action.done]⟩
    | cons c cs ih =>
      intro a h hnone
      have hsequence : Action.each (Action.call e place) (c :: cs) a =
        (Action.call e place c).andThen (Action.each (Action.call e place) cs) a := rfl
      rw [hsequence] at hnone ⊢
      rcases Action.andThen_cases (Action.call e place c) (Action.each (Action.call e place) cs) a with
        ⟨hfirst, heq⟩ | ⟨_, -, heq⟩
      · rw [heq] at hnone ⊢
        obtain ⟨hcall, hcontext, hnotText, hkeys⟩ := h.call e place c hfirst
        obtain ⟨hrest, hkeys'⟩ := ih hcall hnone
        refine ⟨hrest, fun k => ?_⟩
        rw [hkeys', hkeys, hcontext, hnotText, or_assoc, List.exists_mem_cons_iff]
      · rw [heq] at hnone
        cases hnone
  have hvisit : Action.visit e place a = Action.each (Action.call e place) checkers a := by
    rw [← h.checkers]
    rfl
  rw [hvisit] at hnone ⊢
  exact heach checkers h hnone

end Analysis

/-! ## Checks of new files -/

/-- Of the keys in `K`, the checkers report those that `about` gives for a file, whenever they are shown
the file as a new one at a block that is more than a part of a script, and at no other time. -/
structure CheckNewFiles (K : Finding.Key → Prop) (about : SourceFile → String → Finding.Key → Prop)
    (checkers : List Checker) : Prop where
  path : ∀ c ∈ checkers, ∀ context e path found, c.check context e path = some found →
    ∀ f ∈ found, K f.key → f.path = path
  sound : ∀ c ∈ checkers, ∀ context e path found, c.check context e path = some found →
    ∀ f ∈ found, K f.key → ∃ b file, Design.fileBlock? context e = some b ∧
      context.file = some file ∧ about file path f.key
  complete : ∀ context e path b file k, Design.fileBlock? context e = some b →
    context.file = some file → about file path k → ∃ c ∈ checkers, ∃ found,
      c.check context e path = some found ∧ ∃ f ∈ found, f.key = k

/-- The block through which a file is checked. -/
theorem Design.fileBlock?_eq_some {c : Context} {e : Element} {b : Block} :
    Design.fileBlock? c e = some b ↔
      e = .block b ∧ b.type ≠ .block ∧ c.file.isSome = true ∧ c.newFile = true := by
  unfold Design.fileBlock?
  split
  · simp only [Option.ite_none_right_eq_some, Bool.and_eq_true, bne_iff_ne, Option.some.injEq,
      Element.block.injEq]
    constructor
    · rintro ⟨⟨⟨htype, hfile⟩, hnew⟩, rfl⟩
      exact ⟨rfl, htype, hfile, hnew⟩
    · rintro ⟨rfl, htype, hfile, hnew⟩
      exact ⟨⟨⟨htype, hfile⟩, hnew⟩, rfl⟩
  · next hother => exact ⟨fun h => (nomatch h), fun h => absurd h.1 (hother b)⟩

namespace Action

variable {K : Finding.Key → Prop} {checkers : List Checker} {outer path : String} {x y : Action}
  {l m : Finding.Key → Prop}

/-- In a block at the path, the action adds these of the keys in `K`, unless it stops. -/
def Adds (fs : FileSystem) (checkers : List Checker) (K : Finding.Key → Prop) (path : String)
    (x : Action) (new : Finding.Key → Prop) : Prop :=
  ∀ a : Analysis, a.At fs checkers path → (x a).2 = none →
    (x a).1.At fs checkers path ∧ ∀ k, K k → (k ∈ (x a).1.keys ↔ k ∈ a.keys ∨ new k)

/-- What is added may be described in another way. -/
theorem Adds.congr (h : Adds fs checkers K path x l) (hlm : ∀ k, l k ↔ m k) :
    Adds fs checkers K path x m := by
  intro a ha hnone
  obtain ⟨hleft, hkeys⟩ := h a ha hnone
  exact ⟨hleft, fun k hk => (hkeys k hk).trans (or_congr_right (hlm k))⟩

/-- A change of scopes adds nothing. -/
theorem Adds.change {f : Analysis → Analysis}
    (hf : ∀ a, ∃ vars scope marks newFile, f a =
      { a with vars := vars, scope := scope, marks := marks, newFile := newFile }) :
    Adds fs checkers K path (change f) fun _ => False := by
  intro a ha _
  obtain ⟨_, _, _, _, heq⟩ := hf a
  show (f a).At fs checkers path ∧ ∀ k, K k → (k ∈ (f a).keys ↔ _)
  rw [heq]
  exact ⟨{ ha with }, fun k _ => (or_iff_left id).symm⟩

/-- A sequence adds what its parts add. -/
theorem Adds.andThen (hx : Adds fs checkers K path x l) (hy : Adds fs checkers K path y m) :
    Adds fs checkers K path (x.andThen y) fun k => l k ∨ m k := by
  intro a ha hnone
  rcases andThen_cases x y a with ⟨hfirst, heq⟩ | ⟨_, -, heq⟩
  · rw [heq] at hnone ⊢
    obtain ⟨hleft, hkeys⟩ := hx a ha hfirst
    obtain ⟨hleft', hkeys'⟩ := hy _ hleft hnone
    exact ⟨hleft', fun k hk => by rw [hkeys' k hk, hkeys k hk, or_assoc]⟩
  · rw [heq] at hnone
    cases hnone

/-- Of the keys in `K`, a visit that does not stop adds something only at a block that is more than a part
of a script, and only when the file is shown as a new one. -/
theorem visit_keys (hcheck : CheckNewFiles K about checkers) {a : Analysis}
    (ha : a.At fs checkers path) (hp : fs.Legible path) {e : Element}
    (hnone : (visit e path a).2 = none) :
    (visit e path a).1.At fs checkers path ∧ ∀ k, K k → (k ∈ (visit e path a).1.keys ↔ k ∈ a.keys ∨
      a.newFile = true ∧ ∃ b f, e = .block b ∧ b.type ≠ .block ∧ fs.source path = .ok f ∧
        about f path k) := by
  obtain ⟨hleft, hkeys⟩ := ha.visit e path hnone
  refine ⟨hleft, fun k hk => (hkeys k).trans (or_congr_right ?_)⟩
  have hfile {f : SourceFile} : a.file = some f ↔ fs.source path = .ok f := by
    rw [ha.file]
    cases fs.source path <;> simp [Except.toOption]
  constructor
  · rintro ⟨c, hc, found, hfound, f, hf, -, rfl⟩
    obtain ⟨b, file, hblock, hcurrent, habout⟩ := hcheck.sound c hc _ e path found hfound f hf hk
    obtain ⟨he, htype, -, hnew⟩ := Design.fileBlock?_eq_some.1 hblock
    exact ⟨hnew, b, file, he, htype, hfile.1 hcurrent, habout⟩
  · rintro ⟨hnew, b, file, he, htype, hsource, habout⟩
    have hcurrent : a.file = some file := hfile.2 hsource
    have hblock : Design.fileBlock? a.context e = some b :=
      Design.fileBlock?_eq_some.2 ⟨he, htype, by simp [Analysis.context, hcurrent], hnew⟩
    obtain ⟨c, hc, found, hfound, f, hf, rfl⟩ :=
      hcheck.complete _ e path b file k hblock hcurrent habout
    refine ⟨c, hc, found, hfound, f, hf, ?_, rfl⟩
    rw [hcheck.path c hc _ e path found hfound f hf hk]
    exact fun hmem => ha.notText path hmem hp

/-- The visit of an element other than a block adds nothing. -/
theorem Adds.visit (hcheck : CheckNewFiles K about checkers) (hp : fs.Legible path) {e : Element}
    (he : ∀ b, e ≠ .block b) : Adds fs checkers K path (visit e path) fun _ => False := by
  intro a ha hnone
  obtain ⟨hleft, hkeys⟩ := visit_keys hcheck ha hp hnone
  refine ⟨hleft, fun k hk => (hkeys k hk).trans (or_congr_right (iff_false_intro ?_))⟩
  rintro ⟨-, b, _, hb, -⟩
  exact he b hb

/-- The visit of a block adds what is shown if the file is new, unless the block is a part of a script. -/
theorem Adds.visitBlock (hcheck : CheckNewFiles K about checkers) (hp : fs.Legible path) (b : Block)
    (newFile : Bool) :
    Adds fs checkers K path
      ((Action.change ({ · with newFile := newFile })).andThen (Action.visit (.block b) path))
      fun k => newFile = true ∧ b.type ≠ .block ∧ ∃ f, fs.source path = .ok f ∧ about f path k := by
  intro a ha hnone
  obtain ⟨hleft, hkeys⟩ :=
    visit_keys hcheck (a := { a with newFile := newFile }) { ha with } hp hnone
  refine ⟨hleft, fun k hk => (hkeys k hk).trans (or_congr_right (and_congr_right fun _ => ?_))⟩
  constructor
  · rintro ⟨_, f, heq, htype, hrest⟩
    cases heq
    exact ⟨htype, f, hrest⟩
  · rintro ⟨htype, f, hrest⟩
    exact ⟨b, f, rfl, htype, hrest⟩

/-- What a block adds is added if its file is text or none; whether the file is new there depends on the
block around. -/
theorem Adds.entering (hp : Path.IsClean path) {body : Bool → Action} {new : Bool → Finding.Key → Prop}
    (hbody : fs.Legible path → ∀ newFile, Adds fs checkers K path (body newFile) (new newFile)) :
    Adds fs checkers K outer (entering fs path body) fun k =>
      fs.Legible path ∧ new (fs.isNew outer path) k := by
  intro a ha hnone
  obtain ⟨hfound, hskip, henter⟩ := ha.enterFile hp
  rcases entering_cases fs path body a with ⟨_, -, heq⟩ | ⟨hfalse, heq⟩ | ⟨htrue, heq⟩
  · rw [heq] at hnone
    cases hnone
  · obtain ⟨hillegible, hleft⟩ := hskip hfalse
    rw [heq]
    refine ⟨hleft, fun k _ => ?_⟩
    show k ∈ (a.enterFile fs path).1.keys ↔ _
    rw [hfound]
    exact ⟨.inl, Or.rec id fun h => absurd h.1 hillegible⟩
  · obtain ⟨hlegible, hentered, hnew⟩ := henter htrue
    rw [heq] at hnone ⊢
    rw [hnew] at hnone ⊢
    obtain ⟨hleft, hkeys⟩ := hbody hlegible _ _ hentered hnone
    refine ⟨hleft.withFileOf ha, fun k hk => ?_⟩
    exact (hfound ▸ hkeys k hk).trans (or_congr_right (and_iff_right hlegible).symm)

/-- A block adds what its parts add, what the block itself adds if its file is new, and what the blocks
nested in it add. -/
theorem Adds.block (hcheck : CheckNewFiles K about checkers) (hclean : Path.IsClean path)
    {parts nested : Action} (hparts : fs.Legible path → Adds fs checkers K path parts l)
    (hnested : fs.Legible path → Adds fs checkers K path nested m) (names : List String) (b : Block) :
    Adds fs checkers K outer (Action.entering fs path fun newFile =>
        (Action.change (·.openScope)).andThen <|
        (Action.change (·.declare names)).andThen <|
        (Action.inside newFile parts nested (.block b) path).andThen <|
        Action.change (·.closeScope)) fun k =>
      fs.Legible path ∧ (l k ∨ (fs.isNew outer path = true ∧ b.type ≠ .block ∧
        ∃ f, fs.source path = .ok f ∧ about f path k) ∨ m k) := by
  have hclose (a : Analysis) : ∃ vars scope marks newFile, a.closeScope =
      { a with vars := vars, scope := scope, marks := marks, newFile := newFile } := by
    unfold Analysis.closeScope
    split
    · exact ⟨_, _, _, _, rfl⟩
    · exact ⟨_, _, _, _, rfl⟩
  have hnew (newFile : Bool) :
      Adds fs checkers K path (Action.change ({ · with newFile := newFile })) fun _ => False :=
    Adds.change fun _ => ⟨_, _, _, _, rfl⟩
  have hbody (hp : fs.Legible path) (newFile : Bool) : Adds fs checkers K path
      ((Action.change (·.openScope)).andThen <|
        (Action.change (·.declare names)).andThen <|
        (Action.inside newFile parts nested (.block b) path).andThen <|
        Action.change (·.closeScope)) fun k =>
      l k ∨ (newFile = true ∧ b.type ≠ .block ∧ ∃ f, fs.source path = .ok f ∧ about f path k) ∨
        m k := by
    -- Whether the file is new matters for the visit alone, so the two are taken together.
    unfold Action.inside
    rw [← andThen_assoc (Action.change ({ · with newFile := newFile })) (Action.visit _ _)]
    refine ((Adds.change fun _ => ⟨_, _, _, _, rfl⟩).andThen <|
      (Adds.change fun _ => ⟨_, _, _, _, rfl⟩).andThen <|
      ((hnew false).andThen <| (hparts hp).andThen <| (Adds.visitBlock hcheck hp b newFile).andThen <|
        (hnew false).andThen (hnested hp)).andThen (Adds.change hclose)).congr fun k => ?_
    simp only [false_or, or_false]
  exact Adds.entering hclean hbody

/-- The steps of the way through a tree add what is shown at the sites of its elements. -/
theorem descent_adds (hcheck : CheckNewFiles K about checkers) :
    Descent fs Path.IsClean fun outer x forest => fs.Legible outer → Adds fs checkers K outer x fun k =>
      ∃ t ∈ forest, Site.Shows fs about ⟨t.2, t.1, fs.fileAt outer⟩ k where
  perm hperm hx hp := (hx hp).congr fun k => by simp only [hperm.mem_iff]
  done _ := by
    refine Adds.congr (Adds.change (f := id) fun _ => ⟨_, _, _, _, rfl⟩) fun k => ?_
    simp
  andThen hx hy hp := ((hx hp).andThen (hy hp)).congr fun k => by
    simp only [List.mem_append, or_and_right, exists_or]
  declare names _ := by
    refine Adds.congr (Adds.change fun _ => ⟨_, _, _, _, rfl⟩) fun k => ?_
    simp
  among scope _ := by
    refine Adds.congr (Adds.change fun _ => ⟨_, _, _, _, rfl⟩) fun k => ?_
    simp
  element {path e x} _ hblock hpath hx hp := by
    refine ((Adds.visit hcheck hp hblock).andThen (hx hp)).congr fun k => ?_
    simp [Site.shows_iff hblock, hpath]
  group {around e x} he hx hp := by
    have hblock (b : Block) : e ≠ .block b := by
      rintro rfl
      cases he
    refine (hx hp).congr fun k => ?_
    simp [Site.shows_iff hblock]
  block {around path b parts nested l m} outer names hpath hclean hparts hnested hall hp := by
    refine (Adds.block hcheck hclean hparts hnested names b).congr fun k => ?_
    have hchildren : (∃ c ∈ (Element.block b).children,
        Site.Shows fs about ⟨c, path, fs.fileAt path⟩ k) ↔
        ∃ t ∈ l ++ m, Site.Shows fs about ⟨t.2, t.1, fs.fileAt path⟩ k := by
      simp [hall.mem_iff]
    simp only [List.mem_singleton, exists_eq_left]
    rw [Site.shows_block_iff hpath, hchildren]
    simp only [List.mem_append, or_and_right, exists_or]
    constructor
    · rintro ⟨hlegible, hl | ⟨hnew, htype, f, hsource, habout⟩ | hm⟩
      · exact .inr ⟨hlegible, .inl hl⟩
      · exact .inl ⟨htype, (FileSystem.isNew_iff hsource).1 hnew, f, hsource, habout⟩
      · exact .inr ⟨hlegible, .inr hm⟩
    · rintro (⟨htype, hother, f, hsource, habout⟩ | ⟨hlegible, hl | hm⟩)
      · refine ⟨FileSystem.legible_of_source hsource rfl, .inr (.inl ?_)⟩
        exact ⟨(FileSystem.isNew_iff hsource).2 hother, htype, f, hsource, habout⟩
      · exact ⟨hlegible, .inl hl⟩
      · exact ⟨hlegible, .inr (.inr hm)⟩

end Action

namespace Analysis

/-- What checks of new files find in a tree is what there is to find in the files that are entered, each
key once, whichever trees were gone through before. -/
theorem check_entered {K : Finding.Key → Prop} {config : Config} {checkers : List Checker} {size : Int}
    {earlier : List Element} {root : Element} {found : List Finding}
    (hcheck : CheckNewFiles K about checkers) (hearlier : ∀ e ∈ earlier, e.PathsAre Path.IsClean)
    (hroot : root.PathsAre Path.IsClean)
    (hok : (((fresh config checkers size).after fs earlier).check fs root).1 = .ok found) :
    (found.map (·.key)).Nodup ∧ ∀ k, K k →
      (k ∈ found.map (·.key) ↔
        ∃ path f, root.Enters fs path ∧ fs.source path = .ok f ∧ about f path k) := by
  have hfresh : (fresh config checkers size).Idle fs := ⟨rfl, Reader.keeps_ofSize fs _ size⟩
  obtain ⟨hidle, hteam⟩ := hfresh.after hearlier
  generalize (fresh config checkers size).after fs earlier = a at hidle hteam hok
  have hstart : a.reset.At fs checkers "" :=
    ⟨congrArg Prod.snd hteam, hidle.reader, congrArg Prod.fst hidle.current, fun _ hp => (nomatch hp),
      fun _ => Iff.rfl, .nil⟩
  obtain ⟨x, b, hx, hrun, rfl⟩ := end_of_check hok
  have hadds : x.Adds fs checkers K "" _ :=
    (Action.descent_adds hcheck).root? (.inl rfl) hroot hx fs.legible_empty
  have hend := hadds a.reset hstart
  rw [hrun] at hend
  obtain ⟨hleft, hkeys⟩ := hend rfl
  have hperm : ((Finding.sort b.found).map (·.key)).Perm b.keys := (Finding.sort_perm b.found).map _
  refine ⟨hperm.nodup_iff.2 hleft.nodup, fun k hk => ?_⟩
  rw [hperm.mem_iff, hkeys k hk]
  have hnone : k ∉ a.reset.keys := List.not_mem_nil
  simp only [hnone, false_or, List.mem_singleton, exists_eq_left]
  constructor
  · rintro ⟨t, path, f, hreaches, henters, hsource, habout⟩
    exact ⟨path, f, ⟨t, hreaches, henters⟩, hsource, habout⟩
  · rintro ⟨path, f, ⟨t, hreaches, henters⟩, hsource, habout⟩
    exact ⟨t, path, f, hreaches, henters, hsource, habout⟩

end Analysis

end InfraSmells
