import InfraSmells.Proofs.Input.Discovery
import InfraSmells.Run

/-!
# Roots as a set

What a run is about hangs on its roots as a set only: neither their order nor repetitions nor the
spelling of their paths make a difference (`Run.roots_form_a_set`). Discovery gives what the roots
name, in strictly increasing order; roots taken as modules give the directories among them and then
the files, each in strictly increasing order (`Run.exists_moduleTasks`).
-/

namespace InfraSmells

/-- Every root exists, and its path is carried. -/
def FileSystem.HasRoots (fs : FileSystem) (roots : List String) : Prop :=
  ∀ r ∈ roots, Text.IsCarried r ∧ ∃ e, fs.entry r = .ok e

/-- Cleaned, the roots are the same set of paths. -/
def SameRoots (roots roots' : List String) : Prop :=
  ∀ p, p ∈ roots.map Path.clean ↔ p ∈ roots'.map Path.clean

instance (fs : FileSystem) (roots : List String) : Decidable (fs.HasRoots roots) :=
  decidable_of_iff (∀ r ∈ roots, Text.IsCarried r ∧ (fs.entry r).toOption.isSome) <|
    forall₂_congr fun r _ => and_congr_right fun _ => by
      cases fs.entry r <;> simp [Except.toOption]

instance (roots roots' : List String) : Decidable (SameRoots roots roots') :=
  decidable_of_iff (roots.map Path.clean ⊆ roots'.map Path.clean ∧
      roots'.map Path.clean ⊆ roots.map Path.clean)
    ⟨fun h _ => ⟨fun hp => h.1 hp, fun hp => h.2 hp⟩, fun h => ⟨fun p => (h p).1, fun p => (h p).2⟩⟩

variable {fs : FileSystem} {input : Input} {roots roots' : List String} {p : String}

/-- Roots that exist stay roots when others are added. -/
theorem FileSystem.HasRoots.append (h : fs.HasRoots roots) (h' : fs.HasRoots roots') :
    fs.HasRoots (roots ++ roots') :=
  List.forall_mem_append.2 ⟨h, h'⟩

/-- The same set of paths stays the same the other way. -/
theorem SameRoots.symm (h : SameRoots roots roots') : SameRoots roots' roots :=
  fun p => (h p).symm

/-- A root among the others has another spelling among roots that are the same set. -/
theorem SameRoots.exists_of_mem (h : SameRoots roots roots') {r : String} (hr : r ∈ roots) :
    ∃ r' ∈ roots', Path.clean r = Path.clean r' := by
  obtain ⟨r', hr', heq⟩ := List.mem_map.1 ((h _).1 (List.mem_map_of_mem hr))
  exact ⟨r', hr', heq.symm⟩

/-- The same set of roots names the same. -/
theorem SameRoots.names (h : SameRoots roots roots') (hroots' : fs.HasRoots roots')
    (hp : ∃ r ∈ roots, input.Names fs r p) : ∃ r ∈ roots', input.Names fs r p := by
  obtain ⟨r, hr, hp⟩ := hp
  obtain ⟨r', hr', hclean⟩ := h.exists_of_mem hr
  obtain ⟨-, e, he⟩ := hroots' r' hr'
  exact ⟨r', hr', hp.congr hclean he⟩

/-- What carried roots name in a carried tree is found, in strictly increasing order. -/
theorem Input.exists_increasing (input : Input) (hfs : fs.root.IsCarried) (h : fs.HasRoots roots) :
    ∃ files, input.discover fs roots = .ok files ∧ Text.Increasing files ∧
      ∀ p, p ∈ files ↔ ∃ r ∈ roots, input.Names fs r p := by
  obtain ⟨all, hall, hmem⟩ := exists_discover input fun r hr => (h r hr).2
  refine ⟨_, hall, Text.increasing_sortDistinct fun s hs => ?_, fun p => ?_⟩
  · obtain ⟨r, hr, hs⟩ := (hmem s).1 hs
    exact hs.isCarried hfs (h r hr).1
  · rw [Text.mem_sortDistinct, hmem]

/-- The same set of roots gives the same files. -/
theorem Input.discover_congr (hfs : fs.root.IsCarried) (h : fs.HasRoots roots)
    (h' : fs.HasRoots roots') (hsame : SameRoots roots roots') :
    input.discover fs roots = input.discover fs roots' := by
  obtain ⟨files, hfiles, hinc, hmem⟩ := input.exists_increasing hfs h
  obtain ⟨files', hfiles', hinc', hmem'⟩ := input.exists_increasing hfs h'
  rw [hfiles, hfiles', hinc.eq_of_mem_iff hinc' fun p => ?_]
  rw [hmem, hmem']
  exact ⟨hsame.names h', hsame.symm.names h⟩

namespace Run

/-- The cleaned roots that are directories, or those that are none, in strictly increasing order. -/
structure AreRoots (fs : FileSystem) (roots : List String) (isDir : Bool) (paths : List String) :
    Prop where
  increasing : Text.Increasing paths
  mem_iff : ∀ p, p ∈ paths ↔ ∃ r ∈ roots, Path.clean r = p ∧ fs.isDirectory r = .ok isDir

/-- A root is of one kind, whose paths it joins in its clean form. -/
theorem kind_eq_ok {r : String} {kind : String × Bool} :
    (fs.isDirectory r).map (fun isDir => (Path.clean r, isDir)) = .ok kind ↔
      Path.clean r = kind.1 ∧ fs.isDirectory r = .ok kind.2 := by
  cases fs.isDirectory r with
  | error e => simp [Except.map]
  | ok isDir => simp [Except.map, Prod.ext_iff]

/-- Roots taken as modules give the directories among them, then the files. -/
theorem exists_moduleTasks (h : fs.HasRoots roots) :
    ∃ dirs files, moduleTasks fs roots = .ok (dirs.map (⟨·, true⟩) ++ files.map (⟨·, false⟩)) ∧
      AreRoots fs roots true dirs ∧ AreRoots fs roots false files := by
  have hkind (r : String) (hr : r ∈ roots) : ∃ kind : String × Bool,
      (fs.isDirectory r).map (fun isDir => (Path.clean r, isDir)) = .ok kind := by
    obtain ⟨-, e, he⟩ := h r hr
    refine ⟨(Path.clean r, e.isDirectory), kind_eq_ok.2 ⟨rfl, ?_⟩⟩
    rw [FileSystem.isDirectory, he]
  obtain ⟨kinds, hkinds, hmem⟩ := exists_mapM hkind
  have hroots (isDir : Bool) : AreRoots fs roots isDir
      (Text.sortDistinct ((kinds.filter fun k => k.2 == isDir).map Prod.fst)) := by
    have hpaths (p : String) : p ∈ (kinds.filter fun k => k.2 == isDir).map Prod.fst ↔
        ∃ r ∈ roots, Path.clean r = p ∧ fs.isDirectory r = .ok isDir := by
      simp only [List.mem_map, List.mem_filter, beq_iff_eq, hmem, kind_eq_ok]
      constructor
      · rintro ⟨⟨q, b⟩, ⟨hr, rfl⟩, rfl⟩
        exact hr
      · exact fun hr => ⟨(p, isDir), ⟨hr, rfl⟩, rfl⟩
    refine ⟨Text.increasing_sortDistinct fun s hs => ?_, fun p => ?_⟩
    · obtain ⟨r, hr, rfl, -⟩ := (hpaths s).1 hs
      exact Path.isCarried_clean (h r hr).1
    · rw [Text.mem_sortDistinct, hpaths]
  refine ⟨_, _, ?_, hroots true, hroots false⟩
  unfold moduleTasks
  rw [hkinds]
  rfl

/-- The same set of roots has the same directories and the same files in it. -/
theorem AreRoots.congr {isDir : Bool} {paths paths' : List String}
    (h : AreRoots fs roots isDir paths) (h' : AreRoots fs roots' isDir paths')
    (hroots : fs.HasRoots roots) (hroots' : fs.HasRoots roots') (hsame : SameRoots roots roots') :
    paths = paths' := by
  have hmove {as bs : List String} (hbs : fs.HasRoots bs) (hsame : SameRoots as bs) (p : String)
      (hp : ∃ r ∈ as, Path.clean r = p ∧ fs.isDirectory r = .ok isDir) :
      ∃ r ∈ bs, Path.clean r = p ∧ fs.isDirectory r = .ok isDir := by
    obtain ⟨r, hr, rfl, hdir⟩ := hp
    obtain ⟨r', hr', hclean⟩ := hsame.exists_of_mem hr
    obtain ⟨-, e, he⟩ := hbs r' hr'
    refine ⟨r', hr', hclean.symm, ?_⟩
    unfold FileSystem.isDirectory at hdir ⊢
    split at hdir
    · next d hd =>
      rw [he, ← FileSystem.entry_eq_of_clean_eq hclean hd he]
      exact hdir
    · cases hdir
  refine h.increasing.eq_of_mem_iff h'.increasing fun p => ?_
  rw [h.mem_iff, h'.mem_iff]
  exact ⟨hmove hroots' hsame p, hmove hroots hsame.symm p⟩

/-- Roots that exist are used as a set of clean paths. Discovery gives exactly what they name, in
strictly increasing order, and for roots put together it gives the union. Taken as modules, roots
give the directories and then the files among them, each in strictly increasing order. -/
theorem roots_form_a_set (fs : FileSystem) (hfs : fs.root.IsCarried) (roots : List String)
    (hroots : fs.HasRoots roots) :
    (∀ input : Input, ∃ files, input.discover fs roots = .ok files ∧ Text.Increasing files ∧
      (∀ p, p ∈ files ↔ ∃ r ∈ roots, input.Names fs r p) ∧
      ∀ roots', fs.HasRoots roots' →
        (SameRoots roots roots' → input.discover fs roots' = .ok files) ∧
        ∃ files' union, input.discover fs roots' = .ok files' ∧
          input.discover fs (roots ++ roots') = .ok union ∧ Text.Increasing union ∧
          ∀ p, p ∈ union ↔ p ∈ files ∨ p ∈ files') ∧
    ∃ dirs files, moduleTasks fs roots = .ok (dirs.map (⟨·, true⟩) ++ files.map (⟨·, false⟩)) ∧
      AreRoots fs roots true dirs ∧ AreRoots fs roots false files ∧
      ∀ roots', fs.HasRoots roots' → SameRoots roots roots' →
        moduleTasks fs roots' = moduleTasks fs roots := by
  refine ⟨fun input => ?_, ?_⟩
  · obtain ⟨files, hfiles, hinc, hmem⟩ := input.exists_increasing hfs hroots
    refine ⟨files, hfiles, hinc, hmem, fun roots' hroots' => ⟨fun hsame => ?_, ?_⟩⟩
    · rw [← hfiles, Input.discover_congr hfs hroots hroots' hsame]
    · obtain ⟨files', hfiles', -, hmem'⟩ := input.exists_increasing hfs hroots'
      obtain ⟨union, hunion, hincreasing, hmemUnion⟩ :=
        input.exists_increasing hfs (hroots.append hroots')
      refine ⟨files', union, hfiles', hunion, hincreasing, fun p => ?_⟩
      simp only [hmemUnion, hmem, hmem', List.mem_append, or_and_right, exists_or]
  · obtain ⟨dirs, files, htasks, hdirs, hfiles⟩ := exists_moduleTasks hroots
    refine ⟨dirs, files, htasks, hdirs, hfiles, fun roots' hroots' hsame => ?_⟩
    obtain ⟨dirs', files', htasks', hdirs', hfiles'⟩ := exists_moduleTasks hroots'
    rw [htasks', htasks, hdirs.congr hdirs' hroots hroots' hsame,
      hfiles.congr hfiles' hroots hroots' hsame]

/-- A directory with a hidden one inside and a hidden one beside it, and a file of another kind. -/
def sources : FileSystem where
  root := .directory [(".h", .directory [("a.tf", .file [])]), ("notes", .file []),
    ("w", .directory [(".git", .directory [("c.tf", .file [])]), ("b.tf", .file [])])]
  here := []

/-- However the roots are spelled, ordered and repeated, the files in the hidden directory inside are
left out, those in the hidden root are not, and neither is the file of another kind. -/
theorem roots_form_a_set_sources :
    let roots := ["w", ".h", "notes", "w/b.tf"]
    let roots' := ["./notes", "w/.git/../b.tf", "w/.git/..", ".h", "w/"]
    sources.root.IsCarried ∧ sources.HasRoots roots ∧ sources.HasRoots roots' ∧
      SameRoots roots roots' ∧
      Input.terraform.discover sources roots = .ok [".h/a.tf", "notes", "w/b.tf"] ∧
      Input.terraform.discover sources roots' = .ok [".h/a.tf", "notes", "w/b.tf"] ∧
      moduleTasks sources roots' = moduleTasks sources roots := by
  intro roots roots'
  have hcarried : sources.root.IsCarried := by
    simp only [sources, Entry.isCarried_directory, List.forall_mem_cons, Entry.isCarried_file,
      List.not_mem_nil, false_implies, implies_true, and_true]
    decide +kernel
  have hroots : sources.HasRoots roots := by decide +kernel
  have hroots' : sources.HasRoots roots' := by decide +kernel
  have hsame : SameRoots roots roots' := by decide +kernel
  have hparts : roots.mapM (Input.terraform.rootFiles sources) =
      .ok [["w/b.tf"], [".h/a.tf"], ["notes"], ["w/b.tf"]] := by decide +kernel
  have hfiles : Input.terraform.discover sources roots = .ok [".h/a.tf", "notes", "w/b.tf"] := by
    rw [Input.discover, hparts]
    exact congrArg Except.ok (Text.sortDistinct_eq (by decide +kernel) (by decide +kernel)
      (by decide) (by decide))
  obtain ⟨hdiscover, -, -, -, -, -, hmodules⟩ := roots_form_a_set sources hcarried roots hroots
  obtain ⟨files, hok, -, -, hothers⟩ := hdiscover .terraform
  refine ⟨hcarried, hroots, hroots', hsame, hfiles, ?_, hmodules roots' hroots' hsame⟩
  rw [(hothers roots' hroots').1 hsame, ← hok, hfiles]

end Run

end InfraSmells
