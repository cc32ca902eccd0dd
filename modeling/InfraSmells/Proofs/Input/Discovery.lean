import InfraSmells.Input.Discovery
import InfraSmells.Proofs.Failing
import InfraSmells.Proofs.Files.Below
import InfraSmells.Proofs.Text.Distinct

/-!
# What roots name

A root that is a file names itself, and a directory names the files below it that are accepted, as
far as no hidden directory leads to them (`Input.Names`). Discovery finds exactly what the roots name
(`Input.exists_discover`). A root of another spelling names the same (`Input.Names.congr`).
-/

namespace InfraSmells

/-- No directory on the way down these names is hidden; the last one is the name of a file. -/
def Visible (names : List String) : Prop :=
  ∀ name ∈ names.dropLast, Text.startsWith name "." = false

namespace Input

variable {fs : FileSystem} {input : Input} {accepts : String → Bool} {root p : String}

/-- The path is one that a root names, in its clean form. -/
inductive Names (fs : FileSystem) (input : Input) (root : String) : String → Prop
  | file {bytes : List UInt8} (h : fs.entry root = .ok (.file bytes)) :
      Names fs input root (Path.clean root)
  | below {entries : List (String × Entry)} {names : List String} {bytes : List UInt8}
      (h : fs.entry root = .ok (.directory entries))
      (hbelow : (Entry.directory entries).Below names (.file bytes)) (hvisible : Visible names)
      (haccepts : input.accepts (Path.clean (root ++ "/" ++ Text.join "/" names)) = true) :
      Names fs input root (Path.clean (root ++ "/" ++ Text.join "/" names))

/-! ## Going through directories -/

/-- Files are found below a directory that is entered by one of its names. -/
theorem visible_cons {name : String} {names : List String} (h : names ≠ []) :
    Visible (name :: names) ↔ Text.startsWith name "." = false ∧ Visible names := by
  unfold Visible
  rw [List.dropLast_cons_of_ne_nil h, List.forall_mem_cons]

/-- A path below a directory is clean after its directory is. -/
theorem clean_join {dir : String} (h : dir ≠ "") (name : String) {names : List String}
    (hnames : names ≠ []) :
    Path.clean (Path.join dir name ++ "/" ++ Text.join "/" names) =
      Path.clean (dir ++ "/" ++ Text.join "/" (name :: names)) := by
  have hne : dir ++ "/" ++ name ≠ "" := by
    simp [h]
  rw [Path.join, if_neg h, Path.clean_slash hne, Text.join_cons hnames]
  simp only [String.append_assoc]

mutual

/-- An entry of a directory gives the files it holds that are accepted. -/
theorem mem_entryFiles {dir name : String} (hdir : dir ≠ "") : ∀ e : Entry,
    p ∈ entryFiles accepts (Path.join dir name) (Text.startsWith name ".") e ↔
      ∃ names bytes, e.Below names (.file bytes) ∧ Visible (name :: names) ∧
        p = Path.clean (dir ++ "/" ++ Text.join "/" (name :: names)) ∧ accepts p = true
  | .file bytes => by
    have hjoin : Path.join dir name = Path.clean (dir ++ "/" ++ name) := if_neg hdir
    unfold entryFiles
    constructor
    · intro hp
      split at hp
      · next haccepts =>
        obtain rfl := List.mem_singleton.1 hp
        exact ⟨[], bytes, .here, fun _ hn => (nomatch hn), hjoin, haccepts⟩
      · cases hp
    · rintro ⟨names, bytes', hbelow, -, rfl, haccepts⟩
      cases hbelow with
      | here =>
        rw [Text.join, ← hjoin] at haccepts ⊢
        rw [if_pos haccepts]
        exact .head _
      | inside hmem => cases hmem
  | .directory entries => by
    have hne : Path.join dir name ≠ "" := by
      rw [Path.join, if_neg hdir]
      exact Path.clean_ne_empty _
    have hnames {names : List String} {bytes : List UInt8}
        (h : (Entry.directory entries).Below names (.file bytes)) : names ≠ [] := by
      cases h
      exact List.cons_ne_nil _ _
    unfold entryFiles
    constructor
    · intro hp
      split at hp
      · cases hp
      next hshown =>
      obtain ⟨names, bytes, hbelow, hvisible, hpath, haccepts⟩ := (mem_filesBelow hne entries).1 hp
      rw [clean_join hdir name (hnames hbelow)] at hpath
      exact ⟨names, bytes, hbelow, (visible_cons (hnames hbelow)).2 ⟨by simpa using hshown, hvisible⟩,
        hpath, haccepts⟩
    · rintro ⟨names, bytes, hbelow, hvisible, hpath, haccepts⟩
      obtain ⟨hshown, hvisible⟩ := (visible_cons (hnames hbelow)).1 hvisible
      rw [if_neg (by simp [hshown])]
      rw [← clean_join hdir name (hnames hbelow)] at hpath
      exact (mem_filesBelow hne entries).2 ⟨names, bytes, hbelow, hvisible, hpath, haccepts⟩

/-- A directory gives the files below it that are accepted. -/
theorem mem_filesBelow {dir : String} (hdir : dir ≠ "") : ∀ entries : List (String × Entry),
    p ∈ filesBelow accepts dir entries ↔
      ∃ names bytes, (Entry.directory entries).Below names (.file bytes) ∧ Visible names ∧
        p = Path.clean (dir ++ "/" ++ Text.join "/" names) ∧ accepts p = true
  | [] => by
    refine ⟨fun hp => (nomatch hp), ?_⟩
    rintro ⟨names, bytes, hbelow, -⟩
    cases hbelow with
    | inside hmem => cases hmem
  | (name, e) :: entries => by
    unfold filesBelow
    rw [List.mem_append, mem_entryFiles hdir e, mem_filesBelow hdir entries]
    constructor
    · rintro (⟨names, bytes, hbelow, hrest⟩ | ⟨names, bytes, hbelow, hrest⟩)
      · exact ⟨_, bytes, .inside (.head _) hbelow, hrest⟩
      · cases hbelow with
        | inside hmem hbelow => exact ⟨_, bytes, .inside (.tail _ hmem) hbelow, hrest⟩
    · rintro ⟨names, bytes, hbelow, hrest⟩
      cases hbelow with
      | inside hmem hbelow =>
        rcases List.mem_cons.1 hmem with heq | hmem
        · cases heq
          exact .inl ⟨_, bytes, hbelow, hrest⟩
        · exact .inr ⟨_, bytes, .inside hmem hbelow, hrest⟩

end

/-! ## From roots to files -/

/-- A root that exists gives what it names. -/
theorem exists_rootFiles (input : Input) {e : Entry} (h : fs.entry root = .ok e) :
    ∃ files, rootFiles fs input root = .ok files ∧ ∀ p, p ∈ files ↔ Names fs input root p := by
  have hne : root ≠ "" := by
    rintro rfl
    cases h
  unfold rootFiles
  rw [h]
  cases e with
  | file bytes =>
    refine ⟨_, rfl, fun p => List.mem_singleton.trans ⟨?_, fun hp => ?_⟩⟩
    · rintro rfl
      exact .file h
    · cases hp with
      | file => rfl
      | below hdir =>
        rw [h] at hdir
        cases hdir
  | directory entries =>
    refine ⟨_, rfl, fun p => (mem_filesBelow hne entries).trans ⟨?_, fun hp => ?_⟩⟩
    · rintro ⟨names, bytes, hbelow, hvisible, rfl, haccepts⟩
      exact .below h hbelow hvisible haccepts
    · cases hp with
      | file hfile =>
        rw [h] at hfile
        cases hfile
      | below hdir hbelow hvisible haccepts =>
        rw [h] at hdir
        cases hdir
        exact ⟨_, _, hbelow, hvisible, rfl, haccepts⟩

/-- Roots that exist give what they name, sorted. -/
theorem exists_discover (input : Input) {roots : List String}
    (h : ∀ r ∈ roots, ∃ e, fs.entry r = .ok e) :
    ∃ all, discover fs input roots = .ok (Text.sortDistinct all) ∧
      ∀ p, p ∈ all ↔ ∃ r ∈ roots, Names fs input r p := by
  have hroot (r : String) (hr : r ∈ roots) := (h r hr).elim fun _ he =>
    exists_rootFiles input he
  obtain ⟨files, hfiles, hmem⟩ := exists_mapM fun r hr => (hroot r hr).imp fun _ hf => hf.1
  refine ⟨files.flatten, ?_, fun p => ?_⟩
  · unfold discover
    rw [hfiles]
    rfl
  · rw [List.mem_flatten]
    constructor
    · rintro ⟨part, hpart, hp⟩
      obtain ⟨r, hr, hok⟩ := (hmem part).1 hpart
      obtain ⟨part', hok', hnames⟩ := hroot r hr
      rw [hok] at hok'
      cases hok'
      exact ⟨r, hr, (hnames p).1 hp⟩
    · rintro ⟨r, hr, hp⟩
      obtain ⟨part, hok, hnames⟩ := hroot r hr
      exact ⟨part, (hmem part).2 ⟨r, hr, hok⟩, (hnames p).2 hp⟩

/-- Roots of one clean form that both exist name the same. -/
theorem Names.congr {root' : String} (hclean : Path.clean root = Path.clean root')
    {e : Entry} (h' : fs.entry root' = .ok e) (hp : Names fs input root p) :
    Names fs input root' p := by
  have hsame (rest : String) (hroot : root ≠ "") (hroot' : root' ≠ "") :
      Path.clean (root ++ "/" ++ rest) = Path.clean (root' ++ "/" ++ rest) := by
    rw [← Path.clean_slash hroot, hclean, Path.clean_slash hroot']
  have hne {r : String} {d : Entry} (hd : fs.entry r = .ok d) : r ≠ "" := by
    rintro rfl
    cases hd
  cases hp with
  | file h =>
    obtain rfl := FileSystem.entry_eq_of_clean_eq hclean h h'
    rw [hclean]
    exact .file h'
  | below h hbelow hvisible haccepts =>
    obtain rfl := FileSystem.entry_eq_of_clean_eq hclean h h'
    rw [hsame _ (hne h) (hne h')] at haccepts ⊢
    exact .below h' hbelow hvisible haccepts

/-- What a carried root names in a carried tree is carried. -/
theorem Names.isCarried (hfs : fs.root.IsCarried) (hroot : Text.IsCarried root)
    (hp : Names fs input root p) : Text.IsCarried p := by
  cases hp with
  | file => exact Path.isCarried_clean hroot
  | below h hbelow =>
    have hnames := FileSystem.isCarried_of_entry hfs h _ _ hbelow
    exact Path.isCarried_clean (Text.isCarried_slash.2 ⟨hroot, Text.isCarried_join.2 hnames⟩)

end Input

end InfraSmells
