import InfraSmells.Proofs.Files.Clean
import InfraSmells.Source.Reader
import Mathlib.Data.List.Forall2

/-!
# The cache of a reader

A reader answers one request after the other, and what it has read before may answer for it. Every file
it keeps was read at a path that was asked for, and is kept under the clean form of this path
(`Reader.Keeps`). A request preserves this and is answered by a spelling of its path that was asked for,
another one only if a file was read there (`Reader.Keeps.load`). Where only clean paths are asked for, a
reader is faithful: it answers as the file system does (`Reader.Faithful.load`), whatever its capacity and
whatever it has dropped.

A file that another spelling of its path has brought in is labelled with that spelling, which is all that
a request can notice of the cache (`Reader.answered_as_read`). Spellings of one clean form do not lead to
different files here (`FileSystem.read_eq_of_clean_eq`), but one of them may lead through a directory that
does not exist; so they have to be readable alike (`FileSystem.ReadsAlike`).
-/

namespace InfraSmells

/-! ## Files under different labels -/

/-- The two files differ at most in the path by which they are labelled. -/
structure SourceFile.SameContent (f g : SourceFile) : Prop where
  text : f.text = g.text
  lines : f.lines = g.lines
  hadMark : f.hadMark = g.hadMark
  hadReturns : f.hadReturns = g.hadReturns

/-- The label of a source file plays no part in what text its bytes are. -/
theorem SourceFile.exists_relabelled {p : String} {bytes : List UInt8} {f : SourceFile}
    (h : ofBytes? p bytes = some f) (q : String) :
    f.path = p ∧ ∃ g, ofBytes? q bytes = some g ∧ SameContent f g := by
  unfold ofBytes? at h ⊢
  obtain ⟨htext, hf⟩ := Option.ite_none_right_eq_some.1 h
  cases hf
  exact ⟨rfl, _, if_pos htext, rfl, rfl, rfl, rfl⟩

namespace FileSystem

variable {fs : FileSystem}

/-- A source file is made of the bytes of a file. -/
theorem source_eq_ok_iff {path : String} {f : SourceFile} :
    fs.source path = .ok f ↔
      ∃ bytes, fs.read path = .ok bytes ∧ SourceFile.ofBytes? path bytes = some f := by
  unfold source
  cases hread : fs.read path with
  | error e => simp
  | ok bytes => cases hfile : SourceFile.ofBytes? path bytes <;> simp [hfile]

/-- A source file that was read stands at its own path. -/
theorem path_of_source {path : String} {f : SourceFile} (h : fs.source path = .ok f) :
    f.path = path := by
  obtain ⟨bytes, -, hfile⟩ := source_eq_ok_iff.1 h
  exact (SourceFile.exists_relabelled hfile path).1

/-- Of these paths, those of one clean form can all be read or none of them can. -/
def ReadsAlike (fs : FileSystem) (paths : List String) : Prop :=
  ∀ p ∈ paths, ∀ q ∈ paths, Path.clean p = Path.clean q → (fs.read p).isOk → (fs.read q).isOk

instance (paths : List String) : Decidable (fs.ReadsAlike paths) :=
  inferInstanceAs (Decidable (∀ p ∈ paths, ∀ q ∈ paths,
    Path.clean p = Path.clean q → (fs.read p).isOk → (fs.read q).isOk))

/-- What is read at a path is read at every spelling of it. -/
theorem ReadsAlike.exists_source {paths : List String} (h : fs.ReadsAlike paths) {p q : String}
    (hp : p ∈ paths) (hq : q ∈ paths) (hclean : Path.clean p = Path.clean q) {f : SourceFile}
    (hf : fs.source p = .ok f) : ∃ g, fs.source q = .ok g ∧ f.SameContent g := by
  obtain ⟨bytes, hbytes, hfile⟩ := source_eq_ok_iff.1 hf
  have hreadable : (fs.read q).isOk := h p hp q hq hclean (by rw [hbytes]; rfl)
  cases hread : fs.read q with
  | error e =>
    rw [hread] at hreadable
    cases hreadable
  | ok bytes' =>
    obtain rfl : bytes = bytes' := read_eq_of_clean_eq hclean hbytes hread
    obtain ⟨-, g, hg, hsame⟩ := SourceFile.exists_relabelled hfile q
    exact ⟨g, source_eq_ok_iff.2 ⟨bytes, hread, hg⟩, hsame⟩

end FileSystem

namespace Reader

variable {fs : FileSystem} {r : Reader} {asked : String → Prop}

/-! ## What is kept -/

/-- Of the paths that may be asked for, the reader keeps files that were read there, each under the clean
form of its path and no more than fit. -/
structure Keeps (fs : FileSystem) (asked : String → Prop) (r : Reader) : Prop where
  read : ∀ e ∈ r.cached,
    asked e.2.path ∧ Path.clean e.2.path = e.1 ∧ fs.source e.2.path = .ok e.2
  distinct : (r.cached.map Prod.fst).Nodup
  within : r.cached.length ≤ r.capacity

/-- A new reader keeps nothing. -/
theorem keeps_ofSize (fs : FileSystem) (asked : String → Prop) (size : Int) :
    (ofSize size).Keeps fs asked where
  read := nofun
  distinct := .nil
  within := Nat.zero_le _

/-- A file that is found was read at a spelling of the path. -/
theorem Keeps.of_get? (h : r.Keeps fs asked) {key : String} {f : SourceFile}
    (hf : r.get? key = some f) :
    asked f.path ∧ Path.clean f.path = key ∧ fs.source f.path = .ok f := by
  obtain ⟨e, he, rfl⟩ := Option.map_eq_some_iff.1 hf
  have hkey : e.1 = key := by simpa using List.find?_some he
  rw [← hkey]
  exact h.read e (List.mem_of_find?_eq_some he)

/-- The key of a file in use comes first, and behind it are other keys. -/
theorem nodup_use (h : (r.cached.map Prod.fst).Nodup) (key : String) (f : SourceFile) :
    ((r.use key f).cached.map Prod.fst).Nodup := by
  have hothers : key ∉ (r.cached.filter (·.1 != key)).map Prod.fst := by
    intro hmem
    obtain ⟨e, he, hkey⟩ := List.mem_map.1 hmem
    exact absurd hkey (by simpa using (List.mem_filter.1 he).2)
  have hall : (((key, f) :: r.cached.filter (·.1 != key)).map Prod.fst).Nodup :=
    List.nodup_cons.2 ⟨hothers, h.sublist (List.filter_sublist.map _)⟩
  exact hall.sublist ((List.take_sublist _ _).map _)

/-- A file that was read at a path may be used under the clean form of the path. -/
theorem Keeps.use (h : r.Keeps fs asked) {f : SourceFile} (hasked : asked f.path)
    (hf : fs.source f.path = .ok f) : (r.use (Path.clean f.path) f).Keeps fs asked where
  read e he := by
    -- What is kept behind the file in use was kept before.
    rcases List.mem_cons.1 (List.mem_of_mem_take he) with rfl | hkept
    · exact ⟨hasked, rfl, hf⟩
    · exact h.read e (List.mem_filter.1 hkept).1
  distinct := nodup_use h.distinct _ _
  within := List.length_take_le _ _

/-! ## Answers -/

/-- A request is answered by a spelling of its path, another one only if there is a file, and the reader
still keeps only what was read. -/
theorem Keeps.load (h : r.Keeps fs asked) (path : String) (hpath : asked path) :
    (∃ spelling, asked spelling ∧ Path.clean spelling = Path.clean path ∧
      (r.load fs path).1 = fs.source spelling ∧ (spelling = path ∨ (fs.source spelling).isOk)) ∧
      (r.load fs path).2.Keeps fs asked ∧ (r.load fs path).2.capacity = r.capacity := by
  unfold Reader.load
  dsimp only
  cases hget : r.get? (Path.clean path) with
  | some f =>
    obtain ⟨hasked, hclean, hf⟩ := h.of_get? hget
    have hused := h.use hasked hf
    rw [hclean] at hused
    exact ⟨⟨f.path, hasked, hclean, hf.symm, .inr (by rw [hf]; rfl)⟩, hused, rfl⟩
  | none =>
    cases hsource : fs.source path with
    | ok f =>
      obtain rfl := FileSystem.path_of_source hsource
      exact ⟨⟨f.path, hpath, rfl, hsource.symm, .inl rfl⟩, h.use hpath hsource, rfl⟩
    | error e => exact ⟨⟨path, hpath, rfl, hsource.symm, .inl rfl⟩, h, rfl⟩

/-- All files that the reader keeps were read at clean paths. -/
def Faithful (fs : FileSystem) (r : Reader) : Prop :=
  r.Keeps fs fun path => Path.clean path = path

/-- Reading a clean path through a faithful reader is reading it without a cache. -/
theorem Faithful.load (h : r.Faithful fs) {path : String} (hp : Path.clean path = path) :
    (r.load fs path).1 = fs.source path ∧ (r.load fs path).2.Faithful fs := by
  obtain ⟨⟨spelling, hspelling, hclean, hanswer, -⟩, hkeeps, -⟩ := Keeps.load h path hp
  obtain rfl : spelling = path := hspelling.symm.trans (hclean.trans hp)
  exact ⟨hanswer, hkeeps⟩

/-- The answer is the one that is due, but for the label of a file. -/
inductive Answers : Except ReadError SourceFile → Except ReadError SourceFile → Prop
  | file {f g : SourceFile} (h : f.SameContent g) : Answers (.ok f) (.ok g)
  | error (e : ReadError) : Answers (.error e) (.error e)

/-- What is read at a path answers for itself. -/
theorem Answers.refl (answer : Except ReadError SourceFile) : Answers answer answer := by
  cases answer with
  | ok f => exact .file ⟨rfl, rfl, rfl, rfl⟩
  | error e => exact .error e

/-- A request is answered as it would be without a cache, if spellings of one path are readable alike. -/
theorem Keeps.answers_load {paths : List String} (h : r.Keeps fs (· ∈ paths))
    (halike : fs.ReadsAlike paths) {path : String} (hpath : path ∈ paths) :
    Answers (r.load fs path).1 (fs.source path) := by
  obtain ⟨⟨spelling, hspelling, hclean, hanswer, hother⟩, -⟩ := h.load path hpath
  rw [hanswer]
  rcases hother with rfl | hok
  · exact .refl _
  · cases hf : fs.source spelling with
    | error e =>
      rw [hf] at hok
      cases hok
    | ok f =>
      obtain ⟨g, hg, hsame⟩ := halike.exists_source hspelling hpath hclean hf
      rw [hg]
      exact .file hsame

/-- The answers to requests, one after the other, and the reader behind them. -/
def loads (fs : FileSystem) (r : Reader) : List String → List (Except ReadError SourceFile) × Reader
  | [] => ([], r)
  | path :: paths =>
    let (answer, next) := r.load fs path
    let (answers, last) := loads fs next paths
    (answer :: answers, last)

/-- Requests are answered as they would be without a cache. -/
theorem Keeps.loads {all : List String} (h : r.Keeps fs (· ∈ all)) (halike : fs.ReadsAlike all)
    {paths : List String} (hpaths : ∀ path ∈ paths, path ∈ all) :
    List.Forall₂ Answers (r.loads fs paths).1 (paths.map fs.source) ∧
      (r.loads fs paths).2.Keeps fs (· ∈ all) ∧ (r.loads fs paths).2.capacity = r.capacity := by
  induction paths generalizing r with
  | nil => exact ⟨.nil, h, rfl⟩
  | cons path paths ih =>
    obtain ⟨hpath, hrest⟩ := List.forall_mem_cons.1 hpaths
    obtain ⟨-, hkeeps, hcapacity⟩ := h.load path hpath
    obtain ⟨hanswers, hlast, hsame⟩ := ih hkeeps hrest
    exact ⟨.cons (h.answers_load halike hpath) hanswers, hlast, hsame.trans hcapacity⟩

/-- A new reader of any size answers any requests as they would be answered without a cache, if spellings
of one clean form are readable alike. It never keeps more files than its size, and whatever it keeps was
read as text at a path that was asked for. -/
theorem answered_as_read (fs : FileSystem) (size : Int) (paths : List String)
    (halike : fs.ReadsAlike paths) :
    let (answers, last) := (ofSize size).loads fs paths
    List.Forall₂ Answers answers (paths.map fs.source) ∧
      last.cached.length ≤ (if size ≤ 0 then defaultCapacity else size.toNat) ∧
      (last.cached.map Prod.fst).Nodup ∧
      ∀ key f, (key, f) ∈ last.cached →
        f.path ∈ paths ∧ Path.clean f.path = key ∧ fs.source f.path = .ok f := by
  obtain ⟨hanswers, hlast, hcapacity⟩ :=
    (keeps_ofSize fs (· ∈ paths) size).loads halike fun _ hpath => hpath
  refine ⟨hanswers, ?_, hlast.distinct, fun key f he => hlast.read (key, f) he⟩
  have hwithin := hlast.within
  rwa [hcapacity] at hwithin

/-- A directory with a script, a file that is no text, and a directory. -/
def scripts : FileSystem where
  root := .directory [("a.tf", .file [0x61, 0x0D, 0x0A]), ("b.tf", .file [0xFF]),
    ("d", .directory [("e.tf", .file [0x65])])]
  here := []

/-- A reader of size one is asked for a script by three spellings, with a file that is no text, a file
that drives the script out and one that does not exist in between. -/
theorem answered_as_read_spellings :
    let paths := ["./a.tf", "b.tf", "d/../a.tf", "d/e.tf", "c.tf", "a.tf"]
    scripts.ReadsAlike paths ∧
      List.Forall₂ Answers ((ofSize 1).loads scripts paths).1 (paths.map scripts.source) ∧
      ((ofSize 1).loads scripts paths).2.cached.length ≤ 1 := by
  intro paths
  have halike : scripts.ReadsAlike paths := by decide +kernel
  obtain ⟨hanswers, hwithin, -⟩ := answered_as_read scripts 1 paths halike
  exact ⟨halike, hanswers, hwithin⟩

-- A spelling that cannot be read is answered all the same if another one has been read before.
example : ((scripts.source "gone/../a.tf").isOk,
    ((ofSize 1).loads scripts ["a.tf", "gone/../a.tf"]).1.map (·.isOk)) = (false, [true, true]) := by
  decide +kernel

end Reader

end InfraSmells
