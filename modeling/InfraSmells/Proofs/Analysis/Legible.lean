import InfraSmells.Proofs.Checker.Registry
import InfraSmells.Proofs.Source.Cache

/-!
# Files that are not text

No finding is about a file that exists but is no text. What is reported carries the path at which
the checker was called, so it is enough that checkers are called at legible paths only: a file is
entered because it was read as text, because the reader kept it under the same clean path, or
because it still is the current file (`Analysis.keepsToText_invariant`). What was found before a file turned
out to be no text plays no part.
-/

namespace InfraSmells

variable {fs : FileSystem}

/-- If there is a file at the path, then it is text behind a byte order mark at its beginning. -/
def FileSystem.Legible (fs : FileSystem) (path : String) : Prop :=
  ∀ bytes, fs.read path = .ok bytes →
    Text.isUtf8 ((SourceFile.afterMark? bytes).getD bytes) = true

/-- There is no file at the empty path. -/
theorem FileSystem.legible_empty (fs : FileSystem) : fs.Legible "" := by
  intro bytes hbytes
  cases hbytes

/-- A path of the same clean form as one that was read as a source file is legible. -/
theorem FileSystem.legible_of_source {p q : String} {f : SourceFile} (h : fs.source p = .ok f)
    (hclean : Path.clean q = Path.clean p) : fs.Legible q := by
  intro bytes hbytes
  obtain ⟨read, hread, hfile⟩ := source_eq_ok_iff.1 h
  obtain ⟨htext, -⟩ := Option.ite_none_right_eq_some.1 hfile
  rwa [read_eq_of_clean_eq hclean hbytes hread]

/-- A path at which nothing can be read is legible. -/
theorem FileSystem.legible_of_source_error {path : String} {e : FileError}
    (h : fs.source path = .error (.file e)) : fs.Legible path := by
  intro bytes hbytes
  unfold source at h
  rw [hbytes] at h
  dsimp only at h
  split at h <;> cases h

namespace Analysis

/-- The checkers report at the path they are given. -/
def KeepsToPaths (a : Analysis) : Prop :=
  ∀ c ∈ a.checkers, ∀ context e path found, c.check context e path = some found →
    ∀ f ∈ found, f.path = path

/-- The checkers report at the path they are given, the reader and the current file hold what was
read as text, at whatever paths, and the findings are at legible paths. -/
structure KeepsToText (fs : FileSystem) (a : Analysis) : Prop where
  checkers : a.KeepsToPaths
  reader : a.reader.Keeps fs fun _ => True
  file : ∀ f, a.file = some f → fs.source f.path = .ok f
  found : ∀ f ∈ a.found, fs.Legible f.path

/-- A loaded file was read as text at a path of the same clean form, and where none could be read
there is nothing that is no text. What the reader keeps was still read as text. -/
theorem KeepsToText.load {a : Analysis} (h : a.KeepsToText fs) (path : String) :
    { a with reader := (a.reader.load fs path).2 }.KeepsToText fs ∧
      (∀ f, (a.reader.load fs path).1 = .ok f →
        fs.source f.path = .ok f ∧ Path.clean path = Path.clean f.path) ∧
      ∀ e, (a.reader.load fs path).1 = .error (.file e) → fs.Legible path := by
  obtain ⟨⟨spelling, -, hclean, hanswer, hother⟩, hkeeps, -⟩ := h.reader.load path trivial
  refine ⟨{ h with reader := hkeeps }, fun f hf => ?_, fun e he => ?_⟩
  · have hsource : fs.source spelling = .ok f := hanswer.symm.trans hf
    obtain rfl := FileSystem.path_of_source hsource
    exact ⟨hsource, hclean.symm⟩
  · have hsource : fs.source spelling = .error (.file e) := hanswer.symm.trans he
    rcases hother with rfl | hok
    · exact FileSystem.legible_of_source_error hsource
    · rw [hsource] at hok
      cases hok

/-- Entering a file leaves everything as it has to be; elements are then only looked at if the
path is legible. -/
theorem KeepsToText.enterFile {a : Analysis} (h : a.KeepsToText fs) (path : String) :
    (a.enterFile fs path).1.KeepsToText fs ∧
      ((a.enterFile fs path).2 = .ok true → fs.Legible path) := by
  unfold Analysis.enterFile
  split
  · next hempty =>
    exact ⟨{ h with file := fun f hf => nomatch hf }, fun _ => hempty ▸ fs.legible_empty⟩
  split
  · next hcurrent =>
    obtain ⟨f, hf, rfl⟩ := Option.map_eq_some_iff.1 hcurrent
    exact ⟨{ h with }, fun _ => FileSystem.legible_of_source (h.file f hf) rfl⟩
  split
  · exact ⟨h, fun hok => nomatch hok⟩
  obtain ⟨hload, hloaded, hunread⟩ := h.load path
  dsimp only
  generalize a.reader.load fs path = loaded at hload hloaded hunread
  obtain ⟨result, reader⟩ := loaded
  unfold takeFile
  split
  · next f hresult =>
    obtain ⟨hf, hclean⟩ := hloaded f hresult
    refine ⟨{ hload with file := fun g hg => ?_ }, fun _ => FileSystem.legible_of_source hf hclean⟩
    obtain rfl := Option.some.inj hg
    exact hf
  · exact ⟨{ hload with }, fun hok => nomatch hok⟩
  · next e hresult =>
    split
    · exact ⟨{ hload with file := fun f hf => nomatch hf }, fun _ => hunread e hresult⟩
    · exact ⟨hload, fun hok => nomatch hok⟩

/-- Every step of an analysis keeps to text. -/
theorem keepsToText_invariant (fs : FileSystem) :
    Action.Invariant fs fs.Legible fun a => a.KeepsToText fs where
  scope a _ _ _ _ h := { h with }
  putBack a b ha hb := { hb with file := ha.file }
  enter a path h := h.enterFile path
  visit a e path hpath h := by
    obtain ⟨_, found, _, heq, hfound, -⟩ := Action.visit_eq e path a
    rw [heq]
    refine { h with found := fun f hf => ?_ }
    rcases hfound f hf with hf | ⟨c, hc, context, e, reported, hreported, hf⟩
    · exact h.found f hf
    · rw [h.checkers c hc context e path reported hreported f hf]
      exact hpath
  outside := fs.legible_empty

/-- No finding is about a file that exists but is no text, whatever trees were gone through before
and however paths are spelled. -/
theorem legible_of_check (fs : FileSystem) (config : Config) (families : List Family) (size : Int)
    (earlier : List Element) (root : Element) (found : List Finding)
    (hok : (((fresh config (Registry.build config families) size).after fs earlier).check
      fs root).1 = .ok found) :
    ∀ f ∈ found, fs.Legible f.path := by
  have hinvariant := keepsToText_invariant fs
  have hfresh : (fresh config (Registry.build config families) size).reset.KeepsToText fs := by
    refine ⟨fun c hc context e path reported hreported f hf => ?_, ?_, ?_, ?_⟩
    · obtain ⟨r, hr, rfl, -⟩ := Registry.mem_build hc
      exact (Registry.keepsToCodes r hr config context e path reported hreported f hf).path
    · exact Reader.keeps_ofSize fs _ size
    · exact fun f hf => nomatch hf
    · exact fun f hf => nomatch hf
  have hbefore := hinvariant.after (fun b hb => { hb with found := fun f hf => nomatch hf })
    earlier hfresh
  obtain ⟨b, -, hb, -, hsorted⟩ := hinvariant.check hbefore root
  rw [hsorted found hok]
  exact fun f hf => hb.found f ((Finding.sort_perm _).mem_iff.1 hf)

/-- A script with a comment, and scripts in it. -/
def commented (path : String) (nested : List Block) : Block :=
  ⟨.nowhere, "b", .script, path, [], [], [], [], [], [⟨⟨3, 1, 3, 2, ""⟩, "x"⟩], nested⟩

/-- The file `b` is no text and the file `a` is. Of the scripts at either, in one another and
under other spellings, only those at `a` are reported. -/
theorem legible_of_check_commented :
    let fs := ((FileSystem.empty []).write "a" [0x78]).write "b" [0xFF]
    let root : Element := .project
      ⟨"p", [], [commented "b" [commented "a" []], commented "a" [commented "./b" []]]⟩
    ∃ found, (((fresh (.builtIn .docker) (Registry.build (.builtIn .docker) [.design]) 1).after fs
        [.block (commented "b" [])]).check fs root).1 = .ok found ∧
      found.map (fun f => (f.code, f.path, f.line)) = [("design_avoid_comments", "a", 3)] ∧
      (∀ f ∈ found, fs.Legible f.path) ∧ ¬fs.Legible "b" := by
  intro fs root
  have hfound : ((((fresh (.builtIn .docker) (Registry.build (.builtIn .docker) [.design]) 1).after
      fs [.block (commented "b" [])]).check fs root).1.toOption.map fun found =>
        found.map fun f => (f.code, f.path, f.line)) =
      some [("design_avoid_comments", "a", 3)] := by decide +kernel
  have hread : fs.read "b" = .ok [0xFF] := by decide +kernel
  obtain ⟨found, hok, hplaces⟩ := exists_ok_of_toOption_map hfound
  exact ⟨found, hok, hplaces, legible_of_check _ _ _ _ _ _ _ hok,
    fun h => absurd (h _ hread) (by decide)⟩

end Analysis

end InfraSmells
