import InfraSmells.Proofs.Analysis.Entered

/-!
# Long lines are reported once for each file

A long line is reported at the blocks that are shown its file as a new one (`mem_longStatement`). So,
however many blocks share a file, each of its long lines is reported exactly once if a block enters the
file, and not at all otherwise (`long_lines_once`). Other checkers make no difference as long as they
leave the code of long lines alone, which all registered ones do (`longLines_or_avoids`).
-/

namespace InfraSmells

/-- The checker reports nothing under the code. -/
def Checker.Avoids (c : Checker) (code : String) : Prop :=
  ∀ context e path found, c.check context e path = some found →
    ∀ f ∈ found, Text.toBytes f.code ≠ Text.toBytes code

namespace Design

/-- The code of a long line. -/
def longCode : String := "implementation_long_statement"

/-- The check of lines against a bound. -/
def longLines (max : Int) : Checker :=
  .ofFindings "long-statement" (longStatement max)

/-- The line of this number, counted from one, is a line of the file and has more than `max` characters. -/
structure IsLong (max : Int) (f : SourceFile) (n : Nat) : Prop where
  pos : 0 < n
  within : n ≤ f.lines.length
  long : max < (Text.characters (f.line n)).length

variable {max : Int} {c : Context} {e : Element} {path : String} {f : SourceFile} {n : Nat}

/-- The lines of the current file come with their numbers. -/
theorem mem_numbered_lines (hf : c.file = some f) {line : String} :
    (line, n) ∈ numbered c.lines ↔ 0 < n ∧ n ≤ f.lines.length ∧ line = f.line n := by
  have hlines : c.lines = f.lines.map (Text.dropEnd "\n") := by rw [Context.lines, hf]
  rw [numbered, hlines, List.mem_zipIdx_iff_le_and_getElem?_sub, List.getElem?_map]
  refine and_congr_right fun hn => ?_
  have hline : f.line n = Text.dropEnd "\n" (f.lines[n - 1]?.getD "") :=
    if_neg (by omega)
  rw [hline]
  rcases Nat.lt_or_ge (n - 1) f.lines.length with hlt | hge
  · rw [List.getElem?_eq_getElem hlt, Option.map_some, Option.getD_some, Option.some.injEq,
      and_iff_right (by omega), eq_comm]
  · rw [List.getElem?_eq_none hge, Option.map_none]
    exact ⟨fun h => (nomatch h), fun h => absurd h.1 (by omega)⟩

/-- Long lines are reported at the block through which the file is checked, each with its number. -/
theorem mem_longStatement {d : Finding} :
    d ∈ longStatement max c e path ↔ ∃ b f n, fileBlock? c e = some b ∧ c.file = some f ∧
      IsLong max f n ∧ d = lineFinding longCode b path (f.line n) n := by
  unfold longStatement
  cases hblock : fileBlock? c e with
  | none => simp
  | some b =>
    obtain ⟨-, -, hfile, -⟩ := fileBlock?_eq_some.1 hblock
    obtain ⟨f, hf⟩ := Option.isSome_iff_exists.1 hfile
    simp only [List.mem_filterMap, Option.ite_none_right_eq_some, Option.some.injEq, Prod.exists]
    constructor
    · rintro ⟨line, n, hmem, hlong, rfl⟩
      obtain ⟨hpos, hwithin, rfl⟩ := (mem_numbered_lines hf).1 hmem
      exact ⟨b, f, n, rfl, hf, ⟨hpos, hwithin, hlong⟩, rfl⟩
    · rintro ⟨_, g, n, rfl, hg, ⟨hpos, hwithin, hlong⟩, rfl⟩
      obtain rfl : f = g := Option.some.inj (hf.symm.trans hg)
      exact ⟨f.line n, n, (mem_numbered_lines hf).2 ⟨hpos, hwithin, rfl⟩, hlong, rfl⟩

/-- The check of long lines is a check of new files, also among checkers that leave its code alone. -/
theorem checkNewFiles_longLines {checkers : List Checker} (hlong : longLines max ∈ checkers)
    (hothers : ∀ c ∈ checkers, c = longLines max ∨ c.Avoids longCode) :
    CheckNewFiles (fun k => k.1 = Text.toBytes longCode)
      (fun f path k => ∃ n : Nat, IsLong max f n ∧
        k = (Text.toBytes longCode, Text.toBytes path, (n : Int))) checkers := by
  have hfound {c : Checker} (hc : c ∈ checkers) {context : Context} {e : Element} {path : String}
      {found : List Finding} (hcheck : c.check context e path = some found) {d : Finding}
      (hd : d ∈ found) (hcode : d.key.1 = Text.toBytes longCode) :
      d ∈ longStatement max context e path := by
    rcases hothers c hc with rfl | havoids
    · rwa [Option.some.inj hcheck]
    · exact absurd hcode (havoids context e path found hcheck d hd)
  constructor
  case path =>
    intro c hc context e path found hcheck d hd hcode
    obtain ⟨b, f, n, -, -, -, rfl⟩ := mem_longStatement.1 (hfound hc hcheck hd hcode)
    rfl
  case sound =>
    intro c hc context e path found hcheck d hd hcode
    obtain ⟨b, f, n, hblock, hfile, hlong, rfl⟩ := mem_longStatement.1 (hfound hc hcheck hd hcode)
    exact ⟨b, f, hblock, hfile, n, hlong, rfl⟩
  case complete =>
    rintro context e path b f _ hblock hfile ⟨n, hn, rfl⟩
    refine ⟨longLines max, hlong, _, rfl, lineFinding longCode b path (f.line n) n, ?_, rfl⟩
    exact mem_longStatement.2 ⟨b, f, n, hblock, hfile, hn, rfl⟩

/-- Of the registered checkers only the one for long lines has its code. -/
theorem longLines_or_avoids (config : Config) (families : List Family) :
    ∀ c ∈ Registry.build config families, c = longLines maxStatementLength ∨ c.Avoids longCode := by
  have hnamed : Registry.all.filter (·.name == "long-statement") =
      [register "long-statement" [longCode] fun _ => longStatement maxStatementLength] := rfl
  have hothers : ∀ r ∈ Registry.all, r.name ≠ "long-statement" → ∀ code ∈ r.codes, code ≠ longCode := by
    decide +kernel
  have hlong : Text.IsPlain longCode := Text.isPlain_ascii (by decide)
  intro c hc
  obtain ⟨r, hr, rfl, -⟩ := Registry.mem_build hc
  by_cases hname : r.name = "long-statement"
  · have hmem : r ∈ Registry.all.filter (·.name == "long-statement") :=
      List.mem_filter.2 ⟨hr, beq_iff_eq.2 hname⟩
    rw [hnamed, List.mem_singleton] at hmem
    subst hmem
    exact .inl rfl
  · refine .inr fun context e path found hcheck f hf hsame => ?_
    have hcode := (Registry.keepsToCodes r hr config context e path found hcheck f hf).code
    obtain ⟨smell, hsmell, -⟩ := Registry.codes_catalogued r hr f.code hcode
    obtain ⟨hmem, hsmell⟩ := Smell.ofCode?_eq_some_iff.1 hsmell
    have hplain : Text.IsPlain f.code :=
      hsmell ▸ Text.isPlain_ascii (Smell.isLine_catalog smell hmem).1.characters.2
    exact hothers r hr hname _ hcode
      (by rw [← hplain.ofBytes_toBytes, hsame, hlong.ofBytes_toBytes])

/-- The check of long lines is registered for every technology. -/
theorem longLines_mem_build {config : Config} {families : List Family}
    (h : families = [] ∨ Family.design ∈ families) :
    longLines maxStatementLength ∈ Registry.build config families := by
  refine List.mem_map.2
    ⟨register "long-statement" [longCode] fun _ => longStatement maxStatementLength, ?_, rfl⟩
  refine List.mem_filter.2
    ⟨List.mem_append_left _ (List.mem_append_left _ (by simp [checkers, longCode])), ?_⟩
  simpa [Registration.appliesTo, register] using h

/-- For each file that a block enters, each line with more than `max` characters is reported exactly once,
and no other line of any file is, whichever checkers there are besides and whichever trees were gone through
before. -/
theorem long_lines_once (fs : FileSystem) (config : Config) (checkers : List Checker) (size max : Int)
    (earlier : List Element) (root : Element) (found : List Finding)
    (hlong : longLines max ∈ checkers)
    (hothers : ∀ c ∈ checkers, c = longLines max ∨ c.Avoids longCode)
    (hearlier : ∀ e ∈ earlier, e.PathsAre Path.IsClean) (hroot : root.PathsAre Path.IsClean)
    (hok : (((Analysis.fresh config checkers size).after fs earlier).check fs root).1 = .ok found) :
    (found.map (·.key)).Nodup ∧
      ∀ k : Finding.Key, k.1 = Text.toBytes longCode →
        (k ∈ found.map (·.key) ↔ ∃ path f n, root.Enters fs path ∧ fs.source path = .ok f ∧
          IsLong max f n ∧ k.2 = (Text.toBytes path, (n : Int))) := by
  obtain ⟨hnodup, hkeys⟩ :=
    Analysis.check_entered (checkNewFiles_longLines hlong hothers) hearlier hroot hok
  refine ⟨hnodup, fun k hk => (hkeys k hk).trans ?_⟩
  constructor
  · rintro ⟨path, f, henters, hsource, n, hn, rfl⟩
    exact ⟨path, f, n, henters, hsource, hn, rfl⟩
  · rintro ⟨path, f, n, henters, hsource, hn, hplace⟩
    exact ⟨path, f, henters, hsource, n, hn, Prod.ext hk hplace⟩

/-- A block with blocks in it. -/
def blockWith (type : BlockType) (path : String) (nested : List Block) : Block :=
  ⟨.nowhere, "b", type, path, [], [], [], [], [], [], nested⟩

/-- The paths of a block with blocks in it are its own and those of the blocks in it. -/
theorem pathsAre_blockWith {ok : String → Prop} {type : BlockType} {path : String} {nested : List Block}
    (hpath : ok path) (hnested : ∀ b ∈ nested, (Element.block b).PathsAre ok) :
    (Element.block (blockWith type path nested)).PathsAre ok := by
  refine Element.pathsAre_iff.2 ⟨fun p hp => ?_, fun c hc => ?_⟩
  · cases hp
    exact hpath
  · obtain ⟨b, hb, rfl⟩ := List.mem_map.1 (show c ∈ nested.map Element.block from hc)
    exact hnested b hb

/-- The file `a` is entered by two scripts, and its long line is reported once. The file `c` is entered by
a part of a script only, and the other script at `c` stands in `b`, which is no text. Among all checkers of
the family, the line of the file `w` that is one character too long is found as well. -/
theorem long_lines_once_shared :
    let fs := (((FileSystem.empty []).write "a" (Text.toBytes "x\nlong")).write "b" [0xFF]).write "c"
      (Text.toBytes "long")
    let root : Element := .project ⟨"p", [],
      [blockWith .script "a" [blockWith .script "" [], blockWith .block "c" [], blockWith .script "a" []],
        blockWith .script "b" [blockWith .script "c" []], blockWith .script "a" []]⟩
    let wide := (FileSystem.empty []).write "w" (List.replicate 141 0x78)
    let config := Config.builtIn .docker
    let script : Element := .block (blockWith .script "w" [])
    (longLines 3 ∈ [longLines 3] ∧ root.PathsAre Path.IsClean ∧
      ∃ found, (((Analysis.fresh default [longLines 3] 1).after fs []).check fs root).1 = .ok found ∧
        found.map (fun d => (d.code, d.path, d.line)) = [(longCode, "a", 2)] ∧
        root.Enters fs "a" ∧ ¬root.Enters fs "c") ∧
    ∃ found, (((Analysis.fresh config (Registry.build config [.design]) 1).after wide []).check wide
        script).1 = .ok found ∧ (found.map (·.key)).Nodup ∧
      (Text.toBytes longCode, Text.toBytes "w", (1 : Int)) ∈ found.map (·.key) := by
  intro fs root wide config script
  refine ⟨?_, ?_⟩
  · have hlong : longLines 3 ∈ [longLines 3] := .head _
    have hclean : root.PathsAre Path.IsClean := by
      have ha : Path.IsClean "a" := .inr (by decide)
      have hb : Path.IsClean "b" := .inr (by decide)
      have hc : Path.IsClean "c" := .inr (by decide)
      have hleaf {type : BlockType} {path : String} (h : Path.IsClean path) :
          (Element.block (blockWith type path [])).PathsAre Path.IsClean :=
        pathsAre_blockWith h fun _ hb => nomatch hb
      have hblocks : ∀ b ∈ [blockWith .script "a" [blockWith .script "" [], blockWith .block "c" [],
          blockWith .script "a" []], blockWith .script "b" [blockWith .script "c" []],
          blockWith .script "a" []], (Element.block b).PathsAre Path.IsClean := by
        simp only [List.forall_mem_cons]
        refine ⟨pathsAre_blockWith ha ?_, pathsAre_blockWith hb ?_, hleaf ha, fun _ h => nomatch h⟩
        · simp only [List.forall_mem_cons]
          exact ⟨hleaf (.inl rfl), hleaf hc, hleaf ha, fun _ h => nomatch h⟩
        · exact List.forall_mem_singleton.2 (hleaf hc)
      refine Element.pathsAre_iff.2 ⟨fun p hp => (nomatch hp), fun e he => ?_⟩
      obtain ⟨b, hb, rfl⟩ := List.mem_map.1 he
      exact hblocks b hb
    have hrun : ((((Analysis.fresh default [longLines 3] 1).after fs []).check fs root).1.toOption.map
        fun found => found.map fun d => (d.code, d.path, d.line)) = some [(longCode, "a", 2)] := by
      decide +kernel
    obtain ⟨found, hok, hfound⟩ := exists_ok_of_toOption_map hrun
    obtain ⟨-, hkeys⟩ := long_lines_once fs default [longLines 3] 1 3 [] root found hlong
      (fun c hc => .inl (List.mem_singleton.1 hc)) (fun _ h => nomatch h) hclean hok
    refine ⟨hlong, hclean, found, hok, hfound, ⟨_, .child (fun _ h => nomatch h) (.head _) (.refl _),
      _, rfl, by decide, rfl, nofun⟩, fun henters => ?_⟩
    have hsource : fs.source "c" = .ok ⟨"c", "long", ["long"], false, false⟩ := by decide +kernel
    have hline : IsLong 3 ⟨"c", "long", ["long"], false, false⟩ 1 := ⟨by decide, by decide, by decide +kernel⟩
    have hmem := (hkeys (Text.toBytes longCode, Text.toBytes "c", (1 : Int)) rfl).2
      ⟨"c", _, 1, henters, hsource, hline, rfl⟩
    obtain ⟨d, hd, hkey⟩ := List.mem_map.1 hmem
    have hnumber : d.line = 1 := congrArg (·.2.2) hkey
    have hplace := List.mem_map_of_mem (f := fun d : Finding => (d.code, d.path, d.line)) hd
    rw [hfound, hnumber] at hplace
    simp at hplace
  · have hclean : script.PathsAre Path.IsClean :=
      pathsAre_blockWith (.inr (by decide)) fun _ hb => nomatch hb
    have hrun : ((((Analysis.fresh config (Registry.build config [.design]) 1).after wide []).check wide
        script).1.toOption.map fun _ => ()) = some () := by
      decide +kernel
    obtain ⟨found, hok, -⟩ := exists_ok_of_toOption_map hrun
    obtain ⟨hnodup, hkeys⟩ := long_lines_once wide config (Registry.build config [.design]) 1
      maxStatementLength [] script found (longLines_mem_build (.inr (.head _)))
      (longLines_or_avoids config [.design]) (fun _ h => nomatch h) hclean hok
    refine ⟨found, hok, hnodup, (hkeys _ rfl).2 ?_⟩
    let line := String.ofList (List.replicate 141 'x')
    have hsource : wide.source "w" = .ok ⟨"w", line, [line], false, false⟩ := by decide +kernel
    have hlong : IsLong maxStatementLength ⟨"w", line, [line], false, false⟩ 1 :=
      ⟨by decide, by decide, by decide +kernel⟩
    exact ⟨"w", _, 1, ⟨_, .refl _, _, rfl, by decide, rfl, nofun⟩, hsource, hlong, rfl⟩

end Design

end InfraSmells
