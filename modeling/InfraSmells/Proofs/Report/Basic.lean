import InfraSmells.Report.Basic
import InfraSmells.Proofs.Csv.Reading
import InfraSmells.Proofs.Datum.Json
import InfraSmells.Proofs.Decimal.Integer
import InfraSmells.Proofs.Text.Cut
import InfraSmells.Proofs.Text.Distinct
import Mathlib.Data.List.Nodup

/-!
# What reports say of findings

A report is written if every code is in the catalog, and nothing of it otherwise
(`Report.render_of_known`, `Report.render_of_unknown`). A table has a row for each finding, and its text
tells the rows (`Report.tables_tell_rows`). A log has a result for each finding and a rule for each code
that occurs, to which the results point (`Sarif.isConsistent_logOf`, `Report.sarif_is_consistent`); the
parts of a log are looked up in the data that are written (`Sarif.rulesIn`, `Sarif.resultsIn`), and the
written text is read back as these data (`Sarif.isShown_logOf`).
-/

namespace InfraSmells

/-! ## Known codes -/

/-- Every finding has a code of the catalog. -/
def Finding.AllKnown (found : List Finding) : Prop :=
  ∀ f ∈ found, ∃ smell ∈ Smell.catalog, smell.code = f.code

instance : DecidablePred Finding.AllKnown :=
  fun found => inferInstanceAs (Decidable (∀ f ∈ found, ∃ smell ∈ Smell.catalog, smell.code = f.code))

namespace Smell

/-- The text is a line of ASCII characters. -/
def IsLine (s : String) : Prop :=
  ∃ cs, s = String.ofList cs ∧ (cs.all fun c => c != '\n' && c.toNat < 0x80) = true

set_option maxRecDepth 4000 in
/-- Codes and descriptions of the catalog are lines. -/
theorem isLine_catalog : ∀ smell ∈ catalog, IsLine smell.code ∧ IsLine smell.description := by
  unfold catalog
  -- a literal is cheap to take apart as the text of its characters, and dear as a text
  repeat' first
    | exact List.forall_mem_nil _
    | refine List.forall_mem_cons.2
        ⟨⟨⟨_, rfl, by decide +kernel⟩, ⟨_, rfl, by decide +kernel⟩⟩, ?_⟩

/-- A line holds no line feed, and its characters are of ASCII. -/
theorem IsLine.characters {s : String} (h : IsLine s) :
    '\n' ∉ s.toList ∧ Text.isAscii s = true := by
  obtain ⟨cs, rfl, hall⟩ := h
  rw [List.all_eq_true] at hall
  simp only [Bool.and_eq_true, bne_iff_ne] at hall
  rw [Text.isAscii, String.toList_ofList]
  exact ⟨fun hmem => (hall _ hmem).1 rfl, List.all_eq_true.2 fun c hc => (hall c hc).2⟩

/-- No smell is found for a code if and only if none has it. -/
theorem ofCode?_eq_none_iff {code : String} :
    ofCode? code = none ↔ ∀ smell ∈ catalog, smell.code ≠ code := by
  simp [ofCode?, List.find?_eq_none]

/-- No two smells of the catalog have one code, so a smell is found for its code. -/
theorem ofCode?_eq_some_iff {code : String} {smell : Smell} :
    ofCode? code = some smell ↔ smell ∈ catalog ∧ smell.code = code := by
  have hdistinct : (catalog.map (·.code)).Nodup := by decide +kernel
  constructor
  · intro h
    exact ⟨List.mem_of_find?_eq_some h, by simpa using List.find?_some h⟩
  · rintro ⟨hmem, rfl⟩
    cases h : ofCode? smell.code with
    | none => exact absurd rfl (ofCode?_eq_none_iff.1 h smell hmem)
    | some other =>
      have hcode : other.code = smell.code := by simpa using List.find?_some h
      rw [List.inj_on_of_nodup_map hdistinct (List.mem_of_find?_eq_some h) hmem hcode]

/-- The smells listed for a category are those whose codes lead to it. -/
theorem mem_inCategory {name : String} {smell : Smell} :
    smell ∈ inCategory name ↔
      ofCode? smell.code = some smell ∧ categoryNameOf smell.code = name := by
  rw [inCategory, List.mem_filter, beq_iff_eq, ofCode?_eq_some_iff, and_iff_left rfl]
  refine and_congr_right fun hmem => ?_
  rw [categoryNameOf, ofCode?_eq_some_iff.2 ⟨hmem, rfl⟩]
  rfl

end Smell

namespace Report

variable {fs : FileSystem} {o : Options} {here : String} {found : List Finding}

/-- Findings whose codes are all known are reported in every format there is. -/
theorem render_of_known (h : Finding.AllKnown found) {name : String} {format : Format}
    (hformat : Format.named? name = some format) :
    render fs o name found = .ok (write fs o found format) := by
  have hknown : Finding.unknownCode? found = none := by
    rw [Finding.unknownCode?, Option.map_eq_none_iff, List.find?_eq_none]
    intro f hf hnone
    obtain ⟨smell, hsmell, hcode⟩ := h f hf
    exact Smell.ofCode?_eq_none_iff.1 (Option.isNone_iff_eq_none.1 hnone) smell hsmell hcode
  rw [render, hknown, hformat]

/-- A finding with an unknown code spoils the report in every format. -/
theorem render_of_unknown (h : ¬Finding.AllKnown found) :
    ∃ f ∈ found, (∀ smell ∈ Smell.catalog, smell.code ≠ f.code) ∧
      ∀ name, render fs o name found = .error (.unknownCode f.code) := by
  cases hfind : found.find? fun f => (Smell.ofCode? f.code).isNone with
  | none =>
    refine absurd (fun f hf => ?_) h
    have hsome := List.find?_eq_none.1 hfind f hf
    by_contra hne
    refine hsome (Option.isNone_iff_eq_none.2 (Smell.ofCode?_eq_none_iff.2 fun smell hsmell hcode => ?_))
    exact hne ⟨smell, hsmell, hcode⟩
  | some f =>
    have hnone := List.find?_some hfind
    refine ⟨f, List.mem_of_find?_eq_some hfind,
      Smell.ofCode?_eq_none_iff.1 (Option.isNone_iff_eq_none.1 hnone), fun name => ?_⟩
    rw [render, Finding.unknownCode?, hfind]
    rfl

/-! ## Tables -/

/-- The row of a finding: its path as it is shown, its line, its code and its snippet. -/
def rowOf (o : Options) (here : String) (f : Finding) : String × Int × String × String :=
  (o.pathOf here f, f.line, f.code, f.snippet)

/-- Different numbers are written differently. -/
theorem toString_inj {m n : Int} : toString m = toString n ↔ m = n := by
  refine ⟨fun h => ?_, fun h => h ▸ rfl⟩
  have hends : Json.Ends [] := fun _ hc => nomatch hc
  have hread (i : Int) : Json.readNumber ((toString i).toList ++ []) =
      some (.decimal (i < 0) i.natAbs 0 true, []) := Json.readNumber_integer i hends
  have hsame := hread m
  rw [h, hread n] at hsame
  simp only [Option.some.injEq, Prod.mk.injEq, Numeral.decimal.injEq, decide_eq_decide] at hsame
  omega

/-- The fields of a row tell the row. -/
theorem cells_inj {a b : String × Int × String × String}
    (h : [a.1, toString a.2.1, a.2.2.1, a.2.2.2] = [b.1, toString b.2.1, b.2.2.1, b.2.2.2]) :
    a = b := by
  simp only [List.cons.injEq, toString_inj, and_true] at h
  obtain ⟨hpath, hline, hcode, hsnippet⟩ := h
  exact Prod.ext hpath (Prod.ext hline (Prod.ext hcode hsnippet))

/-- The text of rows tells what they are made of. -/
theorem join_map_row_eq_iff {α : Type} {cells : α → List String} (hne : ∀ a, cells a ≠ [])
    (hinj : ∀ {a b}, cells a = cells b → a = b) {as bs : List α} :
    String.join (as.map fun a => Csv.row (cells a)) =
      String.join (bs.map fun b => Csv.row (cells b)) ↔ as = bs := by
  refine ⟨fun h => ?_, fun h => h ▸ rfl⟩
  have hrows (xs : List α) : ∀ row ∈ xs.map cells, row ≠ [] := by
    intro row hrow
    obtain ⟨x, -, rfl⟩ := List.mem_map.1 hrow
    exact hne x
  refine (List.map_inj_right fun _ _ => hinj).1 (Csv.join_rows_inj (hrows as) (hrows bs) ?_)
  rw [List.map_map, List.map_map]
  exact h

/-- Tables of values are the same if and only if their rows are. -/
theorem csv_eq_iff {xs ys : List Finding} :
    csv o here xs = csv o here ys ↔ xs.map (rowOf o here) = ys.map (rowOf o here) := by
  rw [← join_map_row_eq_iff (fun _ => List.cons_ne_nil _ _) cells_inj, List.map_map, List.map_map]
  rfl

/-- Tables with descriptions are the same if and only if their rows are. -/
theorem linter_eq_iff {xs ys : List Finding} :
    linter o here xs = linter o here ys ↔ (xs.map fun f => (describe f, rowOf o here f)) =
      ys.map fun f => (describe f, rowOf o here f) := by
  have hinj {a b : String × String × Int × String × String}
      (h : [a.1, a.2.1, toString a.2.2.1, a.2.2.2.1, a.2.2.2.2] =
        [b.1, b.2.1, toString b.2.2.1, b.2.2.2.1, b.2.2.2.2]) : a = b := by
    obtain ⟨hdescription, hrow⟩ := List.cons.inj h
    exact Prod.ext hdescription (cells_inj hrow)
  rw [← join_map_row_eq_iff (fun _ => List.cons_ne_nil _ _) hinj, List.map_map, List.map_map]
  rfl

/-- A line number is written without line feeds. -/
theorem lineFeed_notMem_toString (n : Int) : '\n' ∉ (toString n).toList := by
  have hdigits (m : Nat) : '\n' ∉ Nat.toDigits 10 m := fun h =>
    absurd (Nat.isDigit_of_mem_toDigits (by decide) (by decide) h) (by decide)
  cases n with
  | ofNat m =>
    show '\n' ∉ (toString (Int.ofNat m)).toList
    simpa [toString, Int.repr] using hdigits m
  | negSucc m =>
    show '\n' ∉ (toString (Int.negSucc m)).toList
    simpa [toString, Int.repr] using hdigits (m + 1)

/-- A snippet is one line. -/
theorem lineFeed_notMem_snippet (f : Finding) : '\n' ∉ f.snippet.toList := by
  have hline : '\n' ∉ (Text.before "\n" f.context).toList := by
    rw [Text.toList_before (c := '\n') rfl]
    intro h
    exact absurd (List.mem_takeWhile_imp h) (by simp)
  intro h
  rw [Finding.snippet, Text.trim, String.toList_ofList, Text.trimEndChars, List.mem_reverse] at h
  exact hline ((List.dropWhile_sublist _).mem
    (List.mem_reverse.1 ((List.dropWhile_sublist _).mem h)))

/-- A code of the catalog has no line feed, and neither has its description. -/
theorem lineFeed_notMem_of_known (h : Finding.AllKnown found) {f : Finding} (hf : f ∈ found) :
    '\n' ∉ f.code.toList ∧ '\n' ∉ (describe f).toList := by
  obtain ⟨smell, hsmell, hcode⟩ := h f hf
  refine ⟨hcode ▸ (Smell.isLine_catalog smell hsmell).1.characters.1, ?_⟩
  rw [describe]
  cases hof : Smell.ofCode? f.code with
  | none => exact absurd hcode (Smell.ofCode?_eq_none_iff.1 hof smell hsmell)
  | some other =>
    exact (Smell.isLine_catalog other (List.mem_of_find?_eq_some hof)).2.characters.1

/-- The fields of a finding with a known code hold no line feed if its path does not. -/
theorem lineFeed_notMem_fields (h : Finding.AllKnown found) {f : Finding} (hf : f ∈ found)
    (hpath : '\n' ∉ (o.pathOf here f).toList) : ∀ s ∈ fields o here f, '\n' ∉ s.toList := by
  intro s hs
  simp only [fields, List.mem_cons, List.not_mem_nil, or_false] at hs
  rcases hs with rfl | rfl | rfl | rfl
  · exact hpath
  · exact lineFeed_notMem_toString f.line
  · exact (lineFeed_notMem_of_known h hf).1
  · exact lineFeed_notMem_snippet f

/-- A table has a line feed for each finding, as long as no path holds one. -/
def HasLineEach (o : Options) (here : String) (found : List Finding) (table : String) : Prop :=
  (∀ f ∈ found, '\n' ∉ (o.pathOf here f).toList) → table.toList.count '\n' = found.length

/-- Rows of findings whose fields hold no line feed have a line each. -/
theorem count_join_map_row {row : Finding → List String}
    (h : ∀ f ∈ found, ∀ s ∈ row f, '\n' ∉ s.toList) :
    (String.join (found.map fun f => Csv.row (row f))).toList.count '\n' = found.length := by
  have hrows : ∀ a ∈ found.map row, ∀ s ∈ a, '\n' ∉ s.toList := by
    intro a ha
    obtain ⟨f, hf, rfl⟩ := List.mem_map.1 ha
    exact h f hf
  have hcount := Csv.count_join_rows hrows
  rwa [List.map_map, List.length_map] at hcount

/-- Both tables have a line for each finding with a known code. -/
theorem hasLineEach (o : Options) (here : String) (h : Finding.AllKnown found) :
    HasLineEach o here found (csv o here found) ∧
      HasLineEach o here found (linter o here found) := by
  refine ⟨fun hpaths => ?_, fun hpaths => ?_⟩
  · exact count_join_map_row fun f hf => lineFeed_notMem_fields h hf (hpaths f hf)
  · exact count_join_map_row fun f hf => List.forall_mem_cons.2
      ⟨(lineFeed_notMem_of_known h hf).2, lineFeed_notMem_fields h hf (hpaths f hf)⟩

/-- The tables of findings tell their rows, in front of which the longer form puts the description; and
each finding has a line of its own, as long as no path breaks it. -/
theorem tables_tell_rows (fs : FileSystem) (o : Options) {xs ys : List Finding}
    (hxs : Finding.AllKnown xs) (hys : Finding.AllKnown ys) :
    (∃ a b, render fs o "csv" xs = .ok a ∧ render fs o "csv" ys = .ok b ∧
      (a = b ↔ xs.map (rowOf o fs.herePath) = ys.map (rowOf o fs.herePath)) ∧
      HasLineEach o fs.herePath xs a) ∧
    ∃ a b, render fs o "linter" xs = .ok a ∧ render fs o "linter" ys = .ok b ∧
      (a = b ↔ (xs.map fun f => (describe f, rowOf o fs.herePath f)) =
        ys.map fun f => (describe f, rowOf o fs.herePath f)) ∧
      HasLineEach o fs.herePath xs a := by
  obtain ⟨hcsv, hlinter⟩ := hasLineEach o fs.herePath hxs
  exact ⟨⟨_, _, render_of_known hxs rfl, render_of_known hys rfl, csv_eq_iff, hcsv⟩,
    _, _, render_of_known hxs rfl, render_of_known hys rfl, linter_eq_iff, hlinter⟩

/-- A comma in a path is not taken for the one behind it, and the second line of a context is not
shown. -/
theorem tables_tell_rows_comma :
    let f : Finding := { code := "sec_https", path := "a,1", line := 2, context := "http://a\n,2" }
    let g : Finding := { f with path := "a", line := 12 }
    Finding.AllKnown [f] ∧ Finding.AllKnown [g] ∧
      ∃ a b, render (.empty []) {} "csv" [f] = .ok a ∧ render (.empty []) {} "csv" [g] = .ok b ∧
        a ≠ b ∧ a.toList.count '\n' = 1 := by
  intro f g
  have hf : Finding.AllKnown [f] := by decide +kernel
  have hg : Finding.AllKnown [g] := by decide +kernel
  obtain ⟨⟨a, b, ha, hb, hrows, hlines⟩, -⟩ := tables_tell_rows (.empty []) {} hf hg
  refine ⟨hf, hg, a, b, ha, hb, fun h => absurd (hrows.1 h) (by simp [rowOf, f, g]), hlines ?_⟩
  exact List.forall_mem_singleton.2 (by decide)

end Report

namespace Sarif

open Report

/-! ## The parts of a log -/

/-- The value that names lead to, from table to table. -/
def follow? : List String → Datum → Option Datum
  | [], d => some d
  | name :: names, d => (d.get? name).bind (follow? names)

/-- The value that names lead to in the one run of a log. -/
def inRun? (names : List String) (log : Datum) : Option Datum :=
  (log.get? "runs").bind fun runs => runs.items.head?.bind (follow? names)

/-- The rules of a log. -/
def rulesIn (log : Datum) : List Datum :=
  ((inRun? ["tool", "driver", "rules"] log).map Datum.items).getD []

/-- The results of a log. -/
def resultsIn (log : Datum) : List Datum :=
  ((inRun? ["results"] log).map Datum.items).getD []

/-- The region of a result, if it has one. -/
def regionIn? (result : Datum) : Option Datum :=
  (result.get? "locations").bind fun locations =>
    locations.items.head?.bind (follow? ["physicalLocation", "region"])

/-- A log holds its rules, whatever else is in it. -/
theorem rulesIn_toDatum (log : Log) : rulesIn log.toDatum = log.rules.map Rule.toDatum := by
  unfold Log.toDatum rulesIn inRun?
  by_cases hversion : log.tool.version = "" <;> by_cases harguments : log.tool.arguments = [] <;>
    simp [Datum.get?, Datum.members, Datum.items, follow?, hversion, harguments]

/-- A log holds its results, whatever else is in it. -/
theorem resultsIn_toDatum (log : Log) : resultsIn log.toDatum = log.results.map Result.toDatum := by
  unfold Log.toDatum resultsIn inRun?
  simp [Datum.get?, Datum.members, Datum.items, follow?]

/-- A result holds its region, if it has one. -/
theorem regionIn?_toDatum (r : Result) : regionIn? r.toDatum = r.region.map Region.toDatum := by
  unfold Result.toDatum regionIn?
  cases r.region <;> simp [Datum.get?, Datum.members, Datum.items, follow?]

/-! ## The codes of a log -/

section
variable {found : List Finding}

/-- A code has a rule if a finding has it. -/
theorem mem_codesOf {code : String} : code ∈ codesOf found ↔ ∃ f ∈ found, f.code = code := by
  rw [codesOf, Text.mem_sortDistinct, List.mem_map]

/-- The codes of a log are strictly increasing. -/
theorem increasing_codesOf (h : Finding.AllKnown found) : Text.Increasing (codesOf found) := by
  refine Text.increasing_sortDistinct fun code hcode => ?_
  obtain ⟨f, hf, rfl⟩ := List.mem_map.1 hcode
  obtain ⟨smell, hsmell, hsame⟩ := h f hf
  have hascii := (Smell.isLine_catalog smell hsmell).1.characters.2
  exact hsame ▸ (Text.isPlain_ascii hascii).ofBytes_toBytes

/-- No code is there twice. -/
theorem nodup_codesOf (h : Finding.AllKnown found) : (codesOf found).Nodup := by
  refine (increasing_codesOf h).imp fun {a b} hlt hsame => ?_
  have hself : Text.compareText a a = .eq := Std.ReflCmp.compare_self
  rw [← hsame, hself] at hlt
  cases hlt

/-- There are no more codes than the catalog has, so that the place of each is a number of 32 bits. -/
theorem idxOf_codesOf_lt (h : Finding.AllKnown found) {f : Finding} (hf : f ∈ found) :
    (codesOf found).idxOf f.code < (codesOf found).length ∧ (codesOf found).length ≤ twoPow 32 := by
  refine ⟨List.idxOf_lt_length_of_mem (mem_codesOf.2 ⟨f, hf, rfl⟩), ?_⟩
  have hsubset : codesOf found ⊆ Smell.catalog.map (·.code) := by
    intro code hcode
    obtain ⟨f, hf, rfl⟩ := mem_codesOf.1 hcode
    obtain ⟨smell, hsmell, hsame⟩ := h f hf
    exact List.mem_map.2 ⟨smell, hsmell, hsame⟩
  calc (codesOf found).length ≤ (Smell.catalog.map (·.code)).length :=
        (List.subperm_of_subset (nodup_codesOf h) hsubset).length_le
    _ ≤ twoPow 32 := by decide

end

/-! ## Consistency -/

/-- A result shows a finding and points to the rule of its code. -/
structure Shows (rules : List Datum) (f : Finding) (result : Datum) : Prop where
  ruleId : result.get? "ruleId" = some (.text f.code)
  rule : ∃ (i : Nat) (rule : Datum) (level : String),
    result.get? "ruleIndex" = some (.number (.integer i)) ∧ i < 2 ^ 32 ∧ rules[i]? = some rule ∧
      rule.get? "id" = some (.text f.code) ∧ result.get? "level" = some (.text level) ∧
      follow? ["defaultConfiguration", "level"] rule = some (.text level)
  hasRegion : (regionIn? result).isSome ↔ 1 ≤ f.line ∧ f.line ≤ 2 ^ 32 - 1
  startLine : ∀ region, regionIn? result = some region →
    region.get? "startLine" = some (.number (.integer f.line))

/-- A log shows each finding by a result of its own, in their order, and its rules are those of the
results, sorted by their identifiers. -/
structure IsConsistent (log : Datum) (found : List Finding) : Prop where
  results : List.Forall₂ (Shows (rulesIn log)) found (resultsIn log)
  sorted : ∃ ids, (rulesIn log).map (·.get? "id") = ids.map (some <| .text ·) ∧ Text.Increasing ids
  used : ∀ i < (rulesIn log).length, ∃ result ∈ resultsIn log,
    result.get? "ruleIndex" = some (.number (.integer i))

/-- The rule, its place and the level of a written result. -/
theorem Result.get?_toDatum (r : Result) : r.toDatum.get? "ruleId" = some (.text r.ruleId) ∧
    r.toDatum.get? "ruleIndex" = some (.number (.integer r.ruleIndex)) ∧
    r.toDatum.get? "level" = some (.text r.level) :=
  ⟨rfl, rfl, rfl⟩

/-- The line of a written region. -/
theorem Region.get?_toDatum (r : Region) :
    r.toDatum.get? "startLine" = some (.number (.integer r.startLine)) := by
  unfold Region.toDatum
  split <;> rfl

/-- A finding has a region if its line is one that 32 bits hold, and this line is its start. -/
theorem regionOf_eq (f : Finding) :
    regionOf f = if 1 ≤ f.line ∧ f.line ≤ 2 ^ 32 - 1 then some ⟨f.line, f.snippet⟩ else none := by
  have hsize : ((twoPow 32 : Nat) : Int) = 2 ^ 32 := rfl
  have hbounds : (decide (0 < f.line) && decide (f.line < twoPow 32)) = true ↔
      1 ≤ f.line ∧ f.line ≤ 2 ^ 32 - 1 := by
    rw [Bool.and_eq_true, decide_eq_true_eq, decide_eq_true_eq, hsize]
    omega
  rw [regionOf]
  exact if_congr hbounds rfl rfl

/-- The result of a finding shows it. -/
theorem shows_resultOf {found : List Finding} (h : Finding.AllKnown found) (path : Finding → String)
    {f : Finding} (hf : f ∈ found) :
    Shows ((codesOf found).map fun code => (ruleOf code).toDatum) f
      (resultOf (codesOf found) path f).toDatum := by
  obtain ⟨hlt, hle⟩ := idxOf_codesOf_lt h hf
  have hregion : regionIn? (resultOf (codesOf found) path f).toDatum =
      (regionOf f).map Region.toDatum := regionIn?_toDatum _
  refine ⟨rfl, ⟨(codesOf found).idxOf f.code, (ruleOf f.code).toDatum,
    level (Smell.severityOf f.code), rfl, Nat.lt_of_lt_of_le hlt hle, ?_, rfl, rfl, rfl⟩, ?_, ?_⟩
  · rw [List.getElem?_map, List.getElem?_idxOf (mem_codesOf.2 ⟨f, hf, rfl⟩)]
    rfl
  · rw [hregion, Option.isSome_map, regionOf_eq, Option.isSome_ite]
  · intro region hsome
    rw [hregion, regionOf_eq] at hsome
    obtain ⟨r, hr, rfl⟩ := Option.map_eq_some_iff.1 hsome
    obtain ⟨-, hr⟩ := Option.ite_none_right_eq_some.1 hr
    cases hr
    exact Region.get?_toDatum _

/-- The log of findings is consistent. -/
theorem isConsistent_logOf {found : List Finding} (h : Finding.AllKnown found) (tool : Tool)
    (path : Finding → String) : IsConsistent (logOf tool path found).toDatum found := by
  have hrules : rulesIn (logOf tool path found).toDatum =
      (codesOf found).map fun code => (ruleOf code).toDatum := by
    rw [rulesIn_toDatum, logOf, List.map_map]
    rfl
  have hresults : resultsIn (logOf tool path found).toDatum =
      found.map fun f => (resultOf (codesOf found) path f).toDatum := by
    rw [resultsIn_toDatum, logOf, List.map_map]
    rfl
  refine ⟨?_, ⟨codesOf found, ?_, increasing_codesOf h⟩, ?_⟩
  · rw [hrules, hresults, List.forall₂_map_right_iff, List.forall₂_same]
    exact fun f hf => shows_resultOf h path hf
  · rw [hrules, List.map_map]
    rfl
  · intro i hi
    rw [hrules, List.length_map] at hi
    obtain ⟨f, hf, hcode⟩ := mem_codesOf.1 (List.getElem_mem hi)
    refine ⟨_, hresults ▸ List.mem_map.2 ⟨f, hf, rfl⟩, ?_⟩
    rw [(Result.get?_toDatum _).2.1, resultOf, hcode, (nodup_codesOf h).idxOf_getElem]

/-! ## Logs that are read back -/

section
variable (n : Nat)

/-- A message can be read back, whatever it says. -/
theorem isShown_messageObject (s : String) : (messageObject s).IsShown (n + 1) :=
  .table (List.forall_mem_singleton.2 (Datum.isShown_text n s))

/-- A rule can be read back. -/
theorem Rule.isShown (r : Rule) : r.toDatum.IsShown (n + 2) := by
  have htext := Datum.isShown_text (n + 1)
  have hmessage := isShown_messageObject n
  have hmember (name s : String) : (Datum.table [(name, .text s)]).IsShown (n + 1) :=
    .table (List.forall_mem_singleton.2 (Datum.isShown_text n s))
  refine .table ?_
  simp only [List.forall_mem_cons, htext, hmessage, hmember, true_and]
  exact List.forall_mem_nil _

/-- A region can be read back. -/
theorem Region.isShown {r : Region} (h : fitsInt64 r.startLine = true) :
    r.toDatum.IsShown (n + 2) := by
  refine .table (List.forall_mem_append.2
    ⟨List.forall_mem_singleton.2 (Datum.isShown_integer _ h), ?_⟩)
  split
  · exact List.forall_mem_nil _
  · exact List.forall_mem_singleton.2 (isShown_messageObject n _)

/-- A result can be read back. -/
theorem Result.isShown {r : Result} (hindex : fitsInt64 r.ruleIndex = true)
    (hline : ∀ region ∈ r.region, fitsInt64 region.startLine = true) :
    r.toDatum.IsShown (n + 6) := by
  have hplace : ∀ m ∈ [("artifactLocation", Datum.table [("uri", .text r.uri)])] ++
      (r.region.map fun g => ("region", g.toDatum)).toList, m.2.IsShown (n + 2) := by
    refine List.forall_mem_append.2 ⟨List.forall_mem_singleton.2
      (.table (List.forall_mem_singleton.2 (Datum.isShown_text _ _))), fun m hm => ?_⟩
    obtain ⟨region, hregion, rfl⟩ := Option.map_eq_some_iff.1 (Option.mem_toList.1 hm)
    exact Region.isShown n (hline region hregion)
  have hlocation : (Datum.table [("physicalLocation", .table _)]).IsShown (n + 4) :=
    .table (List.forall_mem_singleton.2 (.table hplace))
  have htext := Datum.isShown_text (n + 5)
  have hmessage := isShown_messageObject (n + 4)
  refine .table ?_
  simp only [List.forall_mem_cons, htext, hmessage, Datum.isShown_integer _ hindex,
    Datum.IsShown.list (List.forall_mem_singleton.2 hlocation), true_and]
  exact List.forall_mem_nil _

end

/-- A log can be read back, if its results can. -/
theorem Log.isShown {log : Log} (h : ∀ r ∈ log.results, r.toDatum.IsShown 6) :
    log.toDatum.IsShown 10 := by
  have hrules : (Datum.list (log.rules.map Rule.toDatum)).IsShown 5 :=
    .list (List.forall_mem_map.2 fun r _ => r.isShown 2)
  have hresults : (Datum.list (log.results.map Result.toDatum)).IsShown 7 :=
    .list (List.forall_mem_map.2 h)
  have harguments : (Datum.list (log.tool.arguments.map .text)).IsShown 5 :=
    .list (List.forall_mem_map.2 fun s _ => Datum.isShown_text 4 s)
  unfold Log.toDatum
  refine .table (List.forall_mem_cons.2 ⟨Datum.isShown_text _ _, List.forall_mem_cons.2
    ⟨Datum.isShown_text _ _, List.forall_mem_singleton.2
      (.list (List.forall_mem_singleton.2 (.table ?_)))⟩⟩)
  refine List.forall_mem_append.2 ⟨List.forall_mem_append.2 ⟨?_, ?_⟩,
    List.forall_mem_singleton.2 hresults⟩
  · refine List.forall_mem_singleton.2 (.table (List.forall_mem_singleton.2 (.table ?_)))
    refine List.forall_mem_append.2 ⟨List.forall_mem_append.2
      ⟨List.forall_mem_singleton.2 (Datum.isShown_text _ _), ?_⟩,
      List.forall_mem_singleton.2 hrules⟩
    split
    · exact List.forall_mem_nil _
    · exact List.forall_mem_singleton.2 (Datum.isShown_text _ _)
  · split
    · exact List.forall_mem_nil _
    · exact List.forall_mem_singleton.2 (.list (List.forall_mem_singleton.2 (.table
        (List.forall_mem_cons.2 ⟨harguments, List.forall_mem_singleton.2 (Datum.isShown_flag _ _)⟩))))

/-- The log of findings can be read back. -/
theorem isShown_logOf {found : List Finding} (h : Finding.AllKnown found) (tool : Tool)
    (path : Finding → String) : (logOf tool path found).toDatum.IsShown 10 := by
  refine Log.isShown (List.forall_mem_map.2 fun f hf => Result.isShown 0 ?_ fun region hregion => ?_)
  · obtain ⟨hlt, hle⟩ := idxOf_codesOf_lt h hf
    have htwo : (twoPow 32 : Int) < twoPow 63 := by decide
    show fitsInt64 ((codesOf found).idxOf f.code : Int) = true
    rw [fitsInt64_iff]
    omega
  · have hsize : ((twoPow 63 : Nat) : Int) = 2 ^ 63 := rfl
    rw [Option.mem_def, resultOf, regionOf_eq] at hregion
    obtain ⟨hline, heq⟩ := Option.ite_none_right_eq_some.1 hregion
    cases heq
    show fitsInt64 f.line = true
    rw [fitsInt64_iff, hsize]
    omega

end Sarif

namespace Report

/-- The log of findings whose codes are all known is consistent, and is what can be read from the report,
with numbers as texts write them and bytes that belong to no character replaced; a code that is not known
spoils the report in every format. -/
theorem sarif_is_consistent (fs : FileSystem) (o : Options) (found : List Finding) :
    (Finding.AllKnown found → ∃ log : Datum,
      render fs o "sarif" found = .ok (log.toJsonIndented ++ "\n") ∧
      Datum.ofJson? (log.toJsonIndented ++ "\n") =
        some ((log.withTexts Text.readable).withNumbers Json.reread) ∧
      Sarif.IsConsistent log found) ∧
    (¬Finding.AllKnown found → ∃ f ∈ found, (∀ smell ∈ Smell.catalog, smell.code ≠ f.code) ∧
      ∀ name, render fs o name found = .error (.unknownCode f.code)) := by
  have hformat : Format.named? "sarif" = some .sarif := rfl
  refine ⟨fun h => ⟨_, render_of_known h hformat, ?_, Sarif.isConsistent_logOf h o.tool _⟩,
    render_of_unknown⟩
  exact (Sarif.isShown_logOf h o.tool _).ofJson?_write (by decide) (some 0) ['\n'] rfl

/-- The second of three findings has a line that 32 bits do not hold; the fourth has an unknown code. -/
theorem sarif_is_consistent_lines :
    let found : List Finding := [
      { code := "sec_https", path := "b.tf", line := 7, context := "http://a" },
      { code := "design_long_resource", path := "a.tf", line := 4294967296, context := "" },
      { code := "sec_https", path := "a.tf", line := -1, context := "http://b" }]
    let unknown : Finding := { code := "sec_http", path := "a.tf", line := 1, context := "" }
    (Finding.AllKnown found ∧ ∃ log : Datum,
      render (.empty []) {} "sarif" found = .ok (log.toJsonIndented ++ "\n") ∧
        Datum.ofJson? (log.toJsonIndented ++ "\n") =
          some ((log.withTexts Text.readable).withNumbers Json.reread) ∧
        Sarif.IsConsistent log found) ∧
    ¬Finding.AllKnown (found ++ [unknown]) ∧
      ∃ code, render (.empty []) {} "csv" (found ++ [unknown]) = .error (.unknownCode code) := by
  intro found unknown
  have hknown : Finding.AllKnown found := by decide +kernel
  have hunknown : ¬Finding.AllKnown (found ++ [unknown]) := by decide +kernel
  refine ⟨⟨hknown, (sarif_is_consistent (.empty []) {} found).1 hknown⟩, hunknown, ?_⟩
  obtain ⟨f, -, -, hrender⟩ := (sarif_is_consistent (.empty []) {} (found ++ [unknown])).2 hunknown
  exact ⟨f.code, hrender "csv"⟩

end Report

end InfraSmells
