import InfraSmells.Proofs.Analysis.Invariant
import InfraSmells.Proofs.Design.Declared
import InfraSmells.Proofs.Failing
import InfraSmells.Proofs.Policy.Declared
import InfraSmells.Proofs.Report.Basic
import InfraSmells.Proofs.Security.Declared
import InfraSmells.Run

/-!
# Findings of registered checkers

Every registered checker keeps to the codes it declares (`Registry.keepsToCodes`), and every
declared code stands in the catalog, under a category of the checker's family
(`Registry.codes_catalogued`), so that it is listed for this category (`Registry.codes_listed`). What
an analysis or a run finds with the registered checkers can therefore be shown in a report, and it
belongs to the families that were asked for (`Registry.findings_declared`).
-/

namespace InfraSmells

/-- The categories of the smells that a family looks for. -/
def Family.categories : Family → List Category
  | .design => [.design, .implementation]
  | .security => [.security, .policy]

namespace Registry

/-- Every registered checker keeps to its codes. -/
theorem keepsToCodes : ∀ r ∈ all, r.KeepsToCodes := by
  simp only [all, List.forall_mem_append]
  exact ⟨⟨Design.keepsToCodes, Security.keepsToCodes⟩, Policy.keepsToCodes⟩

/-- Every declared code is in the catalog, under a category of its checker's family. -/
theorem codes_catalogued : ∀ r ∈ all, ∀ code ∈ r.codes,
    ∃ smell, Smell.ofCode? code = some smell ∧ smell.category ∈ r.family.categories := by
  have htable : ∀ r ∈ all, ∀ code ∈ r.codes,
      (Smell.ofCode? code).any (fun smell => r.family.categories.contains smell.category) =
        true := by
    decide +kernel
  intro r hr code hcode
  have h := htable r hr code hcode
  cases hsmell : Smell.ofCode? code with
  | none => simp [hsmell] at h
  | some smell => exact ⟨smell, rfl, by simpa [hsmell] using h⟩

/-- Every declared code is listed for a category of its checker's family. -/
theorem codes_listed : ∀ r ∈ all, ∀ code ∈ r.codes,
    ∃ category ∈ r.family.categories, ∃ smell ∈ Smell.inCategory category.name, smell.code = code := by
  intro r hr code hcode
  obtain ⟨smell, hsmell, hcategory⟩ := codes_catalogued r hr code hcode
  obtain ⟨-, rfl⟩ := Smell.ofCode?_eq_some_iff.1 hsmell
  refine ⟨smell.category, hcategory, smell, Smell.mem_inCategory.2 ⟨hsmell, ?_⟩, rfl⟩
  rw [Smell.categoryNameOf, hsmell]
  rfl

/-- The checkers of a configuration are those of registrations in the families asked for. -/
theorem mem_build {config : Config} {families : List Family} {c : Checker} :
    c ∈ build config families →
      ∃ r ∈ all, c = r.checker config ∧ (families = [] ∨ r.family ∈ families) := by
  simp only [build, active, List.mem_map, List.mem_filter, Bool.and_eq_true, Bool.or_eq_true,
    List.isEmpty_iff, List.contains_iff_mem]
  rintro ⟨r, ⟨hr, -, hfamily⟩, rfl⟩
  exact ⟨r, hr, rfl, hfamily⟩

end Registry

/-- The findings have codes of the catalog, under categories of the families; no families means
any. -/
def Catalogued (families : List Family) (fs : List Finding) : Prop :=
  ∀ f ∈ fs, ∃ smell, Smell.ofCode? f.code = some smell ∧
    (families = [] ∨ ∃ family ∈ families, smell.category ∈ family.categories)

variable {fs : FileSystem} {config : Config} {families : List Family}

/-- A report on findings with codes of the catalog is spoiled by none of them. -/
theorem Catalogued.render_ne_unknownCode {found : List Finding} (h : Catalogued families found)
    (here : FileSystem) (o : Report.Options) (format code : String) :
    Report.render here o format found ≠ .error (.unknownCode code) := by
  have hknown : Finding.unknownCode? found = none := by
    simp only [Finding.unknownCode?, Option.map_eq_none_iff, List.find?_eq_none]
    intro f hf
    obtain ⟨smell, hsmell, -⟩ := h f hf
    simp [hsmell]
  unfold Report.render
  rw [hknown]
  split <;> simp_all

/-- What an analysis with registered checkers finds is in the catalog. -/
theorem Analysis.catalogued_check {a : Analysis} {root : Element} {found : List Finding}
    (hcheckers : a.checkers = Registry.build config families)
    (hok : (a.check fs root).1 = .ok found) : Catalogued families found := by
  intro f hf
  obtain ⟨path, c, hc, context, e, reported, hreported, hf⟩ := Action.stemsFrom_of_check hok f hf
  rw [hcheckers] at hc
  obtain ⟨r, hr, rfl, hfamily⟩ := Registry.mem_build hc
  have hdeclared := Registry.keepsToCodes r hr config context e path reported hreported f hf
  obtain ⟨smell, hsmell, hcategory⟩ := Registry.codes_catalogued r hr f.code hdeclared.code
  exact ⟨smell, hsmell, hfamily.imp_right fun h => ⟨r.family, h, hcategory⟩⟩

/-- What a task finds is in the catalog. -/
theorem Run.catalogued_outcome {s : Settings} {t : Task} {o : Outcome}
    (h : outcome fs s t = some o) : Catalogued s.families o.findings := by
  unfold outcome at h
  split at h
  · cases h
  · cases h
  · cases h; exact fun _ hf => nomatch hf
  · cases h; exact fun _ hf => nomatch hf
  · split at h
    · next hcheck =>
      cases h
      exact Analysis.catalogued_check rfl (congrArg Prod.fst hcheck)
    · cases h; exact fun _ hf => nomatch hf

/-- Every outcome of several tasks is that of one of them. -/
theorem Run.exists_task_of_mapM {s : Settings} : ∀ {ts : List Task} {outcomes : List Outcome},
    ts.mapM (outcome fs s) = some outcomes →
      ∀ o ∈ outcomes, ∃ t ∈ ts, outcome fs s t = some o
  | [], _, h, o, ho => by
    cases h
    cases ho
  | t :: ts, _, h, o, ho => by
    rw [List.mapM_cons] at h
    obtain ⟨first, hfirst, h⟩ := Option.bind_eq_some_iff.1 h
    obtain ⟨rest, hrest, h⟩ := Option.bind_eq_some_iff.1 h
    cases h
    rcases List.mem_cons.1 ho with rfl | ho
    · exact ⟨t, .head _, hfirst⟩
    · obtain ⟨t', ht', ho⟩ := exists_task_of_mapM hrest o ho
      exact ⟨t', .tail _ ht', ho⟩

/-- What a run finds is in the catalog. -/
theorem Run.catalogued_run {s : Settings} {roots : List String} {r : Result}
    (h : run fs s roots = .ok r) : Catalogued s.families r.findings := by
  unfold run at h
  cases htasks : tasks fs s roots with
  | error e => rw [htasks] at h; cases h
  | ok ts =>
    have hok : (tasks fs s roots).mapError RunError.discovery = .ok ts := by rw [htasks]; rfl
    rw [hok] at h
    simp only [bind, Except.bind] at h
    split at h
    · cases h
    · next outcomes hmap =>
      cases h
      intro f hf
      have hf := List.mem_of_find?_eq_some
        (Finding.mem_dedup_iff.1 ((Finding.sort_perm _).mem_iff.1 hf))
      obtain ⟨⟨t, o⟩, hzip, hf⟩ := List.mem_flatMap.1 hf
      obtain ⟨t, -, ht⟩ := exists_task_of_mapM hmap o (List.of_mem_zip hzip).2
      exact catalogued_outcome ht f hf

/-- Whatever a registered checker looks at, it reports codes that it declares, at the path it was
given, and at a line that counts from one, if at any. Reports on what an analysis or a run has
found with these checkers are therefore never spoiled by an unknown code, and the categories of
the findings are those of the families asked for. -/
theorem Registry.findings_declared :
    (∀ r ∈ all, ∀ config context e path found, r.check config context e path = some found →
      ∀ f ∈ found, f.code ∈ r.codes ∧ f.path = path ∧ (f.line = -1 ∨ 1 ≤ f.line)) ∧
    (∀ config families (fs : FileSystem) (a : Analysis) root found,
      a.checkers = build config families → (a.check fs root).1 = .ok found →
        Catalogued families found ∧
          ∀ here o format code, Report.render here o format found ≠ .error (.unknownCode code)) ∧
    ∀ (fs : FileSystem) s roots (r : Run.Result), Run.run fs s roots = .ok r →
        Catalogued s.families r.findings ∧
          ∀ here o format code,
            Report.render here o format r.findings ≠ .error (.unknownCode code) := by
  refine ⟨fun r hr config context e path found h f hf => ?_, ?_, ?_⟩
  · have hdeclared := keepsToCodes r hr config context e path found h f hf
    exact ⟨hdeclared.code, hdeclared.path, hdeclared.line⟩
  · intro config families fs a root found hcheckers hok
    have hcatalogued := Analysis.catalogued_check hcheckers hok
    exact ⟨hcatalogued, hcatalogued.render_ne_unknownCode⟩
  · intro fs s roots r hrun
    have hcatalogued := Run.catalogued_run hrun
    exact ⟨hcatalogued, hcatalogued.render_ne_unknownCode⟩

/-- A script with a comment behind its code, and a document of it. -/
def Registry.commentedScript : FileSystem where
  root := .directory
    [("a", .file [0x78]),
      ("a.ir.json", .file (Text.toBytes (
        "\x7b\"ir_type\":\"UnitBlock\",\"type\":\"script\",\"path\":\"a\"," ++
        "\"comments\":[\x7b\"ir_type\":\"Comment\",\"line\":3,\"content\":\"x\"\x7d]\x7d")))]
  here := []

/-- The comment is found by its checker, by an analysis of the script and by a run over the document. -/
theorem Registry.findings_declared_comment :
    let s : Run.Settings := { config := .builtIn .docker, families := [.design] }
    let comment : Comment := ⟨⟨3, 1, 3, 2, ""⟩, "x"⟩
    let script : Element := .block ⟨.nowhere, "", .script, "a", [], [], [], [], [], [comment], []⟩
    let place (f : Finding) := (f.code, f.path, f.line)
    let places := [("design_avoid_comments", "a", (3 : Int))]
    (∃ r ∈ all, ∃ found,
      r.check s.config { config := s.config, firstCodeLine := 1 } (.comment comment) "a" = some found ∧
        found.map place = places ∧
        ∀ f ∈ found, f.code ∈ r.codes ∧ f.path = "a" ∧ (f.line = -1 ∨ 1 ≤ f.line)) ∧
    (∃ found, ((Analysis.ofConfig s.config s.families).check commentedScript script).1 = .ok found ∧
      found.map place = places ∧ Catalogued [.design] found ∧
        ∀ here o format code, Report.render here o format found ≠ .error (.unknownCode code)) ∧
    ∃ r : Run.Result, Run.run commentedScript s ["a.ir.json"] = .ok r ∧ r.findings.map place = places ∧
      Catalogued [.design] r.findings ∧
        ∀ here o format code, Report.render here o format r.findings ≠ .error (.unknownCode code) := by
  intro s comment script place places
  obtain ⟨hchecker, hanalysis, hrun⟩ := findings_declared
  refine ⟨?_, ?_, ?_⟩
  · have hregistered : Design.register "avoid-comments" ["design_avoid_comments"]
        (fun _ => Design.avoidComments) ∈ all :=
      List.mem_append_left _ (List.mem_append_left _ (by simp [Design.checkers]))
    exact ⟨_, hregistered, _, rfl, by decide +kernel, hchecker _ hregistered s.config
      { config := s.config, firstCodeLine := 1 } (.comment comment) "a" _ rfl⟩
  · have hfound : ((Analysis.ofConfig s.config s.families).check commentedScript script).1.toOption.map
        (List.map place) = some places := by
      decide +kernel
    obtain ⟨found, hok, hplaces⟩ := exists_ok_of_toOption_map hfound
    exact ⟨found, hok, hplaces, hanalysis _ _ _ _ _ _ rfl hok⟩
  · have hfound : (Run.run commentedScript s ["a.ir.json"]).toOption.map
        (fun r => r.findings.map place) = some places := by
      decide +kernel
    obtain ⟨r, hok, hplaces⟩ := exists_ok_of_toOption_map hfound
    exact ⟨r, hok, hplaces, hrun _ _ _ _ hok⟩

end InfraSmells
