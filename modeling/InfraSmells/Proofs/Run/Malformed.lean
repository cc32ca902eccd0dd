import InfraSmells.Proofs.Document.Whole
import InfraSmells.Proofs.Input.Reading
import InfraSmells.Proofs.Run.Pool
import InfraSmells.Proofs.Text.Distinct

/-!
# Malformed documents

A run over documents that are whole gives a result, in which every task with a malformed document is
skipped; all else in the result is as if the task were not there (`Run.malformed_skipped`). A document
that is not whole may leave the run without any result (`Run.breakdown_nullModule`).
-/

namespace InfraSmells.Run

variable {fs : FileSystem} {s : Settings} {t : Task}

/-- Is there a tree to analyse for the task, or nothing to check? -/
def Task.parses (fs : FileSystem) (s : Settings) (t : Task) : Bool :=
  (s.input.parsePath fs t.path s.type t.isModule).isOk

/-- Every document that is read for the task is whole. -/
def Task.IsWhole (fs : FileSystem) (t : Task) : Prop :=
  ∀ p bytes, Input.Reads fs .documents t.path t.isModule p bytes →
    Document.IsWhole (.ofPath p) bytes

/-- A task with a tree is not skipped, and neither is one with nothing to check. -/
theorem outcome_of_parses (h : t.parses fs s = true) :
    ∃ o, outcome fs s t = some o ∧ o ≠ .skipped := by
  unfold Task.parses at h
  cases hparse : s.input.parsePath fs t.path s.type t.isModule with
  | error e =>
    rw [hparse] at h
    cases h
  | ok root =>
    simp only [outcome, hparse]
    cases root with
    | none => exact ⟨_, rfl, nofun⟩
    | some root =>
      dsimp only
      split
      · exact ⟨_, rfl, nofun⟩
      · exact ⟨_, rfl, nofun⟩

/-- There is no tree for a task with a document that has none. -/
theorem not_parses_of_decode {p : String} {bytes : List UInt8} {e : DocumentError}
    (hinput : s.input = .documents)
    (hreads : Input.Reads fs .documents t.path t.isModule p bytes)
    (hdecode : Document.decode (.ofPath p) bytes = .error e) : t.parses fs s = false := by
  unfold Task.parses
  rw [hinput]
  cases hparse : Input.documents.parsePath fs t.path s.type t.isModule with
  | error e' => rfl
  | ok root =>
    obtain ⟨e', he'⟩ := Input.decode_of_parsePath hparse hreads
    cases hdecode.symm.trans he'

/-- A task whose documents are whole is skipped if there is no tree for it. -/
theorem outcome_of_not_parses (hinput : s.input = .documents) (hwhole : t.IsWhole fs)
    (h : t.parses fs s = false) : outcome fs s t = some .skipped := by
  unfold Task.parses at h
  cases hparse : s.input.parsePath fs t.path s.type t.isModule with
  | ok root =>
    rw [hparse] at h
    cases h
  | error e =>
    have hanswers (p : String) (de : DocumentError) (he : e = .document p de) : de.IsMalformed := by
      rw [hinput, he] at hparse
      obtain ⟨bytes, hreads, hdecode⟩ := Input.parsePath_document hparse
      exact Document.failsOnly_decode (hwhole p bytes hreads) de hdecode
    simp only [outcome, hparse]
    split
    · next p heq => exact (hanswers p _ (Except.error.inj heq)).elim
    · next p heq => exact (hanswers p _ (Except.error.inj heq)).elim
    · rfl
    · next heq => cases heq
    · next heq => cases heq

/-- A file whose document is whole is a task whose documents are whole. -/
theorem Task.isWhole_of_read {path : String} {bytes : List UInt8}
    (hread : fs.read path = .ok bytes) (h : Document.IsWhole (.ofPath path) bytes) :
    Task.IsWhole fs ⟨path, false⟩ := by
  intro p bytes' hreads
  cases hreads with
  | file hread' =>
    cases hread.symm.trans hread'
    exact h

/-- Roots that are clean paths of files are tasks of their own, in the order of their paths. -/
theorem tasks_of_files (roots files : List String) (hmodules : s.asModules = false)
    (hroots : roots.mapM (s.input.rootFiles fs) = .ok (roots.map fun r => [r]))
    (hcarried : ∀ r ∈ roots, Text.IsCarried r) (hfiles : Text.Increasing files)
    (hsub : roots ⊆ files) (hsub' : files ⊆ roots) :
    tasks fs s roots = .ok (files.map (⟨·, false⟩)) := by
  have hflatten : (roots.map fun r => [r]).flatten = roots := by
    rw [← List.flatMap_def, List.flatMap_singleton']
  have hdiscover : s.input.discover fs roots = .ok files := by
    unfold Input.discover
    rw [hroots]
    show Except.ok (Text.sortDistinct _) = _
    rw [hflatten, Text.sortDistinct_eq hcarried hfiles hsub hsub']
  unfold tasks
  rw [hmodules, if_neg Bool.false_ne_true, hdiscover]
  rfl

/-- One task that breaks the parser down leaves the run without a result. -/
theorem run_breakdown {roots : List String} {ts : List Task} (hts : tasks fs s roots = .ok ts)
    (ht : t ∈ ts) (hnone : outcome fs s t = none) : run fs s roots = .error .breakdown := by
  have hmap : ts.mapM (outcome fs s) = none := by
    clear hts
    induction ts with
    | nil => cases ht
    | cons t' ts ih =>
      rw [List.mapM_cons]
      rcases List.mem_cons.1 ht with rfl | ht
      · rw [hnone]
        rfl
      · rw [ih ht]
        cases outcome fs s t' <;> rfl
  have hok : (tasks fs s roots).mapError RunError.discovery = .ok ts := by rw [hts]; rfl
  simp only [run, hok, bind, Except.bind, hmap]
  rfl

/-- A document that gives no answer breaks the parser down. -/
theorem outcome_eq_none {path : String} {bytes : List UInt8} {e : DocumentError}
    (hinput : s.input = .documents) (hread : fs.read path = .ok bytes)
    (hdecode : Document.decode (.ofPath path) bytes = .error e) (he : ¬e.IsMalformed) :
    outcome fs s ⟨path, false⟩ = none := by
  have hparse : s.input.parsePath fs path s.type false = .error (.document path e) := by
    rw [hinput]
    exact Input.parsePath_of_decode hread hdecode
  simp only [outcome, hparse]
  cases e
  case missingElement | repeatedValue => rfl
  all_goals exact absurd trivial he

/-- What nothing comes of can be left out. -/
theorem flatMap_filter {α β : Type} {f : α → List β} {kept : α → Bool} : ∀ {xs : List α},
    (∀ x ∈ xs, kept x = false → f x = []) → (xs.filter kept).flatMap f = xs.flatMap f
  | [], _ => rfl
  | x :: xs, h => by
    obtain ⟨hx, hxs⟩ := List.forall_mem_cons.1 h
    rw [List.flatMap_cons, ← flatMap_filter hxs, List.filter_cons]
    split
    · rfl
    · next hkept => rw [hx (by simpa using hkept), List.nil_append]

/-- Skipped tasks leave the findings and the failures of a result as they are. -/
theorem merge_filter {ts : List Task} {work : Task → Outcome} (kept : Task → Bool)
    (h : ∀ t ∈ ts, kept t = false → work t = .skipped) :
    (merge ((ts.filter kept).map fun t => (t, work t))).findings =
        (merge (ts.map fun t => (t, work t))).findings ∧
      (merge ((ts.filter kept).map fun t => (t, work t))).errors =
        (merge (ts.map fun t => (t, work t))).errors := by
  unfold merge
  dsimp only
  simp only [List.flatMap_map, List.filterMap_eq_flatMap_toList]
  refine ⟨?_, ?_⟩
  · rw [flatMap_filter fun t ht hkept => by rw [h t ht hkept]; rfl]
  · rw [flatMap_filter fun t ht hkept => by simp [h t ht hkept, Outcome.error?]]

/-- Tasks whose documents are all whole have outcomes; those without a tree are skipped. -/
theorem exists_work {ts : List Task} (hinput : s.input = .documents)
    (hwhole : ∀ t ∈ ts, t.IsWhole fs) :
    ∃ work : Task → Outcome, ∀ t ∈ ts, outcome fs s t = some (work t) ∧
      (work t = .skipped ↔ t.parses fs s = false) := by
  refine ⟨fun t => (outcome fs s t).getD .skipped, fun t ht => ?_⟩
  cases hparses : t.parses fs s with
  | true =>
    obtain ⟨o, ho, hskipped⟩ := outcome_of_parses hparses
    simp [ho, hskipped]
  | false => simp [outcome_of_not_parses hinput (hwhole t ht) hparses]

/-- If the tasks without a tree are skipped, then they are listed as such. -/
theorem skipped_merge {ts : List Task} {work : Task → Outcome}
    (h : ∀ t ∈ ts, work t = .skipped ↔ t.parses fs s = false) :
    (merge (ts.map fun t => (t, work t))).skipped =
      (ts.filter fun t => !t.parses fs s).map (·.path) := by
  have hfilter : (ts.filter fun t => work t == .skipped) = ts.filter fun t => !t.parses fs s := by
    refine List.filter_congr fun t ht => ?_
    rw [Bool.eq_iff_iff, beq_iff_eq, h t ht, Bool.not_eq_true']
  rw [← hfilter]
  simp [merge, List.filter_map, Function.comp_def]

/-- Reading a whole document gives a tree or says what is wrong with it, and never stops without an
answer. A file whose reading stops without one leaves a run without a result; but a run over tasks
whose documents are all whole has one. Every task with a malformed document is skipped in it, and
without the skipped tasks the findings and the failures of the result are the same. -/
theorem malformed_skipped (fs : FileSystem) (s : Settings) (hinput : s.input = .documents) :
    (∀ enc bytes, Document.IsWhole enc bytes →
      FailsOnly DocumentError.IsMalformed (Document.decode enc bytes)) ∧
    ∀ (roots : List String) (ts : List Task), tasks fs s roots = .ok ts →
      (∀ t ∈ ts, ∀ bytes e, t.isModule = false → fs.read t.path = .ok bytes →
        Document.decode (.ofPath t.path) bytes = .error e → ¬e.IsMalformed →
          run fs s roots = .error .breakdown) ∧
      ((∀ t ∈ ts, t.IsWhole fs) →
        ∃ r, run fs s roots = .ok r ∧ r.files = ts.map (·.path) ∧
          r.skipped = (ts.filter fun t => !t.parses fs s).map (·.path) ∧
          (∀ t ∈ ts, ∀ p bytes e, Input.Reads fs .documents t.path t.isModule p bytes →
            Document.decode (.ofPath p) bytes = .error e → t.path ∈ r.skipped) ∧
          ∀ others, tasks fs s others = .ok (ts.filter (·.parses fs s)) →
            ∃ r', run fs s others = .ok r' ∧ r'.skipped = [] ∧ r'.findings = r.findings ∧
              r'.errors = r.errors) := by
  refine ⟨fun enc bytes => Document.failsOnly_decode, ?_⟩
  intro roots ts hts
  refine ⟨fun t ht bytes e hfile hread hdecode he => run_breakdown hts ht ?_, fun hwhole => ?_⟩
  · obtain ⟨path, isModule⟩ := t
    cases hfile
    exact outcome_eq_none hinput hread hdecode he
  obtain ⟨work, hwork⟩ := exists_work hinput hwhole
  have hskipped := skipped_merge fun t ht => (hwork t ht).2
  refine ⟨_, run_eq_merge hts fun t ht => (hwork t ht).1, by simp [merge], hskipped, ?_, ?_⟩
  · intro t ht p bytes e hreads hdecode
    rw [hskipped]
    exact List.mem_map_of_mem
      (List.mem_filter.2 ⟨ht, by simp [not_parses_of_decode hinput hreads hdecode]⟩)
  · intro others hothers
    have hmem (t : Task) (ht : t ∈ ts.filter (·.parses fs s)) : t ∈ ts := List.mem_of_mem_filter ht
    obtain ⟨hfindings, herrors⟩ := merge_filter (·.parses fs s)
      fun t ht hkept => (hwork t ht).2.2 hkept
    refine ⟨_, run_eq_merge hothers fun t ht => (hwork t (hmem t ht)).1, ?_, hfindings, herrors⟩
    rw [skipped_merge fun t ht => (hwork t (hmem t ht)).2]
    simp

/-- A document of an unknown kind, beside a block. -/
def unknownKind : FileSystem where
  root := .directory
    [("a.ir.json", .file (Text.toBytes "\x7b\"ir_type\":\"Unit\"\x7d")),
      ("b.ir.json", .file (Text.toBytes "\x7b\"ir_type\":\"UnitBlock\"\x7d"))]
  here := []

/-- The document of an unknown kind is skipped, and the block has the findings it has alone. -/
theorem malformed_skipped_unknownKind :
    let s : Settings := { config := {} }
    ∃ r r', run unknownKind s ["b.ir.json", "a.ir.json"] = .ok r ∧
      run unknownKind s ["b.ir.json"] = .ok r' ∧ r.files = ["a.ir.json", "b.ir.json"] ∧
      r.skipped = ["a.ir.json"] ∧ r'.skipped = [] ∧ r'.findings = r.findings ∧
      r'.errors = r.errors := by
  intro s
  have hts : tasks unknownKind s ["b.ir.json", "a.ir.json"] =
      .ok [⟨"a.ir.json", false⟩, ⟨"b.ir.json", false⟩] :=
    tasks_of_files ["b.ir.json", "a.ir.json"] ["a.ir.json", "b.ir.json"] rfl
      (by decide +kernel) (by decide +kernel) (by decide +kernel) (by decide) (by decide)
  have hothers : tasks unknownKind s ["b.ir.json"] = .ok [⟨"b.ir.json", false⟩] :=
    tasks_of_files ["b.ir.json"] ["b.ir.json"] rfl
      (by decide +kernel) (by decide +kernel) (by decide +kernel) (by decide) (by decide)
  have hparses : [(⟨"a.ir.json", false⟩ : Task), ⟨"b.ir.json", false⟩].map (·.parses unknownKind s) =
      [false, true] := by
    decide +kernel
  have hwhole : ∀ t ∈ [(⟨"a.ir.json", false⟩ : Task), ⟨"b.ir.json", false⟩],
      t.IsWhole unknownKind := by
    have hdocument (path : String) (bytes : List UInt8) (hread : unknownKind.read path = .ok bytes)
        (hjson : Encoding.ofPath path = .json)
        (hkind : (Document.datum? .json bytes).any Datum.namesKindOnly = true) :
        Task.IsWhole unknownKind ⟨path, false⟩ :=
      Task.isWhole_of_read hread (hjson ▸ Document.isWhole_of_namesKindOnly hkind)
    refine List.forall_mem_cons.2 ⟨?_, List.forall_mem_singleton.2 ?_⟩
    · exact hdocument "a.ir.json" (Text.toBytes "\x7b\"ir_type\":\"Unit\"\x7d")
        (by decide +kernel) (by decide +kernel) (by decide +kernel)
    · exact hdocument "b.ir.json" (Text.toBytes "\x7b\"ir_type\":\"UnitBlock\"\x7d")
        (by decide +kernel) (by decide +kernel) (by decide +kernel)
  obtain ⟨r, hrun, hfiles, hskipped, -, hrest⟩ :=
    ((malformed_skipped unknownKind s rfl).2 _ _ hts).2 hwhole
  simp only [List.map_cons, List.map_nil, List.cons.injEq] at hparses
  obtain ⟨ha, hb, -⟩ := hparses
  obtain ⟨r', hrun', hskipped', hfindings, herrors⟩ := hrest ["b.ir.json"] (by
    rw [hothers, List.filter_cons_of_neg (by simp [ha]), List.filter_cons_of_pos hb]
    rfl)
  refine ⟨r, r', hrun, hrun', hfiles, ?_, hskipped', hfindings, herrors⟩
  rw [hskipped]
  simp [ha, hb]

/-- A document with a null among its modules, beside a block. -/
def nullModule : FileSystem where
  root := .directory
    [("a.ir.json", .file Document.nullModule),
      ("b.ir.json", .file (Text.toBytes "\x7b\"ir_type\":\"UnitBlock\"\x7d"))]
  here := []

/-- A null among the modules of one document leaves a run without any result. -/
theorem breakdown_nullModule :
    Document.decode .json Document.nullModule = .error .missingElement ∧
      run nullModule { config := {} } ["a.ir.json", "b.ir.json"] = .error .breakdown := by
  refine ⟨Document.decode_nullModule, ?_⟩
  have hts : tasks nullModule { config := {} } ["a.ir.json", "b.ir.json"] =
      .ok [⟨"a.ir.json", false⟩, ⟨"b.ir.json", false⟩] :=
    tasks_of_files ["a.ir.json", "b.ir.json"] ["a.ir.json", "b.ir.json"] rfl
      (by decide +kernel) (by decide +kernel) (by decide +kernel) (by decide) (by decide)
  have hread : nullModule.read "a.ir.json" = .ok Document.nullModule := by
    decide +kernel
  have hdecode : Document.decode (.ofPath "a.ir.json") Document.nullModule =
      .error .missingElement := by
    have hjson : Encoding.ofPath "a.ir.json" = .json := by
      decide +kernel
    rw [hjson]
    exact Document.decode_nullModule
  exact run_breakdown hts (.head _) (outcome_eq_none rfl hread hdecode id)

end InfraSmells.Run
