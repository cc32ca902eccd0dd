import InfraSmells.Proofs.Analysis.Legible
import InfraSmells.Proofs.Checker.Local

/-!
# States that checkers cannot tell apart

Local checkers cannot tell apart two states that are alike (`Analysis.Alike`), whichever blocks are in
scope and whatever has been read and found before. As long as the states are sound
(`Analysis.Sound`), every step of the way through a tree does the same from both, at clean paths, and
adds the same keys to those of the findings (`Action.law_same`).
-/

namespace InfraSmells

variable {fs : FileSystem}

/-- A file that is no text is reported as such, and nothing else is. -/
theorem FileSystem.source_of_not_legible {path : String} (h : ¬fs.Legible path) :
    fs.source path = .error (.notText path) := by
  cases hsource : fs.source path with
  | ok f => exact absurd (legible_of_source hsource rfl) h
  | error e =>
    cases e with
    | file e => exact absurd (legible_of_source_error hsource) h
    | notText p =>
      unfold source at hsource
      split at hsource
      · cases hsource
      split at hsource
      · cases hsource
      · rw [hsource]

/-- A file that is reported as no text is none. -/
theorem FileSystem.not_legible_of_source {path p : String}
    (h : fs.source path = .error (.notText p)) : ¬fs.Legible path := by
  unfold source at h
  split at h
  · cases h
  next bytes hread =>
  split at h
  · cases h
  next hnone =>
    intro hlegible
    unfold SourceFile.ofBytes? at hnone
    simp [hlegible bytes hread] at hnone

namespace Analysis

variable {a b c : Analysis} {path : String}

/-! ## States that checkers cannot tell apart -/

/-- The keys of the findings so far. -/
def keys (a : Analysis) : List Finding.Key :=
  a.found.map (·.key)

/-- From one state to the other, these keys have been added to those of the findings. -/
def Gains (a b : Analysis) (new : List Finding.Key) : Prop :=
  ∀ k, k ∈ b.keys ↔ k ∈ a.keys ∨ k ∈ new

/-- The same findings have the same keys. -/
theorem Gains.of_found_eq (h : b.found = a.found) : a.Gains b [] := by
  intro k
  rw [keys, keys, h]
  simp

/-- What is gained on two ways is gained on both together. -/
theorem Gains.trans {l m : List Finding.Key} (hl : a.Gains b l) (hm : b.Gains c m) :
    a.Gains c (l ++ m) := by
  intro k
  rw [hm, hl, List.mem_append, or_assoc]

/-- The checkers are local, and what is kept of files and findings is what there is: the reader and
the current file hold what was read, only files that are no text are kept as such, and the
reporter knows the keys of the findings. -/
structure Sound (fs : FileSystem) (a : Analysis) : Prop where
  checkers : ∀ c ∈ a.checkers, c.IsLocal
  reader : a.reader.Faithful fs
  file : ∀ f, a.file = some f → fs.source f.path = .ok f
  notText : ∀ p ∈ a.notText, ¬fs.Legible p
  seen : ∀ k, k ∈ a.reporter.seen ↔ k ∈ a.keys

/-- Local checkers cannot tell the states apart, neither now nor after scopes have been closed. -/
structure Alike (a b : Analysis) : Prop where
  team : a.team = b.team
  current : a.current = b.current
  vars : a.vars = b.vars
  marks : a.marks = b.marks

/-- States that are alike to a third one are alike. -/
theorem Alike.trans (h : a.Alike b) (h' : b.Alike c) : a.Alike c :=
  ⟨h.team.trans h'.team, h.current.trans h'.current, h.vars.trans h'.vars,
    h.marks.trans h'.marks⟩

/-- Alike states are alike either way. -/
theorem Alike.symm (h : a.Alike b) : b.Alike a :=
  ⟨h.team.symm, h.current.symm, h.vars.symm, h.marks.symm⟩

/-- Alike states have the same fields, those apart that local checkers do not see. -/
theorem Alike.eq_with (h : a.Alike b) : b =
    { a with
      reader := b.reader
      scope := b.scope
      notText := b.notText
      reporter := b.reporter
      found := b.found
      calls := b.calls } := by
  obtain ⟨hteam, hcurrent, hvars, hmarks⟩ := h
  simp only [Analysis.team, Analysis.current, Prod.mk.injEq] at hteam hcurrent
  rw [hteam.1, hteam.2, hcurrent.1, hcurrent.2.1, hcurrent.2.2, hvars, hmarks]

/-- In alike states a local checker gives the same verdict. -/
theorem Alike.check_eq (h : a.Alike b) {c : Checker} (hc : c.IsLocal) (e : Element)
    (path : String) : c.check a.context e path = c.check b.context e path := by
  rw [h.eq_with]
  exact (hc.scope a.context b.scope e path).symm

/-! ## Entering files and reporting -/

/-- What entering a file comes to when nothing is known of any file but the current one. -/
def arrive (fs : FileSystem) (path : String) (a : Analysis) :
    Analysis × Except AnalysisError Bool :=
  if path = "" then (a.leaveFile, .ok true)
  else if a.file.map (·.path) = some path then ({ a with newFile := false }, .ok true)
  else a.takeFile fs path (fs.source path)

/-- What is known of files makes no difference when a file is entered at a clean path. -/
theorem enterFile_eq_arrive (hreader : a.reader.Faithful fs) (hnotText : ∀ p ∈ a.notText, ¬fs.Legible p)
    (hp : Path.IsClean path) :
    ∃ reader notText, reader.Faithful fs ∧ (∀ p ∈ notText, ¬fs.Legible p) ∧
      a.enterFile fs path =
        ({ (a.arrive fs path).1 with reader := reader, notText := notText },
          (a.arrive fs path).2) := by
  unfold Analysis.enterFile arrive
  split
  · exact ⟨a.reader, a.notText, hreader, hnotText, rfl⟩
  split
  · exact ⟨a.reader, a.notText, hreader, hnotText, rfl⟩
  split
  · next hskip =>
    rw [FileSystem.source_of_not_legible (hnotText path hskip)]
    exact ⟨a.reader, a.notText, hreader, hnotText, rfl⟩
  next hempty _ _ =>
  obtain ⟨hloaded, hfaithful⟩ := hreader.load (hp.resolve_left hempty)
  dsimp only
  rw [hloaded]
  unfold takeFile
  split
  · exact ⟨_, a.notText, hfaithful, hnotText, rfl⟩
  · next hsource =>
    refine ⟨_, path :: a.notText, hfaithful, List.forall_mem_cons.2 ⟨?_, hnotText⟩, rfl⟩
    exact FileSystem.not_legible_of_source hsource
  · split
    · exact ⟨_, a.notText, hfaithful, hnotText, rfl⟩
    · exact ⟨_, a.notText, hfaithful, hnotText, rfl⟩

/-- Alike states arrive at alike states, with the same answer. -/
theorem Alike.arrive (h : a.Alike b) (path : String) :
    (a.arrive fs path).2 = (b.arrive fs path).2 ∧
      (a.arrive fs path).1.Alike (b.arrive fs path).1 := by
  rw [h.eq_with]
  unfold Analysis.arrive takeFile
  split
  · exact ⟨rfl, rfl, rfl, rfl, rfl⟩
  split
  · exact ⟨rfl, rfl, rfl, rfl, rfl⟩
  split
  · exact ⟨rfl, rfl, rfl, rfl, rfl⟩
  · exact ⟨rfl, rfl, rfl, rfl, rfl⟩
  · split
    · exact ⟨rfl, rfl, rfl, rfl, rfl⟩
    · exact ⟨rfl, rfl, rfl, rfl, rfl⟩

/-- Arriving changes the current file to one that was read, or to none; elements are then only
looked at if the path is legible. -/
theorem Sound.arrive (h : a.Sound fs) (path : String) :
    (∃ file first newFile notText, (a.arrive fs path).1 =
        { a with
          file := file
          firstCodeLine := first
          newFile := newFile
          notText := notText } ∧ ∀ f, file = some f → fs.source f.path = .ok f) ∧
      ((a.arrive fs path).2 = .ok true → fs.Legible path) := by
  have hnone (f : SourceFile) (hf : (none : Option SourceFile) = some f) :
      fs.source f.path = .ok f := nomatch hf
  unfold Analysis.arrive takeFile
  split
  · next hempty =>
    exact ⟨⟨_, _, _, _, rfl, hnone⟩, fun _ => hempty ▸ fs.legible_empty⟩
  split
  · next hcurrent =>
    obtain ⟨f, hf, rfl⟩ := Option.map_eq_some_iff.1 hcurrent
    exact ⟨⟨_, _, _, _, rfl, h.file⟩, fun _ => FileSystem.legible_of_source (h.file f hf) rfl⟩
  split
  · next f hsource =>
    refine ⟨⟨_, _, _, _, rfl, fun g hg => ?_⟩, fun _ => FileSystem.legible_of_source hsource rfl⟩
    obtain rfl := Option.some.inj hg
    exact FileSystem.path_of_source hsource ▸ hsource
  · exact ⟨⟨_, _, _, _, rfl, h.file⟩, fun hok => nomatch hok⟩
  · next e hsource =>
    split
    · exact ⟨⟨_, _, _, _, rfl, hnone⟩, fun _ => FileSystem.legible_of_source_error hsource⟩
    · exact ⟨⟨_, _, _, _, rfl, h.file⟩, fun hok => nomatch hok⟩

/-- Entering a file at a clean path leaves what is kept as it has to be and finds nothing. -/
theorem Sound.enterFile (h : a.Sound fs) (hp : Path.IsClean path) :
    (a.enterFile fs path).1.Sound fs ∧ (a.enterFile fs path).1.found = a.found ∧
      ((a.enterFile fs path).2 = .ok true → fs.Legible path) := by
  obtain ⟨reader, notText, hreader, hnotText, henter⟩ := enterFile_eq_arrive h.reader h.notText hp
  obtain ⟨⟨file, _, _, _, harrive, hfile⟩, hlegible⟩ := h.arrive path
  rw [henter, harrive]
  exact ⟨⟨h.checkers, hreader, hfile, hnotText, h.seen⟩, rfl, hlegible⟩

/-- Alike states are alike when a file has been entered at a clean path, with the same answer. -/
theorem Alike.enterFile (h : a.Alike b) (ha : a.Sound fs) (hb : b.Sound fs)
    (hp : Path.IsClean path) : (a.enterFile fs path).2 = (b.enterFile fs path).2 ∧
      (a.enterFile fs path).1.Alike (b.enterFile fs path).1 := by
  obtain ⟨_, _, -, -, hea⟩ := enterFile_eq_arrive ha.reader ha.notText hp
  obtain ⟨_, _, -, -, heb⟩ := enterFile_eq_arrive hb.reader hb.notText hp
  obtain ⟨hanswer, halike⟩ : (a.arrive fs path).2 = (b.arrive fs path).2 ∧ _ := h.arrive path
  rw [hea, heb]
  exact ⟨hanswer, halike.team, halike.current, halike.vars, halike.marks⟩

/-- If the reporter knows the keys of the findings, then it still does after reports, and the keys that
were reported have been added, those apart that are about files known not to be text. None is found
again. -/
theorem reports_keys : ∀ (new : List Finding) {a : Analysis},
    (∀ k, k ∈ a.reporter.seen ↔ k ∈ a.keys) →
      (∀ k, k ∈ (new.foldl report a).reporter.seen ↔ k ∈ (new.foldl report a).keys) ∧
      (∀ k, k ∈ (new.foldl report a).keys ↔
        k ∈ a.keys ∨ ∃ f ∈ new, f.path ∉ a.notText ∧ f.key = k) ∧
      (a.keys.Nodup → (new.foldl report a).keys.Nodup)
  | [], _, h => ⟨h, fun k => by simp, id⟩
  | f :: new, a, h => by
    have hreported : (∀ k, k ∈ (a.report f).reporter.seen ↔ k ∈ (a.report f).keys) ∧
        (∀ k, k ∈ (a.report f).keys ↔ k ∈ a.keys ∨ f.path ∉ a.notText ∧ f.key = k) ∧
        (a.keys.Nodup → (a.report f).keys.Nodup) := by
      by_cases hskip : f.path ∈ a.notText
      · rw [report, if_pos hskip]
        exact ⟨h, fun k => by simp [hskip], id⟩
      have hreport : a.report f =
          { a with
            reporter := (a.reporter.report a.found f).1
            found := (a.reporter.report a.found f).2 } := by
        rw [report, if_neg hskip]
      rw [hreport]
      unfold Reporter.report
      split
      · next hseen =>
        refine ⟨h, fun k => ⟨.inl, Or.rec id ?_⟩, id⟩
        rintro ⟨-, rfl⟩
        exact (h _).1 hseen
      · next hseen =>
        have hnew : f.key ∉ a.keys := fun hmem => hseen ((h _).2 hmem)
        have hkeys : (a.found ++ [f]).map (·.key) = a.keys ++ [f.key] := List.map_append
        unfold keys at h hnew hkeys ⊢
        dsimp only
        rw [hkeys]
        refine ⟨fun k => ?_, fun k => ?_, fun hnodup => ?_⟩
        · rw [List.mem_cons, List.mem_append, List.mem_singleton, h k, or_comm]
        · rw [List.mem_append, List.mem_singleton, eq_comm (a := k), and_iff_right hskip]
        · exact List.nodup_append.2 ⟨hnodup, List.pairwise_singleton .., by simpa using hnew⟩
    have hnotText : (a.report f).notText = a.notText := by
      obtain ⟨_, _, heq⟩ := report_eq a f
      rw [heq]
    obtain ⟨hseen, hkeys, hnodup⟩ := hreported
    obtain ⟨hseen', hkeys', hnodup'⟩ := reports_keys new hseen
    refine ⟨hseen', fun k => ?_, hnodup' ∘ hnodup⟩
    rw [List.foldl_cons, hkeys', hkeys, hnotText, or_assoc, List.exists_mem_cons_iff]

/-- Findings at legible paths are reported with their keys. -/
theorem Sound.reports (new : List Finding) (h : a.Sound fs) (hlegible : ∀ f ∈ new, fs.Legible f.path) :
    (new.foldl report a).Sound fs ∧ a.Gains (new.foldl report a) (new.map (·.key)) := by
  obtain ⟨hseen, hkeys, -⟩ := reports_keys new h.seen
  obtain ⟨_, _, heq⟩ := reports_eq new a
  constructor
  · rw [heq] at hseen ⊢
    exact { h with seen := hseen }
  · intro k
    rw [hkeys, List.mem_map]
    refine or_congr_right (exists_congr fun f => and_congr_right fun hf => and_iff_right ?_)
    exact fun hmem => h.notText _ hmem (hlegible f hf)

/-- Reports leave alike states alike. -/
theorem Alike.reports (new : List Finding) (h : a.Alike b) :
    (new.foldl report a).Alike (new.foldl report b) := by
  obtain ⟨_, _, hra⟩ := reports_eq new a
  obtain ⟨_, _, hrb⟩ := reports_eq new b
  rw [hra, hrb]
  exact ⟨h.team, h.current, h.vars, h.marks⟩

end Analysis

namespace Action

variable {a b : Analysis} {x y : Action} {path : String}

/-! ## The same from alike states -/

/-- From two states it comes to the same: both ways stop for the same reason, if at all, in states
that are sound and alike, and gain the same keys. -/
structure Matched (fs : FileSystem) (a b : Analysis) (r s : Analysis × Option AnalysisError) :
    Prop where
  stop : r.2 = s.2
  left : r.1.Sound fs
  right : s.1.Sound fs
  alike : r.1.Alike s.1
  gains : ∃ new, a.Gains r.1 new ∧ b.Gains s.1 new

/-- The action does the same from sound states that are alike. -/
def Same (fs : FileSystem) (x : Action) : Prop :=
  ∀ a b : Analysis, a.Sound fs → b.Sound fs → a.Alike b → Matched fs a b (x a) (x b)

/-- A change of the state that concerns neither files nor findings. -/
theorem Same.change {f : Analysis → Analysis}
    (hf : ∀ a, ∃ vars scope marks newFile, f a =
      { a with vars := vars, scope := scope, marks := marks, newFile := newFile })
    (halike : ∀ a b : Analysis, a.Alike b → (f a).Alike (f b)) : Same fs (change f) := by
  have hsound (a : Analysis) (ha : a.Sound fs) : (f a).Sound fs ∧ a.Gains (f a) [] := by
    obtain ⟨_, _, _, _, heq⟩ := hf a
    rw [heq]
    exact ⟨{ ha with }, .of_found_eq rfl⟩
  intro a b ha hb h
  obtain ⟨hfa, hgains⟩ := hsound a ha
  obtain ⟨hfb, hgains'⟩ := hsound b hb
  exact ⟨rfl, hfa, hfb, halike a b h, [], hgains, hgains'⟩

/-- A sequence does the same if both its parts do. -/
theorem Same.andThen (hx : Same fs x) (hy : Same fs y) : Same fs (x.andThen y) := by
  intro a b ha hb h
  obtain ⟨hstop, hxa, hxb, halike, new, hgains, hgains'⟩ := hx a b ha hb h
  unfold Action.andThen
  generalize x a = r at hstop hxa halike hgains
  generalize x b = s at hstop hxb halike hgains'
  obtain ⟨a', stop⟩ := r
  obtain ⟨b', stop'⟩ := s
  obtain rfl : stop = stop' := hstop
  cases stop with
  | some e => exact ⟨rfl, hxa, hxb, halike, new, hgains, hgains'⟩
  | none =>
    obtain ⟨hstop', hya, hyb, halike', new', hgained, hgained'⟩ := hy a' b' hxa hxb halike
    exact ⟨hstop', hya, hyb, halike', new ++ new', hgains.trans hgained, hgains'.trans hgained'⟩

/-- Nothing is the same from all states. -/
theorem Same.done : Same fs done :=
  Same.change (fun _ => ⟨_, _, _, _, rfl⟩) fun _ _ h => h

/-- A local checker says the same about an element at a legible path. -/
theorem Same.call {c : Checker} (hc : c.IsLocal) (e : Element) (hp : fs.Legible path) :
    Same fs (call e path c) := by
  intro a b ha hb h
  have hverdict := h.check_eq hc e path
  have hnoted {a : Analysis} (ha : a.Sound fs) :
      ({ a with calls := ⟨c, a.context, e, path⟩ :: a.calls } : Analysis).Sound fs := { ha with }
  unfold Action.call
  dsimp only
  rw [hverdict]
  cases hfound : c.check b.context e path with
  | none =>
    exact ⟨rfl, hnoted ha, hnoted hb, ⟨h.team, h.current, h.vars, h.marks⟩, [], .of_found_eq rfl,
      .of_found_eq rfl⟩
  | some new =>
    have hlegible (f : Finding) (hf : f ∈ new) : fs.Legible f.path := by
      rw [hc.path _ _ _ _ hfound f hf]
      exact hp
    obtain ⟨hsa, hgains⟩ := (hnoted ha).reports new hlegible
    obtain ⟨hsb, hgains'⟩ := (hnoted hb).reports new hlegible
    exact ⟨rfl, hsa, hsb, .reports new ⟨h.team, h.current, h.vars, h.marks⟩, _, hgains, hgains'⟩

/-- Local checkers say the same about an element at a legible path. -/
theorem Same.visit (e : Element) (hp : fs.Legible path) : Same fs (visit e path) := by
  have heach : ∀ cs : List Checker, (∀ c ∈ cs, c.IsLocal) → Same fs (each (Action.call e path) cs) := by
    intro cs hcs
    induction cs with
    | nil => exact .done
    | cons c cs ih =>
      obtain ⟨hc, hcs⟩ := List.forall_mem_cons.1 hcs
      exact (Same.call hc e hp).andThen (ih hcs)
  intro a b ha hb h
  have hcheckers : a.checkers = b.checkers := congrArg Prod.snd h.team
  have := heach a.checkers ha.checkers a b ha hb h
  unfold Action.visit
  rwa [← hcheckers]

/-- A block at a clean path is entered in the same way, and inside the same is done. -/
theorem Same.entering (hp : Path.IsClean path) {body : Bool → Action}
    (hbody : fs.Legible path → ∀ newFile, Same fs (body newFile)) :
    Same fs (entering fs path body) := by
  intro a b ha hb h
  obtain ⟨hea, hfa, hlegible⟩ := ha.enterFile hp
  obtain ⟨heb, hfb, -⟩ := hb.enterFile hp
  obtain ⟨hanswer, halike⟩ := h.enterFile ha hb hp
  have hback {c d : Analysis} (hc : c.Sound fs) (hd : d.Sound fs) : (d.withFileOf c).Sound fs :=
    { hd with file := hc.file }
  have hsame {c d : Analysis} (hcd : c.Alike d) : (c.withFileOf a).Alike (d.withFileOf b) :=
    ⟨hcd.team, h.current, hcd.vars, hcd.marks⟩
  unfold Action.entering keepingFile
  dsimp only
  generalize a.enterFile fs path = r at hea hfa hlegible hanswer halike
  generalize b.enterFile fs path = s at heb hfb hanswer halike
  obtain ⟨a', answer⟩ := r
  obtain ⟨b', answer'⟩ := s
  obtain rfl : answer = answer' := hanswer
  match answer with
  | .error e =>
    exact ⟨rfl, hback ha hea, hback hb heb, hsame halike, [], .of_found_eq hfa, .of_found_eq hfb⟩
  | .ok false =>
    exact ⟨rfl, hback ha hea, hback hb heb, hsame halike, [], .of_found_eq hfa, .of_found_eq hfb⟩
  | .ok true =>
    have hnew : a'.newFile = b'.newFile := congrArg (·.2.2) halike.current
    obtain ⟨hstop, hleft, hright, halike', new, hgains, hgains'⟩ :=
      hbody (hlegible rfl) a'.newFile a' b' hea heb halike
    rw [hnew] at hstop hleft halike' hgains hright hgains'
    dsimp only
    rw [hnew]
    exact ⟨hstop, hback ha hleft, hback hb hright, hsame halike', new,
      (Analysis.Gains.of_found_eq hfa).trans hgains, (Analysis.Gains.of_found_eq hfb).trans hgains'⟩

/-- The steps of the way through a tree do the same, at clean paths. -/
theorem law_same (fs : FileSystem) :
    Law fs Path.IsClean fun path x _ => fs.Legible path → Same fs x where
  perm _ h := h
  done _ := .done
  andThen hx hy hp := (hx hp).andThen (hy hp)
  declare names _ := Same.change (fun _ => ⟨_, _, _, _, rfl⟩) fun a b h =>
    ⟨h.team, h.current, congrArg (· ++ names) h.vars, h.marks⟩
  among scope _ := Same.change (fun _ => ⟨_, _, _, _, rfl⟩) fun a b h =>
    ⟨h.team, h.current, h.vars, h.marks⟩
  visit e path hp := Same.visit e hp
  block {path parts nested l m} outer names e hclean hparts hnested _ := by
    refine Same.entering hclean fun hp newFile => ?_
    have hopen : Same fs (Action.change (·.openScope)) :=
      Same.change (fun _ => ⟨_, _, _, _, rfl⟩) fun a b h =>
        ⟨h.team, h.current, h.vars, congrArg₂ (List.length · :: ·) h.vars h.marks⟩
    have hdeclare : Same fs (Action.change (·.declare names)) :=
      Same.change (fun _ => ⟨_, _, _, _, rfl⟩) fun a b h =>
        ⟨h.team, h.current, congrArg (· ++ names) h.vars, h.marks⟩
    have hclose : Same fs (Action.change (·.closeScope)) := by
      refine Same.change (fun a => ?_) fun a b h => ?_
      · unfold Analysis.closeScope
        split
        · exact ⟨_, _, _, _, rfl⟩
        · exact ⟨_, _, _, _, rfl⟩
      · rw [h.eq_with]
        unfold Analysis.closeScope
        dsimp only
        split
        · exact ⟨rfl, rfl, rfl, rfl⟩
        · exact ⟨rfl, rfl, rfl, rfl⟩
    have hnew (newFile : Bool) : Same fs (Action.change ({ · with newFile := newFile })) :=
      Same.change (fun _ => ⟨_, _, _, _, rfl⟩) fun a b h =>
        ⟨h.team, congrArg (fun c => (c.1, c.2.1, newFile)) h.current, h.vars, h.marks⟩
    have hinside : Same fs (inside newFile parts nested e path) :=
      (hnew _).andThen <| (hparts hp).andThen <| (hnew _).andThen <|
        (Same.visit e hp).andThen <| (hnew _).andThen (hnested hp)
    exact hopen.andThen <| hdeclare.andThen <| hinside.andThen hclose

end Action

end InfraSmells
