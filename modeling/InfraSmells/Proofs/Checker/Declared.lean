import InfraSmells.Checker.Basic

/-!
# What a checker declares

A registration declares the codes of the smells that its checker may report. A finding keeps to that
declaration (`Finding.Declared`) if it has one of these codes, the path at which the checker was
called, and a line of a text or none. `AllDeclared` says it of a list of findings; it goes through
the ways in which checkers put their findings together, so that it is shown of a checker by going
through its cases.
-/

namespace InfraSmells

/-- The finding has one of the codes, the path, and a line that counts from one, or none. -/
structure Finding.Declared (codes : List String) (path : String) (f : Finding) : Prop where
  code : f.code ∈ codes
  path : f.path = path
  line : f.line = -1 ∨ 1 ≤ f.line

/-- All findings keep to a declaration. -/
def AllDeclared (codes : List String) (path : String) (fs : List Finding) : Prop :=
  ∀ f ∈ fs, f.Declared codes path

/-- The findings of a verdict, if there is one, keep to a declaration. -/
def Verdict.Declared (codes : List String) (path : String) (v : Verdict) : Prop :=
  ∀ found, v = some found → AllDeclared codes path found

/-- The checker of the registration keeps to its declaration, whatever it looks at and whatever the
configuration is. -/
def Registration.KeepsToCodes (r : Registration) : Prop :=
  ∀ (config : Config) (c : Context) (e : Element) (path : String),
    Verdict.Declared r.codes path (r.check config c e path)

section
variable {codes : List String} {path code : String}

/-! ## Single findings -/

/-- The line at which an element is reported counts from one, or there is none. -/
theorem Finding.lineOf_cases (s : Span) : lineOf s = -1 ∨ 1 ≤ lineOf s := by
  unfold lineOf
  split
  · exact .inr (Int.add_one_le_of_lt ‹_›)
  · exact .inl rfl

/-- A finding about an element keeps to a declaration of its code. -/
@[simp] theorem Finding.declared_about (e : Element) (context : String) :
    (about code e path context).Declared codes path ↔ code ∈ codes :=
  ⟨fun h => h.code, fun h => ⟨h, rfl, lineOf_cases e.span⟩⟩

/-- A finding shown by the summary of its element keeps to a declaration of its code. -/
@[simp] theorem Finding.declared_of (e : Element) :
    (Finding.of code e path).Declared codes path ↔ code ∈ codes :=
  declared_about e _

/-- A suggestion changes nothing. -/
@[simp] theorem Finding.declared_suggest (f : Finding) (s : String) :
    (f.suggest s).Declared codes path ↔ f.Declared codes path :=
  ⟨fun h => ⟨h.code, h.path, h.line⟩, fun h => ⟨h.code, h.path, h.line⟩⟩

/-- A finding may be moved to any line that counts from one. -/
theorem Finding.Declared.atLine {f : Finding} (h : f.Declared codes path) {n : Nat} (hn : 1 ≤ n) :
    (f.atLine n).Declared codes path :=
  ⟨h.code, h.path, .inr (Int.ofNat_le.2 hn)⟩

/-! ## Lists of findings -/

@[simp] theorem allDeclared_nil : AllDeclared codes path [] :=
  fun _ hf => nomatch hf

@[simp] theorem allDeclared_cons {f : Finding} {fs : List Finding} :
    AllDeclared codes path (f :: fs) ↔ f.Declared codes path ∧ AllDeclared codes path fs :=
  List.forall_mem_cons

@[simp] theorem allDeclared_append {fs gs : List Finding} :
    AllDeclared codes path (fs ++ gs) ↔ AllDeclared codes path fs ∧ AllDeclared codes path gs :=
  List.forall_mem_append

@[simp] theorem allDeclared_ite {p : Prop} [Decidable p] {fs gs : List Finding} :
    AllDeclared codes path (if p then fs else gs) ↔
      (p → AllDeclared codes path fs) ∧ (¬p → AllDeclared codes path gs) := by
  split <;> simp [*]

@[simp] theorem allDeclared_map {α : Type} {g : α → Finding} {xs : List α} :
    AllDeclared codes path (xs.map g) ↔ ∀ x ∈ xs, (g x).Declared codes path :=
  List.forall_mem_map

@[simp] theorem allDeclared_filterMap {α : Type} {g : α → Option Finding} {xs : List α} :
    AllDeclared codes path (xs.filterMap g) ↔
      ∀ x ∈ xs, ∀ f, g x = some f → f.Declared codes path := by
  simp only [AllDeclared, List.mem_filterMap]
  exact ⟨fun h x hx f hf => h f ⟨x, hx, hf⟩, fun h f ⟨x, hx, hf⟩ => h x hx f hf⟩

@[simp] theorem allDeclared_flatMap {α : Type} {g : α → List Finding} {xs : List α} :
    AllDeclared codes path (xs.flatMap g) ↔ ∀ x ∈ xs, AllDeclared codes path (g x) := by
  simp only [AllDeclared, List.mem_flatMap]
  exact ⟨fun h x hx f hf => h f ⟨x, hx, hf⟩, fun h f ⟨x, hx, hf⟩ => h x hx f hf⟩

/-! ## Verdicts -/

/-- A checker that breaks down has reported nothing. -/
@[simp] theorem Verdict.declared_none : Verdict.Declared codes path none :=
  fun _ h => nomatch h

@[simp] theorem Verdict.declared_some {fs : List Finding} :
    Verdict.Declared codes path (some fs) ↔ AllDeclared codes path fs :=
  ⟨fun h => h fs rfl, fun h _ hfound => Option.some.inj hfound ▸ h⟩

@[simp] theorem Verdict.declared_pure {fs : List Finding} :
    Verdict.Declared codes path (pure fs) ↔ AllDeclared codes path fs :=
  declared_some

/-- What follows a verdict keeps to a declaration if it does so after findings that do. -/
theorem Verdict.Declared.bind {v : Verdict} {g : List Finding → Verdict}
    (hv : Verdict.Declared codes path v)
    (hg : ∀ fs, AllDeclared codes path fs → Verdict.Declared codes path (g fs)) :
    Verdict.Declared codes path (v >>= g) := by
  intro found hfound
  obtain ⟨fs, hfs, hfound⟩ := Option.bind_eq_some_iff.1 hfound
  exact hg fs (hv fs hfs) found hfound

end

end InfraSmells
