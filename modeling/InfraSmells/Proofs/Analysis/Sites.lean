import InfraSmells.Proofs.Analysis.Legible

/-!
# Sites in a tree and the files that are entered

A site is a place in a tree as far as files are concerned: an element, the path around it and the file
that is current there. A block enters a file if it is not the current one around the block
(`Site.Enters`), and a tree enters the files that its blocks enter, those apart that stand in files that
are no text (`Element.Enters`). What there is to show in the files that are entered from a site on comes
from the site itself and from its children (`Site.shows_iff`, `Site.shows_block_iff`).
-/

namespace InfraSmells

variable {fs : FileSystem}

/-- The path of the source file at a path, if there is one. -/
def FileSystem.fileAt (fs : FileSystem) (path : String) : Option String :=
  match fs.source path with
  | .ok _ => some path
  | .error _ => none

/-- Only the path itself leads to the source file at a path. -/
theorem FileSystem.fileAt_eq_some {p q : String} (h : fs.fileAt p = some q) :
    p = q ∧ ∃ f, fs.source p = .ok f := by
  unfold fileAt at h
  cases hsource : fs.source p with
  | ok f =>
    rw [hsource] at h
    exact ⟨Option.some.inj h, f, rfl⟩
  | error e =>
    rw [hsource] at h
    cases h

/-! ## Sites -/

/-- A place in a tree: an element, the path around it and the path of the file that is current there. -/
structure Site where
  element : Element
  around : String
  current : Option String

namespace Site

/-- The path that belongs to the element. -/
def path (s : Site) : String :=
  s.element.pathFrom s.around

/-- The place of a child. In a block the file of the block is current. -/
def child (fs : FileSystem) (s : Site) (c : Element) : Site where
  element := c
  around := s.path
  current :=
    match s.element with
    | .block _ => fs.fileAt s.path
    | _ => s.current

/-- The children are gone through, unless the element is a block whose file is no text. -/
def IsOpen (fs : FileSystem) (s : Site) : Prop :=
  ∀ b, s.element = .block b → fs.Legible s.path

/-- The way through one site leads to the other one. -/
inductive Reaches (fs : FileSystem) : Site → Site → Prop
  | refl (s : Site) : Reaches fs s s
  | child {s t : Site} {c : Element} : s.IsOpen fs → c ∈ s.element.children →
      Reaches fs (s.child fs c) t → Reaches fs s t

/-- There is a block that is more than a part of a script, and the file of its path is not the current
one around it. -/
def Enters (s : Site) (path : String) : Prop :=
  ∃ b, s.element = .block b ∧ b.type ≠ .block ∧ s.path = path ∧ s.current ≠ some path

end Site

/-- Some block that is gone through in the tree enters the file of the path. -/
def Element.Enters (fs : FileSystem) (root : Element) (path : String) : Prop :=
  ∃ s, Site.Reaches fs ⟨root, "", none⟩ s ∧ s.Enters path

/-- What `about` gives for the files that are entered from a site on. -/
def Site.Shows (fs : FileSystem) (about : SourceFile → String → Finding.Key → Prop) (s : Site)
    (k : Finding.Key) : Prop :=
  ∃ t path f, s.Reaches fs t ∧ t.Enters path ∧ fs.source path = .ok f ∧ about f path k

variable {about : SourceFile → String → Finding.Key → Prop} {k : Finding.Key}

/-- What is shown at an element other than a block is shown at its children. -/
theorem Site.shows_iff {e : Element} (h : ∀ b, e ≠ .block b) {around : String}
    {current : Option String} :
    Site.Shows fs about ⟨e, around, current⟩ k ↔
      ∃ c ∈ e.children, Site.Shows fs about ⟨c, e.pathFrom around, current⟩ k := by
  have hchild (c : Element) :
      Site.child fs ⟨e, around, current⟩ c = ⟨c, e.pathFrom around, current⟩ := by
    cases e with
    | block b => exact absurd rfl (h b)
    | _ => rfl
  constructor
  · rintro ⟨t, path, f, hreaches, henters, hrest⟩
    cases hreaches with
    | refl =>
      obtain ⟨b, hb, -⟩ := henters
      exact absurd hb (h b)
    | child _ hc hreaches => exact ⟨_, hc, t, path, f, hchild _ ▸ hreaches, henters, hrest⟩
  · rintro ⟨c, hc, t, path, f, hreaches, hrest⟩
    exact ⟨t, path, f, .child (fun b hb => absurd hb (h b)) hc (hchild c ▸ hreaches), hrest⟩

/-- What is shown at a block is shown by itself, if it enters a file, or else in it, if its file is text
or none. -/
theorem Site.shows_block_iff {b : Block} {around path : String} {current : Option String}
    (hpath : path = (Element.block b).pathFrom around) :
    Site.Shows fs about ⟨.block b, around, current⟩ k ↔
      (b.type ≠ .block ∧ current ≠ some path ∧ ∃ f, fs.source path = .ok f ∧ about f path k) ∨
      (fs.Legible path ∧ ∃ c ∈ (Element.block b).children,
        Site.Shows fs about ⟨c, path, fs.fileAt path⟩ k) := by
  subst hpath
  constructor
  · rintro ⟨t, path, f, hreaches, henters, hrest⟩
    cases hreaches with
    | refl =>
      obtain ⟨_, heq, htype, rfl, hcurrent⟩ := henters
      cases heq
      exact .inl ⟨htype, hcurrent, f, hrest⟩
    | child hopen hc hreaches => exact .inr ⟨hopen b rfl, _, hc, t, path, f, hreaches, henters, hrest⟩
  · rintro (⟨htype, hcurrent, f, hrest⟩ | ⟨hlegible, c, hc, t, path, f, hreaches, hrest⟩)
    · exact ⟨_, _, f, .refl _, ⟨b, rfl, htype, rfl, hcurrent⟩, hrest⟩
    · exact ⟨t, path, f, .child (fun _ _ => hlegible) hc hreaches, hrest⟩

end InfraSmells
