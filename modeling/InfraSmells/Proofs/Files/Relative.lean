import InfraSmells.Proofs.Files.Below
import InfraSmells.Proofs.Text.Parts

/-!
# Paths as seen from a directory

A path that lies in a directory is shown by the components that it has behind those of the directory,
and every other path in full (`Path.relative?_inside`, `Path.relative?_outside`). Which of the two it is
hangs on components, whereas `Path.leadsOut` looks at the text of the path between them: both come to
the same because this text begins with a step up if and only if the directory has a component that the
path does not have there (`Path.leadsOut_text`). What is shown leads back to the path
(`Path.relative_leads_back`).
-/

namespace InfraSmells.Path

variable {dir target : Path}

/-! ## Rooted paths -/

/-- The clean path of a text, taken from the current directory, starts at the root. -/
theorem rooted_absolute (fs : FileSystem) (s : String) : (absolute fs.herePath s).rooted = true := by
  have hhere (t : String) : Text.startsWith (fs.herePath ++ t) "/" = true := by
    rw [FileSystem.herePath, text, if_pos rfl, String.append_assoc, Text.startsWith,
      String.toList_append]
    rfl
  unfold absolute
  split
  · next h => exact h
  · rw [String.append_assoc]
    exact hhere _

/-- The components of a text, taken from the current directory, are clean. -/
theorem stacked_absolute (here s : String) :
    Stacked (absolute here s).rooted (absolute here s).parts.reverse := by
  unfold absolute
  split
  · exact stacked_ofText s
  · exact stacked_ofText _

/-- Behind the root there is no step up. -/
theorem Stacked.up_notMem : ∀ {stack : List String}, Stacked true stack → ".." ∉ stack
  | [], _ => List.not_mem_nil
  | top :: _, h => by
    rw [List.mem_cons, not_or]
    exact ⟨fun htop => Bool.noConfusion (h.2.1 htop.symm).1, up_notMem h.2.2⟩

/-- Names that are no steps up are the components of a clean path. -/
theorem stacked_of_names {rooted : Bool} : ∀ {stack : List String}, (∀ part ∈ stack, IsName part) →
    ".." ∉ stack → Stacked rooted stack
  | [], _, _ => trivial
  | top :: _, hnames, hup => by
    obtain ⟨htop, hrest⟩ := List.forall_mem_cons.1 hnames
    obtain ⟨hne, hnotin⟩ := List.ne_and_not_mem_of_not_mem_cons hup
    exact ⟨htop, fun h => absurd h.symm hne, stacked_of_names hrest hnotin⟩

/-! ## The path between two -/

/-- What two lists have in front is left out of both. -/
theorem apart_append (common ds ts : List String) :
    apart (common ++ ds) (common ++ ts) = apart ds ts := by
  induction common with
  | nil => rfl
  | cons c common ih => rw [List.cons_append, List.cons_append, apart, if_pos rfl, ih]

/-- The two lists go on from a common beginning. -/
theorem exists_common (ds ts : List String) :
    ∃ common, ds = common ++ (apart ds ts).1 ∧ ts = common ++ (apart ds ts).2 := by
  fun_induction apart ds ts with
  | case1 ds d ts ih =>
    obtain ⟨common, hds, hts⟩ := ih
    exact ⟨d :: common, congrArg (d :: ·) hds, congrArg (d :: ·) hts⟩
  | case2 => exact ⟨[], rfl, rfl⟩
  | case3 => exact ⟨[], rfl, rfl⟩

/-- Nothing is left of a list if and only if the other one begins with it. -/
theorem apart_fst_eq_nil_iff (ds ts : List String) : (apart ds ts).1 = [] ↔ ds <+: ts := by
  constructor
  · intro h
    obtain ⟨common, hds, hts⟩ := exists_common ds ts
    rw [h, List.append_nil] at hds
    rw [hts, ← hds]
    exact List.prefix_append _ _
  · rintro ⟨ts, rfl⟩
    have := apart_append ds [] ts
    rw [List.append_nil] at this
    rw [this, apart]
    simp

/-- Between two paths that start at the root there is always one. -/
theorem between?_rooted (hdir : Stacked true dir.parts.reverse) (hd : dir.rooted = true)
    (ht : target.rooted = true) :
    between? dir target = some ⟨false, (apart dir.parts target.parts).1.map (fun _ => "..") ++
      (apart dir.parts target.parts).2⟩ := by
  obtain ⟨common, hcommon, -⟩ := exists_common dir.parts target.parts
  have hup : (apart dir.parts target.parts).1.head? ≠ some ".." := by
    intro hhead
    refine hdir.up_notMem (List.mem_reverse.2 ?_)
    rw [hcommon]
    exact List.mem_append_right _ (List.mem_of_head? hhead)
  simp only [between?, hd, ht, bne_self_eq_false, Bool.false_eq_true, if_false, if_neg hup]

/-! ## Steps up, by components and by text -/

/-- A path leads out if and only if its first component is a step up. -/
theorem leadsOut_iff_split (s : String) :
    leadsOut s = true ↔ (Text.split '/' s).head? = some ".." := by
  rw [leadsOut, Bool.or_eq_true, beq_iff_eq, Text.startsWith, Text.beginsWith_iff]
  constructor
  · rintro (rfl | ⟨rest, hrest⟩)
    · decide
    · have hup : '/' ∉ ['.', '.'] := by decide
      have hchars : s.toList = ['.', '.'] ++ '/' :: rest := hrest.symm
      rw [Text.split, hchars, Text.splitChars_append rest hup]
      rfl
  · intro h
    obtain ⟨rest, hrest⟩ := List.head?_eq_some_iff.1 h
    rw [← Text.join_split s, hrest]
    cases rest with
    | nil => exact .inl rfl
    | cons next rest =>
      refine .inr ⟨(Text.join "/" (next :: rest)).toList, ?_⟩
      rw [Text.join_cons (List.cons_ne_nil next rest), String.toList_append]
      rfl

/-- The text of a relative path leads out if and only if its first component is a step up. -/
theorem leadsOut_text {parts : List String} (h : ∀ part ∈ parts, IsName part) :
    leadsOut (Path.mk false parts).text = true ↔ parts.head? = some ".." := by
  cases parts with
  | nil => decide
  | cons first rest =>
    have hsplit := Text.split_join (List.cons_ne_nil first rest) fun p hp => (h p hp).whole
    rw [leadsOut_iff_split, text, if_neg Bool.false_ne_true, if_neg (by simp), hsplit]

/-- The components of the text of a relative path, put behind clean ones. -/
theorem foldl_split_text {rooted : Bool} {parts : List String} (stack : List String)
    (h : ∀ part ∈ parts, IsName part) :
    (Text.split '/' (Path.mk false parts).text).foldl (push rooted) stack =
      parts.foldl (push rooted) stack := by
  cases parts with
  | nil => rfl
  | cons first rest =>
    have hsplit := Text.split_join (List.cons_ne_nil first rest) fun p hp => (h p hp).whole
    rw [text, if_neg Bool.false_ne_true, if_neg (by simp), hsplit]

/-! ## What is shown -/

section
variable {fs : FileSystem} {target dir : String}

/-- The components of a path from the current directory are names, and none is a step up. -/
theorem names_absolute (fs : FileSystem) (s : String) :
    (∀ part ∈ (absolute fs.herePath s).parts, IsName part) ∧
      ".." ∉ (absolute fs.herePath s).parts := by
  have hstacked := stacked_absolute fs.herePath s
  refine ⟨fun part hpart => hstacked.isName part (List.mem_reverse.2 hpart), fun hup => ?_⟩
  rw [rooted_absolute] at hstacked
  exact hstacked.up_notMem (List.mem_reverse.2 hup)

/-- The text of a path from the current directory is read as the path. -/
theorem ofText_absolute (here s : String) : ofText (absolute here s).text = absolute here s :=
  ofText_text (stacked_absolute here s)

/-- There is always a path between two that are taken from the current directory. -/
theorem relative?_eq (fs : FileSystem) (target dir : String) :
    relative? fs.herePath target dir =
      let d := absolute fs.herePath dir
      let t := absolute fs.herePath target
      let r : Path := ⟨false, (apart d.parts t.parts).1.map (fun _ => "..") ++ (apart d.parts t.parts).2⟩
      some (clean (if leadsOut r.text then t.text else r.text)) := by
  have hrooted := rooted_absolute fs dir
  have hstacked := stacked_absolute fs.herePath dir
  rw [hrooted] at hstacked
  rw [relative?, between?_rooted hstacked hrooted (rooted_absolute fs target)]
  rfl

/-- The components of a path behind those of the directory are those of a clean path without steps
up. -/
theorem clean_inside {inner : List String}
    (h : (absolute fs.herePath target).parts = (absolute fs.herePath dir).parts ++ inner) :
    (∀ part ∈ inner, IsName part) ∧ ".." ∉ inner ∧
      ofText (Path.mk false inner).text = ⟨false, inner⟩ := by
  obtain ⟨hnames, hup⟩ := names_absolute fs target
  rw [h] at hnames hup
  have hnames (part : String) (hp : part ∈ inner) := hnames part (List.mem_append_right _ hp)
  have hup : ".." ∉ inner := fun hp => hup (List.mem_append_right _ hp)
  refine ⟨hnames, hup, ofText_text (stacked_of_names ?_ ?_)⟩
  · exact fun p hp => hnames p (List.mem_reverse.1 hp)
  · exact fun hp => hup (List.mem_reverse.1 hp)

/-- A path that lies in the directory is shown by its components there. -/
theorem relative?_inside {inner : List String}
    (h : (absolute fs.herePath target).parts = (absolute fs.herePath dir).parts ++ inner) :
    relative? fs.herePath target dir = some (Path.mk false inner).text := by
  obtain ⟨hnames, hup, hclean⟩ := clean_inside h
  have hstays : leadsOut (Path.mk false inner).text = false := by
    rw [← Bool.not_eq_true, leadsOut_text hnames]
    exact fun hhead => hup (List.mem_of_head? hhead)
  have hapart : apart (absolute fs.herePath dir).parts (absolute fs.herePath target).parts =
      ([], inner) := by
    have := apart_append (absolute fs.herePath dir).parts [] inner
    rw [List.append_nil] at this
    rw [h, this, apart]
    simp
  rw [relative?_eq]
  simp only [hapart, List.map_nil, List.nil_append, hstays, Bool.false_eq_true, if_false, clean,
    hclean]

/-- A path that lies outside the directory is shown in full. -/
theorem relative?_outside
    (h : ¬(absolute fs.herePath dir).parts <+: (absolute fs.herePath target).parts) :
    relative? fs.herePath target dir = some (absolute fs.herePath target).text := by
  obtain ⟨common, -, htarget⟩ :=
    exists_common (absolute fs.herePath dir).parts (absolute fs.herePath target).parts
  rw [← apart_fst_eq_nil_iff] at h
  obtain ⟨up, ups, hups⟩ := List.exists_cons_of_ne_nil h
  have hnames : ∀ part ∈ (up :: ups).map (fun _ => "..") ++
      (apart (absolute fs.herePath dir).parts (absolute fs.herePath target).parts).2,
      IsName part := by
    intro part hp
    rcases List.mem_append.1 hp with hp | hp
    · obtain ⟨_, -, rfl⟩ := List.mem_map.1 hp
      exact ⟨by decide, by decide, by decide⟩
    · refine (names_absolute fs target).1 part ?_
      rw [htarget]
      exact List.mem_append_right _ hp
  rw [relative?_eq]
  simp only [hups]
  rw [if_pos ((leadsOut_text hnames).2 rfl), clean, ofText_absolute]

/-- The components that a path has behind those of the directory lead to it from there. -/
theorem join_inside {inner : List String}
    (h : (absolute fs.herePath target).parts = (absolute fs.herePath dir).parts ++ inner) :
    join (absolute fs.herePath dir).text (Path.mk false inner).text =
      (absolute fs.herePath target).text := by
  have hne : (absolute fs.herePath dir).text ≠ "" := by
    have := clean_ne_empty (absolute fs.herePath dir).text
    rwa [clean, ofText_absolute] at this
  have hdir := (stacked_absolute fs.herePath dir).foldl_reverse
  have htarget := (stacked_absolute fs.herePath target).foldl_reverse
  rw [List.reverse_reverse, rooted_absolute] at hdir htarget
  rw [h, List.foldl_append, hdir, ← h] at htarget
  rw [join, if_neg hne, clean, ofText_slash hne, ofText_absolute,
    foldl_split_text _ (clean_inside h).1, rooted_absolute, htarget, List.reverse_reverse,
    ← rooted_absolute fs target]

/-- Every path is shown, by its components in the directory or in full. -/
theorem relative?_cases (fs : FileSystem) (target dir : String) :
    (∃ inner, (absolute fs.herePath target).parts = (absolute fs.herePath dir).parts ++ inner ∧
      relative? fs.herePath target dir = some (Path.mk false inner).text) ∨
    (¬(absolute fs.herePath dir).parts <+: (absolute fs.herePath target).parts ∧
      relative? fs.herePath target dir = some (absolute fs.herePath target).text) := by
  by_cases h : (absolute fs.herePath dir).parts <+: (absolute fs.herePath target).parts
  · obtain ⟨inner, hinner⟩ := h
    exact .inl ⟨inner, hinner.symm, relative?_inside hinner.symm⟩
  · exact .inr ⟨h, relative?_outside h⟩

/-- What is shown in the same way is the same path. -/
theorem absolute_eq_of_relative?_eq {other : String}
    (h : relative? fs.herePath target dir = relative? fs.herePath other dir) :
    absolute fs.herePath target = absolute fs.herePath other := by
  suffices htext : (absolute fs.herePath target).text = (absolute fs.herePath other).text by
    rw [← ofText_absolute, htext, ofText_absolute]
  -- a path in the directory is shown as a relative one, every other by its text, which is rooted
  have hmixed {s t : String} {inner : List String}
      (hinner : (absolute fs.herePath s).parts = (absolute fs.herePath dir).parts ++ inner)
      (heq : (Path.mk false inner).text = (absolute fs.herePath t).text) : False := by
    have hclean := (clean_inside hinner).2.2
    rw [heq, ofText_absolute] at hclean
    have hrooted := rooted_absolute fs t
    rw [hclean] at hrooted
    cases hrooted
  rcases relative?_cases fs target dir with ⟨inner, hinner, hshown⟩ | ⟨-, hshown⟩ <;>
    rcases relative?_cases fs other dir with ⟨inner', hinner', hshown'⟩ | ⟨-, hshown'⟩ <;>
    rw [hshown, hshown', Option.some.injEq] at h
  · rw [← join_inside hinner, ← join_inside hinner', h]
  · exact (hmixed hinner h).elim
  · exact (hmixed hinner' h.symm).elim
  · exact h

end

/-! ## The way back -/

/-- A path as it is seen from a directory. -/
structure SeenFrom (dir target : Path) (shown : String) : Prop where
  /-- In the directory it is relative, takes no step up and leads back from the directory. -/
  inside : dir.parts <+: target.parts → (ofText shown).rooted = false ∧
    (ofText shown).parts.head? ≠ some ".." ∧ join dir.text shown = target.text
  /-- Outside it is shown in full. -/
  outside : ¬dir.parts <+: target.parts → shown = target.text

/-- Every path is shown as it is seen from the directory, and different paths are shown differently. What
lies in the directory is shown by its components there, whatever their names begin with. -/
theorem relative_leads_back (fs : FileSystem) (dir : String) :
    (∀ target, ∃ shown, relative? fs.herePath target dir = some shown ∧
      SeenFrom (absolute fs.herePath dir) (absolute fs.herePath target) shown) ∧
    (∀ target other, relative? fs.herePath target dir = relative? fs.herePath other dir →
      absolute fs.herePath target = absolute fs.herePath other) ∧
    ∀ target inner, (absolute fs.herePath target).parts = (absolute fs.herePath dir).parts ++ inner →
      relative? fs.herePath target dir = some (Path.mk false inner).text := by
  refine ⟨fun target => ?_, fun target other => absolute_eq_of_relative?_eq,
    fun target inner => relative?_inside⟩
  rcases relative?_cases fs target dir with ⟨inner, hinner, hshown⟩ | ⟨houtside, hshown⟩
  · obtain ⟨-, hup, hclean⟩ := clean_inside hinner
    refine ⟨_, hshown, fun _ => ?_, fun h => absurd ⟨inner, hinner.symm⟩ h⟩
    rw [hclean]
    exact ⟨rfl, fun hhead => hup (List.mem_of_head? hhead), join_inside hinner⟩
  · exact ⟨_, hshown, fun h => absurd h houtside, fun _ => rfl⟩

/-- Names that begin with dots lie in the directory; a directory whose name begins with that of another
does not. -/
theorem relative_leads_back_dots :
    let here := (FileSystem.empty ["w"]).herePath
    relative? here "base/.//..a/x/../...tf" "base" = some "..a/...tf" ∧
      ∃ shown, relative? here "basement/a.tf" "base" = some shown ∧ shown = "/w/basement/a.tf" := by
  obtain ⟨hall, -, hinside⟩ := relative_leads_back (.empty ["w"]) "base"
  obtain ⟨shown, hshown, hseen⟩ := hall "basement/a.tf"
  refine ⟨hinside _ ["..a", "...tf"] (by decide +kernel), shown, hshown, ?_⟩
  rw [hseen.outside (by decide +kernel)]
  decide +kernel

end InfraSmells.Path
