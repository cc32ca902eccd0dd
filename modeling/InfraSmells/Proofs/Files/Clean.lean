import InfraSmells.Files.System
import Mathlib.Data.List.Basic

/-!
# Clean paths and the files they lead to

Cleaning a clean path changes nothing: it has the same components as before (`Path.ofText_clean`).
Where a path leads to a file, its components lead there too once they are clean, because a `..`
behind a name goes back to the directory the name was looked up in (`Entry.reached_of_follow`). Two
paths with one clean form therefore never lead to different entries
(`FileSystem.entry_eq_of_clean_eq`).
-/

namespace InfraSmells

/-! ## Splitting what was joined -/

namespace Text

/-- A text without the separator is one piece. -/
theorem splitChars_eq_single {sep : Char} : ∀ {cs : List Char}, sep ∉ cs → splitChars sep cs = [cs]
  | [], _ => rfl
  | c :: cs, h => by
    obtain ⟨hne, hcs⟩ := List.ne_and_not_mem_of_not_mem_cons h
    rw [splitChars, if_neg hne.symm, splitChars_eq_single hcs]

/-- The first piece ends at the first separator. -/
theorem splitChars_append {sep : Char} (rest : List Char) : ∀ {cs : List Char}, sep ∉ cs →
    splitChars sep (cs ++ sep :: rest) = cs :: splitChars sep rest
  | [], _ => by rw [List.nil_append, splitChars, if_pos rfl]
  | c :: cs, h => by
    obtain ⟨hne, hcs⟩ := List.ne_and_not_mem_of_not_mem_cons h
    rw [List.cons_append, splitChars, if_neg hne.symm, splitChars_append rest hcs]

/-- The pieces of a text make up the text without its separators. -/
theorem flatten_splitChars {sep : Char} : ∀ cs : List Char,
    (splitChars sep cs).flatten = cs.filter (· != sep)
  | [] => rfl
  | c :: cs => by
    have ih : (splitChars sep cs).flatten = cs.filter (· != sep) := flatten_splitChars cs
    unfold splitChars
    split
    · next hc =>
      rw [List.filter_cons_of_neg (by simp [hc]), ← ih, List.flatten_cons, List.nil_append]
    · next hc =>
      rw [List.filter_cons_of_pos (by simp [hc]), ← ih]
      split
      · next hpieces => simp [hpieces]
      · next hpieces => simp [hpieces]

/-- No piece holds the separator. -/
theorem not_mem_splitChars {sep : Char} :
    ∀ (cs : List Char), ∀ piece ∈ splitChars sep cs, sep ∉ piece
  | [] => by simp [splitChars]
  | c :: cs => by
    have ih : ∀ piece ∈ splitChars sep cs, sep ∉ piece := not_mem_splitChars cs
    unfold splitChars
    split
    · exact List.forall_mem_cons.2 ⟨List.not_mem_nil, ih⟩
    · next hne =>
      split
      · exact List.forall_mem_cons.2 ⟨by simpa using Ne.symm hne, fun _ h => nomatch h⟩
      · next piece pieces heq =>
        obtain ⟨hpiece, hpieces⟩ := List.forall_mem_cons.1 (heq ▸ ih)
        exact List.forall_mem_cons.2
          ⟨List.not_mem_cons_of_ne_of_not_mem (Ne.symm hne) hpiece, hpieces⟩

/-- No component of a path holds a slash. -/
theorem not_mem_split {s part : String} (h : part ∈ split '/' s) : '/' ∉ part.toList := by
  obtain ⟨cs, hcs, rfl⟩ := List.mem_map.1 h
  rw [String.toList_ofList]
  exact not_mem_splitChars _ cs hcs

/-- Components joined by slashes are the components of the path. -/
theorem split_join : ∀ {parts : List String}, parts ≠ [] → (∀ part ∈ parts, '/' ∉ part.toList) →
    split '/' (join "/" parts) = parts
  | [part], _, h => by
    rw [join, split, splitChars_eq_single (h part (.head _))]
    simp
  | part :: next :: rest, _, h => by
    have ih := split_join (List.cons_ne_nil next rest) fun p hp => h p (.tail _ hp)
    rw [join, split, String.toList_append, String.toList_append, List.append_assoc]
    · show List.map _ (splitChars '/' (part.toList ++ '/' :: _)) = _
      rw [splitChars_append _ (h part (.head _)), List.map_cons, String.ofList_toList]
      exact congrArg _ ih
    · simp

end Text

/-! ## Clean components -/

namespace Path

/-- The text is the name of a component: it is not empty, not the directory itself, and whole. -/
structure IsName (part : String) : Prop where
  ne_empty : part ≠ ""
  ne_dot : part ≠ "."
  whole : '/' ∉ part.toList

/-- The components, in reverse, are those of a clean path. -/
def Stacked (rooted : Bool) : List String → Prop
  | [] => True
  | top :: rest =>
    IsName top ∧ (top = ".." → rooted = false ∧ ∀ part ∈ rest, part = "..") ∧ Stacked rooted rest

variable {rooted : Bool} {stack : List String}

/-- What one more component does to the components before it. -/
inductive Pushed (rooted : Bool) : List String → String → List String → Prop
  | same {stack : List String} {part : String} : part = "" ∨ part = "." →
      Pushed rooted stack part stack
  | root : rooted = true → Pushed rooted [] ".." []
  | above : rooted = false → Pushed rooted [] ".." [".."]
  | farther {rest : List String} : Pushed rooted (".." :: rest) ".." (".." :: ".." :: rest)
  | back {top : String} {rest : List String} : top ≠ ".." → Pushed rooted (top :: rest) ".." rest
  | into {stack : List String} {part : String} : part ≠ "" → part ≠ "." → part ≠ ".." →
      Pushed rooted stack part (part :: stack)

/-- There are no other cases. -/
theorem exists_pushed (rooted : Bool) (stack : List String) (part : String) :
    ∃ next, push rooted stack part = next ∧ Pushed rooted stack part next := by
  refine ⟨_, rfl, ?_⟩
  unfold push
  split
  · next h => exact .same (by simpa using h)
  next h =>
  obtain ⟨hempty, hdot⟩ : part ≠ "" ∧ part ≠ "." := by simpa using h
  split
  · next hup =>
    subst hup
    split
    · split
      · next hrooted => exact .root hrooted
      · next hrooted => exact .above (by simpa using hrooted)
    · split
      · next htop =>
        subst htop
        exact .farther
      · next htop => exact .back htop
  · next hup => exact .into hempty hdot hup

/-- A component behind clean ones leaves them clean. -/
theorem Stacked.push (h : Stacked rooted stack) {part : String} (hpart : '/' ∉ part.toList) :
    Stacked rooted (push rooted stack part) := by
  have hup : IsName ".." := ⟨by decide, by decide, by decide⟩
  obtain ⟨next, hnext, hpushed⟩ := exists_pushed rooted stack part
  rw [hnext]
  cases hpushed with
  | same => exact h
  | root => exact h
  | above hrooted => exact ⟨hup, fun _ => ⟨hrooted, fun _ hp => nomatch hp⟩, h⟩
  | farther =>
    obtain ⟨hrooted, hrest⟩ := h.2.1 rfl
    exact ⟨hup, fun _ => ⟨hrooted, List.forall_mem_cons.2 ⟨rfl, hrest⟩⟩, h⟩
  | back => exact h.2.2
  | into hempty hdot hname => exact ⟨⟨hempty, hdot, hpart⟩, fun hp => absurd hp hname, h⟩

/-- Clean components are put behind each other as they are. -/
theorem Stacked.foldl_reverse : ∀ {stack : List String}, Stacked rooted stack →
    stack.reverse.foldl (Path.push rooted) [] = stack
  | [], _ => rfl
  | top :: rest, h => by
    rw [List.reverse_cons, List.foldl_append, foldl_reverse h.2.2]
    show Path.push rooted rest top = top :: rest
    obtain ⟨next, hnext, hpushed⟩ := exists_pushed rooted rest top
    rw [hnext]
    cases hpushed with
    | same hsame => exact absurd hsame (not_or.2 ⟨h.1.ne_empty, h.1.ne_dot⟩)
    | root hrooted => exact absurd (h.2.1 rfl).1 (by simp [hrooted])
    | above => rfl
    | farther => rfl
    | back htop => exact absurd ((h.2.1 rfl).2 _ (.head _)) htop
    | into => rfl

/-- Every component of a clean path is a name. -/
theorem Stacked.isName : ∀ {stack : List String}, Stacked rooted stack → ∀ part ∈ stack, IsName part
  | _ :: _, h, _, .head _ => h.1
  | _ :: _, h, part, .tail _ hp => isName h.2.2 part hp

/-- The components of a path, put behind clean ones one by one, are clean. -/
theorem stacked_foldl : ∀ (parts : List String) {stack : List String}, Stacked rooted stack →
    (∀ part ∈ parts, '/' ∉ part.toList) → Stacked rooted (parts.foldl (Path.push rooted) stack)
  | [], _, h, _ => h
  | part :: parts, _, h, hparts =>
    stacked_foldl parts (h.push (hparts part (.head _))) fun p hp => hparts p (.tail _ hp)

/-- A path read from a text has clean components. -/
theorem stacked_ofText (s : String) : Stacked (ofText s).rooted (ofText s).parts.reverse := by
  rw [ofText, List.reverse_reverse]
  exact stacked_foldl _ trivial fun _ => Text.not_mem_split

/-- A text that begins with a name does not begin with a slash. -/
theorem IsName.startsWith_join {first : String} (h : IsName first) (rest : List String) :
    Text.startsWith (Text.join "/" (first :: rest)) "/" = false := by
  obtain ⟨tail, htail⟩ : ∃ tail, (Text.join "/" (first :: rest)).toList = first.toList ++ tail := by
    cases rest with
    | nil => exact ⟨[], (List.append_nil _).symm⟩
    | cons next rest =>
      refine ⟨"/".toList ++ (Text.join "/" (next :: rest)).toList, ?_⟩
      rw [Text.join, String.toList_append, String.toList_append, List.append_assoc]
      simp
  rw [Text.startsWith, htail]
  cases hfirst : first.toList with
  | nil => exact absurd (String.toList_eq_nil_iff.1 hfirst) h.ne_empty
  | cons c cs =>
    have hc : '/' ≠ c := fun hc => h.whole (hfirst ▸ hc ▸ .head _)
    show (if '/' = c then _ else none).isSome = false
    rw [if_neg hc]
    rfl

/-- The text of clean components is read as these components. -/
theorem ofText_text {p : Path} (h : Stacked p.rooted p.parts.reverse) : ofText p.text = p := by
  obtain ⟨rooted, parts⟩ := p
  have hnames (part : String) (hp : part ∈ parts) := h.isName part (List.mem_reverse.2 hp)
  have hfold : (parts.foldl (push rooted) []).reverse = parts := by
    have := h.foldl_reverse
    rwa [List.reverse_reverse, ← List.reverse_eq_iff] at this
  cases parts with
  | nil => cases rooted <;> decide +kernel
  | cons first rest =>
    have hsplit := Text.split_join (List.cons_ne_nil first rest) fun p hp => (hnames p hp).whole
    cases rooted with
    | true =>
      have hstart : Text.startsWith ("/" ++ Text.join "/" (first :: rest)) "/" = true := by
        rw [Text.startsWith, String.toList_append]
        rfl
      have hslash :
          Text.split '/' ("/" ++ Text.join "/" (first :: rest)) = "" :: first :: rest := by
        rw [Text.split, String.toList_append]
        exact congrArg ("" :: ·) hsplit
      simp only [text, if_true, ofText, hstart, hslash]
      exact congrArg _ hfold
    | false =>
      have hstart := (hnames first (.head _)).startsWith_join rest
      simp only [text, List.isEmpty_cons, Bool.false_eq_true, if_false, ofText, hstart, hsplit]
      exact congrArg _ hfold

/-- The clean form of a path has the components of the path. -/
theorem ofText_clean (s : String) : ofText (clean s) = ofText s :=
  ofText_text (stacked_ofText s)

end Path

/-! ## Following clean components -/

namespace Entry

/-- Where one component leads to from a directory and those above it. -/
inductive Stepped : List Entry → String → List Entry → Prop
  | same {stack : List Entry} {part : String} : part = "" ∨ part = "." → Stepped stack part stack
  | root {e : Entry} : Stepped [e] ".." [e]
  | above {e d : Entry} {rest : List Entry} : Stepped (e :: d :: rest) ".." (d :: rest)
  | into {e inner : Entry} {rest : List Entry} {part : String} :
      part ≠ "" → part ≠ "." → part ≠ ".." → e.child? part = some inner →
      Stepped (e :: rest) part (inner :: e :: rest)

/-- A component leads to one place. -/
theorem Stepped.unique {now next next' : List Entry} {part : String} (h : Stepped now part next)
    (h' : Stepped now part next') : next = next' := by
  cases h with
  | same hsame =>
    cases h' with
    | same => rfl
    | root => simp at hsame
    | above => simp at hsame
    | into hempty hdot => exact absurd hsame (not_or.2 ⟨hempty, hdot⟩)
  | root =>
    cases h' with
    | same | root => rfl
    | into _ _ hup => exact absurd rfl hup
  | above =>
    cases h' with
    | same hsame => simp at hsame
    | above => rfl
    | into _ _ hup => exact absurd rfl hup
  | into hempty hdot hup hinner =>
    cases h' with
    | same hsame => exact absurd hsame (not_or.2 ⟨hempty, hdot⟩)
    | root | above => exact absurd rfl hup
    | into _ _ _ hinner' => rw [Option.some.inj (hinner.symm.trans hinner')]

/-- Following components begins with a step. -/
theorem stepped_of_follow {stack : List Entry} {part : String} {parts : List String} {e : Entry}
    (h : follow stack (part :: parts) = .ok e) :
    ∃ next, Stepped stack part next ∧ follow next parts = .ok e := by
  cases stack with
  | nil =>
    rw [follow] at h
    cases h
  | cons d above =>
    rw [follow.eq_def] at h
    dsimp only at h
    split at h
    · cases h
    split at h
    · next hsame => exact ⟨_, .same (by simpa using hsame), h⟩
    next hsame =>
    obtain ⟨hempty, hdot⟩ : part ≠ "" ∧ part ≠ "." := by simpa using hsame
    split at h
    · next hup =>
      subst hup
      cases above with
      | nil => exact ⟨_, .root, h⟩
      | cons => exact ⟨_, .above, h⟩
    next hup =>
    split at h
    · cases h
    split at h
    · next inner hinner => exact ⟨_, .into hempty hdot hup hinner, h⟩
    · cases h

variable {rooted : Bool} {start now next : List Entry} {stack : List String} {part : String}

/-- The components, in reverse, lead from one stack of directories to another. -/
def Reached (start : List Entry) : List String → List Entry → Prop
  | [], now => now = start
  | part :: rest, now => ∃ before, Reached start rest before ∧ Stepped before part now

/-- Components lead to one place. -/
theorem Reached.unique : ∀ {stack : List String} {now now' : List Entry},
    Reached start stack now → Reached start stack now' → now = now'
  | [], _, _, h, h' => h.trans h'.symm
  | _ :: _, _, _, ⟨_, hbefore, hstep⟩, ⟨_, hbefore', hstep'⟩ =>
    hstep.unique (Reached.unique hbefore hbefore' ▸ hstep')

/-- One more component leads to the same place with the clean components before it as with those
that are clean when it is put behind them. A path from the root starts where nothing is above. -/
theorem Reached.push (hroot : rooted = true → ∃ e, start = [e])
    (hstack : Path.Stacked rooted stack) (hnow : Reached start stack now)
    (hstep : Stepped now part next) : Reached start (Path.push rooted stack part) next := by
  obtain ⟨clean, hclean, hpushed⟩ := Path.exists_pushed rooted stack part
  rw [hclean]
  cases hpushed with
  | same hsame =>
    rwa [hstep.unique (.same hsame)]
  | root hrooted =>
    obtain ⟨e, rfl⟩ := hroot hrooted
    cases hnow
    exact hstep.unique .root
  | above => exact ⟨now, hnow, hstep⟩
  | farther => exact ⟨now, hnow, hstep⟩
  | into => exact ⟨now, hnow, hstep⟩
  | back htop =>
    -- The name before led from a directory into an entry, and from there it goes back.
    obtain ⟨before, hbefore, hname⟩ := hnow
    cases hname with
    | same hsame => exact absurd hsame (not_or.2 ⟨hstack.1.ne_empty, hstack.1.ne_dot⟩)
    | root | above => exact absurd rfl htop
    | into => rwa [hstep.unique .above]

/-- Where a path leads to, its clean components lead. -/
theorem reached_of_follow {e : Entry} (hroot : rooted = true → ∃ d, start = [d]) :
    ∀ (parts : List String) {stack : List String} {now : List Entry}, Path.Stacked rooted stack →
      (∀ part ∈ parts, '/' ∉ part.toList) → Reached start stack now → follow now parts = .ok e →
      ∃ last, Reached start (parts.foldl (Path.push rooted) stack) last ∧ last.head? = some e
  | [], _, [], _, _, _, h => by rw [follow] at h; cases h
  | [], _, d :: above, _, _, hnow, h => by
    rw [follow] at h
    exact ⟨_, hnow, congrArg some (Except.ok.inj h)⟩
  | part :: parts, stack, now, hstack, hwhole, hnow, h => by
    obtain ⟨next, hstep, hnext⟩ := stepped_of_follow h
    exact reached_of_follow hroot parts (hstack.push (hwhole part (.head _)))
      (fun p hp => hwhole p (.tail _ hp)) (hnow.push hroot hstack hstep) hnext

end Entry

namespace FileSystem

variable {fs : FileSystem}

/-- The directories from which a path is followed. -/
def start (fs : FileSystem) (rooted : Bool) : List Entry :=
  if rooted then [fs.root] else fs.hereStack

/-- The components of a path lead from its start to its entry. -/
theorem follow_of_entry {path : String} {e : Entry} (h : fs.entry path = .ok e) :
    Entry.follow (fs.start (Path.ofText path).rooted) (Text.split '/' path) = .ok e := by
  unfold entry at h
  split at h
  · cases h
  split at h
  · cases h
  split at h
  · cases h
  exact h

/-- The entry of a path stands where the clean components of the path lead. -/
theorem reached_of_entry {path : String} {e : Entry} (h : fs.entry path = .ok e) :
    ∃ last, Entry.Reached (fs.start (Path.ofText path).rooted)
        (Path.ofText path).parts.reverse last ∧
      last.head? = some e := by
  have hfollow := follow_of_entry h
  rw [Path.ofText] at hfollow ⊢
  rw [List.reverse_reverse]
  exact Entry.reached_of_follow (fun hrooted => ⟨fs.root, if_pos hrooted⟩) _ trivial
    (fun _ => Text.not_mem_split) rfl hfollow

/-- Paths of one clean form do not lead to different entries. -/
theorem entry_eq_of_clean_eq {p q : String} (hclean : Path.clean p = Path.clean q)
    {d e : Entry} (hd : fs.entry p = .ok d) (he : fs.entry q = .ok e) : d = e := by
  have hpath : Path.ofText p = Path.ofText q := by
    rw [← Path.ofText_clean p, hclean, Path.ofText_clean]
  obtain ⟨last, hlast, hhead⟩ := reached_of_entry hd
  obtain ⟨last', hlast', hhead'⟩ := reached_of_entry he
  rw [hpath] at hlast
  rw [hlast.unique hlast', hhead'] at hhead
  cases hhead
  rfl

/-- A file that is read is the entry of its path. -/
theorem entry_of_read {path : String} {bytes : List UInt8} (h : fs.read path = .ok bytes) :
    fs.entry path = .ok (.file bytes) := by
  unfold read at h
  split at h
  · next heq =>
    cases h
    exact heq
  · cases h
  · cases h

/-- Paths of one clean form do not lead to different files. -/
theorem read_eq_of_clean_eq {p q : String} (hclean : Path.clean p = Path.clean q)
    {x y : List UInt8} (hx : fs.read p = .ok x) (hy : fs.read q = .ok y) : x = y := by
  cases entry_eq_of_clean_eq hclean (entry_of_read hx) (entry_of_read hy)
  rfl

end FileSystem

end InfraSmells
