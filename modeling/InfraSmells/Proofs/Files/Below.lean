import InfraSmells.Proofs.Files.Clean
import InfraSmells.Proofs.Text.Bytes

/-!
# Paths below a directory

The clean form of a path below a directory hangs on the clean form of the directory only
(`Path.clean_slash`), and it is carried as long as the path is (`Path.isCarried_clean`). An entry
stands below another (`Entry.Below`) when names lead down to it; where the names of a whole tree are
carried, so are those below any entry that a path leads to (`FileSystem.isCarried_of_entry`).
-/

namespace InfraSmells

/-! ## Pieces of texts -/

namespace Text

/-- There is always a piece. -/
theorem splitChars_ne_nil (sep : Char) (cs : List Char) : splitChars sep cs ≠ [] := by
  cases cs with
  | nil => exact List.cons_ne_nil _ _
  | cons c cs =>
    unfold splitChars
    split
    · exact List.cons_ne_nil _ _
    · split
      · exact List.cons_ne_nil _ _
      · exact List.cons_ne_nil _ _

/-- The pieces around a separator are those before it and those behind it. -/
theorem splitChars_around {sep : Char} (ds : List Char) : ∀ cs : List Char,
    splitChars sep (cs ++ sep :: ds) = splitChars sep cs ++ splitChars sep ds
  | [] => splitChars_append ds List.not_mem_nil
  | c :: cs => by
    rw [List.cons_append, splitChars, splitChars_around ds cs, splitChars]
    split
    · rfl
    · cases hcs : splitChars sep cs with
      | nil => exact absurd hcs (splitChars_ne_nil sep cs)
      | cons piece pieces => rfl

/-- The components around a slash are those before it and those behind it. -/
theorem split_slash (s t : String) : split '/' (s ++ "/" ++ t) = split '/' s ++ split '/' t := by
  unfold split
  rw [String.toList_append, String.toList_append, List.append_assoc, ← List.map_append,
    ← splitChars_around]
  rfl

/-- Joining begins with the first text. -/
theorem join_cons {s : String} {rest : List String} (h : rest ≠ []) :
    join "/" (s :: rest) = s ++ "/" ++ join "/" rest := by
  cases rest with
  | nil => exact absurd rfl h
  | cons => rfl

/-- The characters of joined pieces. -/
theorem join_splitChars : ∀ cs : List Char,
    (join "/" ((splitChars '/' cs).map String.ofList)).toList = cs
  | [] => rfl
  | c :: cs => by
    have ih := join_splitChars cs
    have hne := splitChars_ne_nil '/' cs
    unfold splitChars
    split
    · next hc =>
      rw [List.map_cons, join_cons (by simpa using hne), String.toList_append, ih, hc]
      rfl
    · cases hcs : splitChars '/' cs with
      | nil => exact absurd hcs hne
      | cons piece pieces =>
        rw [hcs] at ih
        dsimp only
        cases pieces with
        | nil => simpa [join] using ih
        | cons next pieces => simpa [join] using ih

/-- A path is made of its components. -/
theorem join_split (s : String) : join "/" (split '/' s) = s := by
  rw [← String.toList_inj, split, join_splitChars]

/-- Joined texts are carried if and only if each of them is. -/
theorem isCarried_join : ∀ {parts : List String},
    IsCarried (join "/" parts) ↔ ∀ part ∈ parts, IsCarried part
  | [] => by simp [join, IsCarried, toBytes, ofBytes, carriersFrom]
  | [part] => by simp [join]
  | part :: next :: rest => by
    rw [join_cons (List.cons_ne_nil _ _), isCarried_slash, isCarried_join, List.forall_mem_cons]
    simp

end Text

/-! ## Clean forms -/

namespace Path

/-- A path below a directory begins with the components of the directory. -/
theorem ofText_slash {dir : String} (h : dir ≠ "") (rest : String) :
    ofText (dir ++ "/" ++ rest) =
      ⟨(ofText dir).rooted, ((Text.split '/' rest).foldl (push (ofText dir).rooted)
        (ofText dir).parts.reverse).reverse⟩ := by
  have hrooted : Text.startsWith (dir ++ "/" ++ rest) "/" = Text.startsWith dir "/" := by
    unfold Text.startsWith
    rw [String.toList_append, String.toList_append, List.append_assoc]
    cases hdir : dir.toList with
    | nil => exact absurd (String.toList_eq_nil_iff.1 hdir) h
    | cons c cs =>
      simp [Text.beginsWith, Text.afterStart, apply_ite Option.isSome]
  unfold ofText
  rw [hrooted, Text.split_slash]
  dsimp only
  rw [List.foldl_append, List.reverse_reverse]

/-- No clean form is empty. -/
theorem clean_ne_empty (s : String) : clean s ≠ "" := by
  intro hempty
  have hofText : ofText s = ⟨false, []⟩ := by
    rw [← ofText_clean s, hempty]
    decide +kernel
  rw [clean, hofText] at hempty
  exact absurd hempty (by decide)

/-- The clean form of a path below a directory hangs on the clean form of the directory. -/
theorem clean_slash {dir : String} (h : dir ≠ "") (rest : String) :
    clean (clean dir ++ "/" ++ rest) = clean (dir ++ "/" ++ rest) := by
  rw [clean, ofText_slash (clean_ne_empty dir), ofText_clean, ← ofText_slash h, clean]

/-- A component that is put behind others is the only one that may be new. -/
theorem mem_push {rooted : Bool} {stack : List String} {part p : String}
    (h : p ∈ push rooted stack part) : p ∈ stack ∨ p = part := by
  obtain ⟨next, hnext, hpushed⟩ := exists_pushed rooted stack part
  rw [hnext] at h
  cases hpushed with
  | same | root => exact .inl h
  | above | into | farther => exact (List.mem_cons.1 h).symm
  | back => exact .inl (.tail _ h)

/-- The components of a clean path are among those of the path. -/
theorem mem_ofText {s p : String} (h : p ∈ (ofText s).parts) : p ∈ Text.split '/' s := by
  have hfold : ∀ (parts stack : List String), p ∈ parts.foldl (push (Text.startsWith s "/")) stack →
      p ∈ stack ∨ p ∈ parts := by
    intro parts
    induction parts with
    | nil => exact fun stack hp => .inl hp
    | cons part parts ih =>
      intro stack hp
      rcases ih _ hp with hp | hp
      · refine (mem_push hp).imp_right fun hp => ?_
        rw [hp]
        exact .head _
      · exact .inr (.tail _ hp)
  exact (hfold _ [] (List.mem_reverse.1 h)).resolve_left List.not_mem_nil

/-- The clean form of a carried path is carried. -/
theorem isCarried_clean {s : String} (h : Text.IsCarried s) : Text.IsCarried (clean s) := by
  have hparts : Text.IsCarried (Text.join "/" (ofText s).parts) := by
    rw [← Text.join_split s, Text.isCarried_join] at h
    exact Text.isCarried_join.2 fun part hp => h part (mem_ofText hp)
  have hempty : Text.IsCarried "" := rfl
  unfold clean text
  split
  · have := Text.isCarried_slash.2 ⟨hempty, hparts⟩
    rwa [String.empty_append] at this
  split
  · exact (Text.isPlain_ascii (s := ".") (by decide)).ofBytes_toBytes
  · exact hparts

end Path

/-! ## Entries below an entry -/

/-- Names lead from an entry down to another. -/
inductive Entry.Below : Entry → List String → Entry → Prop
  | here {e : Entry} : Entry.Below e [] e
  | inside {e inner last : Entry} {name : String} {names : List String}
      (hmem : (name, inner) ∈ e.entries) (h : inner.Below names last) :
      Entry.Below e (name :: names) last

/-- The names of all entries below an entry are carried. -/
def Entry.IsCarried (e : Entry) : Prop :=
  ∀ names last, e.Below names last → ∀ name ∈ names, Text.IsCarried name

namespace Entry

/-- Only the names in a carried directory and below can be met there. -/
theorem IsCarried.child {e inner : Entry} {name : String} (h : e.IsCarried)
    (hchild : e.child? name = some inner) : inner.IsCarried := by
  intro names last hbelow n hn
  unfold child? at hchild
  obtain ⟨⟨key, value⟩, hfind, rfl⟩ := Option.map_eq_some_iff.1 hchild
  exact h _ _ (.inside (List.mem_of_find?_eq_some hfind) hbelow) n (.tail _ hn)

/-- There are no names below a file. -/
theorem isCarried_file (bytes : List UInt8) : (file bytes).IsCarried := by
  intro names last hbelow
  cases hbelow with
  | here => exact fun _ hn => nomatch hn
  | inside hmem => cases hmem

/-- A directory is carried if and only if its names and its entries are. -/
theorem isCarried_directory {entries : List (String × Entry)} : (directory entries).IsCarried ↔
    ∀ x ∈ entries, Text.IsCarried x.1 ∧ x.2.IsCarried := by
  constructor
  · intro h x hx
    refine ⟨h _ _ (.inside hx .here) _ (.head _), fun names last hbelow n hn => ?_⟩
    exact h _ _ (.inside hx hbelow) n (.tail _ hn)
  · intro h names last hbelow
    cases hbelow with
    | here => exact fun _ hn => nomatch hn
    | inside hmem hbelow =>
      obtain ⟨hname, hinner⟩ := h _ hmem
      exact List.forall_mem_cons.2 ⟨hname, hinner _ _ hbelow⟩

/-- Where components lead from carried directories, the entry is carried. -/
theorem isCarried_of_follow {last : Entry} : ∀ (parts : List String) {stack : List Entry},
    (∀ e ∈ stack, e.IsCarried) → follow stack parts = .ok last → last.IsCarried
  | [], [], _, h => by
    rw [follow] at h
    cases h
  | [], e :: above, hstack, h => by
    rw [follow] at h
    cases h
    exact hstack _ (.head _)
  | part :: parts, stack, hstack, h => by
    obtain ⟨next, hstep, hnext⟩ := stepped_of_follow h
    refine isCarried_of_follow parts ?_ hnext
    cases hstep with
    | same | root => exact hstack
    | above => exact fun e he => hstack e (.tail _ he)
    | into _ _ _ hchild =>
      exact List.forall_mem_cons.2 ⟨(hstack _ (.head _)).child hchild, hstack⟩

end Entry

namespace FileSystem

variable {fs : FileSystem}

/-- Where a tree is carried, so are the directories from which paths are followed. -/
theorem isCarried_of_mem_start (h : fs.root.IsCarried) {rooted : Bool} :
    ∀ e ∈ fs.start rooted, e.IsCarried := by
  unfold start
  split
  · exact List.forall_mem_singleton.2 h
  · unfold hereStack
    suffices hfold : ∀ (names : List String) (stack : List Entry), (∀ e ∈ stack, e.IsCarried) →
        ∀ e ∈ names.foldl _ stack, e.IsCarried from hfold fs.here _ (List.forall_mem_singleton.2 h)
    intro names
    induction names with
    | nil => exact fun _ hstack => hstack
    | cons name names ih =>
      refine fun stack hstack => ih _ ?_
      cases stack with
      | nil => exact hstack
      | cons e above =>
        refine List.forall_mem_cons.2 ⟨?_, hstack⟩
        cases hchild : e.child? name with
        | none => exact Entry.isCarried_directory.2 fun _ hx => nomatch hx
        | some inner => exact (hstack e (.head _)).child hchild

/-- Where a tree is carried, so is every entry that a path leads to. -/
theorem isCarried_of_entry (h : fs.root.IsCarried) {path : String} {e : Entry}
    (he : fs.entry path = .ok e) : e.IsCarried :=
  Entry.isCarried_of_follow _ (isCarried_of_mem_start h) (follow_of_entry he)

end FileSystem

end InfraSmells
