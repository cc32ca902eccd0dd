import InfraSmells.Input.Basic
import InfraSmells.Proofs.Document.Record

/-!
# What is read for a path

For a file the file itself is read, and for a directory taken as a module the files in it that the
input accepts, and those in the directories inside that are not hidden (`Input.Reads`). There is a tree
only if all of them can be used, and if there is none because of a document, then that document was
read (`Input.decode_of_parsePath`, `Input.parsePath_document`).
-/

namespace InfraSmells

/-! ## Computations that several readings decide -/

/-- The computation succeeds only if every one of the readings does, and fails as one of them does. -/
structure DecidedBy {ε α β : Type} (readings : String → List UInt8 → Prop)
    (use : String → List UInt8 → Except ε β) (x : Except ε α) : Prop where
  ok : ∀ a, x = .ok a → ∀ p bytes, readings p bytes → ∃ b, use p bytes = .ok b
  error : ∀ e, x = .error e → ∃ p bytes, readings p bytes ∧ use p bytes = .error e

namespace DecidedBy

variable {ε α β γ : Type} {readings more : String → List UInt8 → Prop}
  {use : String → List UInt8 → Except ε β} {x : Except ε α}

/-- Without readings there is a result. -/
theorem pure (a : α) (hnone : ∀ p bytes, ¬readings p bytes) :
    DecidedBy readings use (.ok a : Except ε α) where
  ok _ _ p bytes hp := absurd hp (hnone p bytes)
  error _ h := nomatch h

/-- What is made of the only reading hangs on it. -/
theorem single {path : String} {bytes : List UInt8} (f : β → α)
    (honly : ∀ p bytes', readings p bytes' ↔ p = path ∧ bytes' = bytes) :
    DecidedBy readings use ((use path bytes).map f) := by
  cases huse : use path bytes with
  | ok b =>
    refine ⟨fun _ _ p bytes' hp => ?_, fun _ he => nomatch he⟩
    obtain ⟨rfl, rfl⟩ := (honly p bytes').1 hp
    exact ⟨b, huse⟩
  | error e =>
    refine ⟨fun _ hok => (nomatch hok), fun e' he => ?_⟩
    cases he
    exact ⟨path, bytes, (honly path bytes).2 ⟨rfl, rfl⟩, huse⟩

/-- What is made of a result hangs on the same readings. -/
theorem map (h : DecidedBy readings use x) (f : α → γ) : DecidedBy readings use (x.map f) := by
  cases x with
  | error e =>
    refine ⟨fun _ hok => (nomatch hok), fun e' he => ?_⟩
    cases he
    exact h.error e rfl
  | ok a => exact ⟨fun _ _ => h.ok a rfl, fun _ he => nomatch he⟩

/-- One step after the other hangs on the readings of both. -/
theorem bind {f : α → Except ε γ} (hx : DecidedBy readings use x)
    (hf : ∀ a, DecidedBy more use (f a)) :
    DecidedBy (fun p bytes => readings p bytes ∨ more p bytes) use (x >>= f) := by
  cases x with
  | error e =>
    refine ⟨fun _ hok => (nomatch hok), fun e' he => ?_⟩
    cases he
    obtain ⟨p, bytes, hp, huse⟩ := hx.error e rfl
    exact ⟨p, bytes, .inl hp, huse⟩
  | ok a =>
    refine ⟨fun c hc p bytes hp => ?_, fun e he => ?_⟩
    · exact hp.elim (hx.ok a rfl p bytes) ((hf a).ok c hc p bytes)
    · obtain ⟨p, bytes, hp, huse⟩ := (hf a).error e he
      exact ⟨p, bytes, .inr hp, huse⟩

/-- Only what the readings are matters. -/
theorem congr (h : DecidedBy readings use x) (heq : ∀ p bytes, more p bytes ↔ readings p bytes) :
    DecidedBy more use x where
  ok a hok p bytes hp := h.ok a hok p bytes ((heq p bytes).1 hp)
  error e he := by
    obtain ⟨p, bytes, hp, huse⟩ := h.error e he
    exact ⟨p, bytes, (heq p bytes).2 hp, huse⟩

end DecidedBy

namespace Input

variable {fs : FileSystem} {input : Input} {type : BlockType} {path p : String} {bytes : List UInt8}

/-! ## Directories -/

/-- The file is read for a directory with these entries. -/
inductive ReadsBelow (input : Input) :
    String → List (String × Entry) → String → List UInt8 → Prop
  | file {dir name : String} {entries : List (String × Entry)} {bytes : List UInt8}
      (hmem : (name, .file bytes) ∈ entries) (haccepts : input.accepts (Path.join dir name) = true) :
      ReadsBelow input dir entries (Path.join dir name) bytes
  | inside {dir name p : String} {entries inner : List (String × Entry)} {bytes : List UInt8}
      (hmem : (name, .directory inner) ∈ entries) (hshown : Text.startsWith name "." = false)
      (h : ReadsBelow input (Path.join dir name) inner p bytes) :
      ReadsBelow input dir entries p bytes

/-- What is read for a directory is read if it has more entries. -/
theorem ReadsBelow.mono {dir : String} {entries more : List (String × Entry)}
    (h : ReadsBelow input dir entries p bytes) (hsub : entries ⊆ more) :
    ReadsBelow input dir more p bytes := by
  cases h with
  | file hmem haccepts => exact .file (hsub hmem) haccepts
  | inside hmem hshown h => exact .inside (hsub hmem) hshown h

/-- What is read for a directory is read for its first entry or for the others. -/
theorem readsBelow_cons {dir : String} {x : String × Entry} {entries : List (String × Entry)} :
    ReadsBelow input dir (x :: entries) p bytes ↔
      ReadsBelow input dir [x] p bytes ∨ ReadsBelow input dir entries p bytes := by
  constructor
  · intro h
    cases h with
    | file hmem haccepts =>
      exact (List.mem_cons.1 hmem).imp (fun h => .file (List.mem_singleton.2 h) haccepts)
        fun h => .file h haccepts
    | inside hmem hshown h =>
      exact (List.mem_cons.1 hmem).imp (fun hx => .inside (List.mem_singleton.2 hx) hshown h)
        fun hx => .inside hx hshown h
  · rintro (h | h)
    · exact h.mono (List.cons_subset_cons x (List.nil_subset entries))
    · exact h.mono (List.subset_cons_self x entries)

/-- A file is read for its directory if the input accepts it. -/
theorem readsBelow_file {dir name : String} {bytes' : List UInt8} :
    ReadsBelow input dir [(name, .file bytes)] p bytes' ↔
      input.accepts (Path.join dir name) = true ∧ p = Path.join dir name ∧ bytes' = bytes := by
  constructor
  · intro h
    cases h with
    | file hmem haccepts =>
      cases List.mem_singleton.1 hmem
      exact ⟨haccepts, rfl, rfl⟩
    | inside hmem => cases List.mem_singleton.1 hmem
  · rintro ⟨haccepts, rfl, rfl⟩
    exact .file (.head _) haccepts

/-- For a directory in another, what is in it is read unless it is hidden. -/
theorem readsBelow_directory {dir name : String} {inner : List (String × Entry)} :
    ReadsBelow input dir [(name, .directory inner)] p bytes ↔
      Text.startsWith name "." = false ∧ ReadsBelow input (Path.join dir name) inner p bytes := by
  constructor
  · intro h
    cases h with
    | file hmem => cases List.mem_singleton.1 hmem
    | inside hmem hshown h =>
      cases List.mem_singleton.1 hmem
      exact ⟨hshown, h⟩
  · rintro ⟨hshown, h⟩
    exact .inside (.head _) hshown h

/-- What a file becomes as a member of a module. -/
def asMember (input : Input) (type : BlockType) (path : String) (bytes : List UInt8) :
    Except ParseError Member := do
  memberOf path (← input.parse path (input.memberType type) bytes)

mutual

/-- The members an entry gives are decided by what is read for it. -/
theorem decidedBy_entryMembers {dir name : String} : ∀ e : Entry,
    DecidedBy (ReadsBelow input dir [(name, e)]) (input.asMember type)
      (entryMembers input type (Path.join dir name) (Text.startsWith name ".") e)
  | .file bytes => by
    have hmember : entryMembers input type (Path.join dir name) (Text.startsWith name ".")
        (.file bytes) = if input.accepts (Path.join dir name) then
          (input.asMember type (Path.join dir name) bytes).map ([·]) else .ok [] := by
      rw [entryMembers, asMember]
      cases input.accepts (Path.join dir name) with
      | false => rfl
      | true => cases input.parse (Path.join dir name) (input.memberType type) bytes <;> rfl
    rw [hmember]
    split
    · next haccepts =>
      exact .single _ fun p bytes' => readsBelow_file.trans (and_iff_right haccepts)
    · next hrefused => exact .pure _ fun p bytes' h => hrefused (readsBelow_file.1 h).1
  | .directory entries => by
    rw [entryMembers]
    split
    · next hhidden =>
      refine .pure _ fun p bytes h => ?_
      rw [(readsBelow_directory.1 h).1] at hhidden
      cases hhidden
    · next hshown =>
      exact ((decidedBy_members entries).map _).congr fun p bytes =>
        readsBelow_directory.trans (and_iff_right (eq_false_of_ne_true hshown))

/-- The members of a directory are decided by what is read for it. -/
theorem decidedBy_members {dir : String} : ∀ entries : List (String × Entry),
    DecidedBy (ReadsBelow input dir entries) (input.asMember type) (members input type dir entries)
  | [] => by
    rw [members]
    refine .pure _ fun p bytes h => ?_
    cases h with
    | file hmem => cases hmem
    | inside hmem => cases hmem
  | (name, e) :: entries => by
    rw [members]
    exact ((decidedBy_entryMembers e).bind fun first => (decidedBy_members entries).map _).congr
      fun p bytes => readsBelow_cons

end

/-! ## Files and directories -/

/-- The file is read for a path, which may be taken as a module. -/
inductive Reads (fs : FileSystem) (input : Input) (path : String) :
    Bool → String → List UInt8 → Prop
  | file {bytes : List UInt8} (h : fs.read path = .ok bytes) : Reads fs input path false path bytes
  | below {entries : List (String × Entry)} {p : String} {bytes : List UInt8}
      (hlist : fs.list path = .ok entries) (h : ReadsBelow input path entries p bytes) :
      Reads fs input path true p bytes

/-- What becomes of a directory is decided by what is read for it. -/
theorem decidedBy_parseDirectory {dir : String} {entries : List (String × Entry)}
    (h : fs.list dir = .ok entries) :
    DecidedBy (ReadsBelow input dir entries) (input.asMember type)
      (parseDirectory fs input dir type) := by
  have hmodule : parseDirectory fs input dir type = (members input type dir entries).map fun ms =>
      if input = .documents && ms.isEmpty then none else some (.module (moduleOf dir ms)) := by
    have hok : (fs.list dir).mapError ParseError.file = .ok entries := by rw [h]; rfl
    unfold parseDirectory
    rw [hok]
    simp only [bind, Except.bind]
    cases members input type dir entries with
    | error e => rfl
    | ok ms =>
      dsimp only [Except.map]
      split <;> rfl
  rw [hmodule]
  exact (decidedBy_members entries).map _

/-- A document that can be used has a tree. -/
theorem decode_of_parseDocument {e : Element} (h : parseDocument path type bytes = .ok e) :
    ∃ e', Document.decode (.ofPath path) bytes = .ok e' := by
  unfold parseDocument at h
  cases hdecode : Document.decode (.ofPath path) bytes with
  | ok e' => exact ⟨e', rfl⟩
  | error de =>
    rw [hdecode] at h
    cases h

/-- A document that is the reason for a failure has no tree. -/
theorem parseDocument_document {de : DocumentError}
    (h : parseDocument path type bytes = .error (.document p de)) :
    p = path ∧ Document.decode (.ofPath path) bytes = .error de := by
  unfold parseDocument at h
  split at h
  · next hdecode =>
    cases h
    exact ⟨rfl, hdecode⟩
  all_goals cases h

/-- A document that can be used as a member has a tree. -/
theorem decode_of_asMember {m : Member} (h : documents.asMember type path bytes = .ok m) :
    ∃ e, Document.decode (.ofPath path) bytes = .ok e := by
  unfold asMember parse memberType at h
  dsimp only at h
  cases hparse : parseDocument path type bytes with
  | ok e => exact decode_of_parseDocument hparse
  | error e =>
    rw [hparse] at h
    cases h

/-- A document that is the reason for a member to fail has no tree. -/
theorem asMember_document {de : DocumentError}
    (h : documents.asMember type path bytes = .error (.document p de)) :
    p = path ∧ Document.decode (.ofPath path) bytes = .error de := by
  unfold asMember parse memberType at h
  dsimp only at h
  cases hparse : parseDocument path type bytes with
  | error e =>
    rw [hparse] at h
    cases h
    exact parseDocument_document hparse
  | ok e =>
    rw [hparse] at h
    cases e <;> cases h

/-- If there is a tree for a path, then every document that is read for it has one. -/
theorem decode_of_parsePath {asModule : Bool} {root : Option Element}
    (h : parsePath fs .documents path type asModule = .ok root)
    (hreads : Reads fs .documents path asModule p bytes) :
    ∃ e, Document.decode (.ofPath p) bytes = .ok e := by
  cases hreads with
  | file hread =>
    rw [parsePath, if_neg Bool.false_ne_true, parseFile, hread] at h
    cases hparse : parseDocument path type bytes with
    | ok e => exact decode_of_parseDocument hparse
    | error e =>
      simp only [parse, hparse] at h
      cases h
  | below hlist hbelow =>
    rw [parsePath, if_pos rfl] at h
    obtain ⟨m, hm⟩ := (decidedBy_parseDirectory hlist).ok root h p bytes hbelow
    exact decode_of_asMember hm

/-- A file whose document has no tree has none for that reason. -/
theorem parsePath_of_decode {de : DocumentError} (hread : fs.read path = .ok bytes)
    (hdecode : Document.decode (.ofPath path) bytes = .error de) :
    parsePath fs .documents path type false = .error (.document path de) := by
  have hparse : parseDocument path type bytes = .error (.document path de) := by
    unfold parseDocument
    rw [hdecode]
  rw [parsePath, if_neg Bool.false_ne_true, parseFile, hread]
  simp only [parse, hparse]
  rfl

/-- If a document is the reason that there is no tree, then it was read, and it has none. -/
theorem parsePath_document {asModule : Bool} {de : DocumentError}
    (h : parsePath fs .documents path type asModule = .error (.document p de)) :
    ∃ bytes, Reads fs .documents path asModule p bytes ∧
      Document.decode (.ofPath p) bytes = .error de := by
  cases asModule with
  | false =>
    rw [parsePath, if_neg Bool.false_ne_true, parseFile] at h
    cases hread : fs.read path with
    | error e =>
      rw [hread] at h
      cases h
    | ok bytes =>
      rw [hread] at h
      cases hparse : parseDocument path type bytes with
      | ok e =>
        simp only [parse, hparse] at h
        cases h
      | error e =>
        simp only [parse, hparse] at h
        cases h
        obtain ⟨rfl, hdecode⟩ := parseDocument_document hparse
        exact ⟨bytes, .file hread, hdecode⟩
  | true =>
    rw [parsePath, if_pos rfl] at h
    cases hlist : fs.list path with
    | error e =>
      rw [parseDirectory, hlist] at h
      cases h
    | ok entries =>
      obtain ⟨q, bytes, hbelow, hmember⟩ := (decidedBy_parseDirectory hlist).error _ h
      obtain ⟨rfl, hdecode⟩ := asMember_document hmember
      exact ⟨bytes, .below hlist hbelow, hdecode⟩

end Input

end InfraSmells
