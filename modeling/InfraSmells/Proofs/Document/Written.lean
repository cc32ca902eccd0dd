import InfraSmells.Document.Written
import InfraSmells.Proofs.Document.Record

/-!
# Reading written records

`Record.readLink_toDatum`: a record that fits is read back from the table that was written for it,
in both encodings, but for its values: one that counts as empty is left out, and another may come
back with its number in another form. The members are read one after the other; `Record.only` is
the record as it is when some of its members have been read.
-/

namespace InfraSmells.Record

/-! ## Changed values -/

section
variable (g : Datum → Datum)

mutual

/-- The record with its values and those of all its parts changed. -/
def mapValue : Record → Record
  | .mk
      kind line column endLine endColumn code name path type value expr nameExpr content
      names hasVariable isDefault items entries args receiver method operand left right
      condition otherwise pairs resources vars attributes dependencies statements
      comments unitBlocks modules blocks =>
    .mk
      kind line column endLine endColumn code name path type (g value) (mapLink expr)
      (mapLink nameExpr) content names hasVariable isDefault (mapList items) (mapEntries entries)
      (mapList args) (mapLink receiver) method (mapLink operand) (mapLink left) (mapLink right)
      (mapLink condition) (mapLink otherwise) (mapList pairs) (mapList resources) (mapList vars)
      (mapList attributes) (mapList dependencies) (mapList statements) (mapList comments)
      (mapList unitBlocks) (mapList modules) (mapList blocks)

/-- `mapValue` of a record that may be missing. -/
def mapLink : Option Record → Option Record
  | none => none
  | some r => some (mapValue r)

/-- `mapValue` of the records of a list. -/
def mapList : List (Option Record) → List (Option Record)
  | [] => []
  | none :: rs => none :: mapList rs
  | some r :: rs => some (mapValue r) :: mapList rs

/-- `mapValue` of the keys and values of entries. -/
def mapEntries : List (Option Record × Option Record) → List (Option Record × Option Record)
  | [] => []
  | (k, v) :: es => (mapLink k, mapLink v) :: mapEntries es

end

/-- A list of records is changed record by record. -/
theorem mapList_cons (x : Option Record) (xs : List (Option Record)) :
    mapList g (x :: xs) = mapLink g x :: mapList g xs := by
  cases x <;> rfl

/-- The record in a member is changed with the record around it. -/
theorem link_mapValue (r : Record) (f : LinkField) :
    (r.mapValue g).link f = mapLink g (r.link f) := by
  cases r
  cases f <;> simp only [mapValue, link]

/-- The records in a member are changed with the record around them. -/
theorem list_mapValue (r : Record) (f : ListField) :
    (r.mapValue g).list f = mapList g (r.list f) := by
  cases r
  cases f <;> simp only [mapValue, list]

/-- The entries are changed with the record around them. -/
theorem entries_mapValue (r : Record) : (r.mapValue g).entries = mapEntries g r.entries := by
  cases r
  simp only [mapValue]

end

/-! ## The members one by one -/

/-- The record with one member taken from another. -/
def take (r t : Record) : Field → Record
  | .scalar .kind => { r with kind := t.kind }
  | .scalar .line => { r with line := t.line }
  | .scalar .column => { r with column := t.column }
  | .scalar .endLine => { r with endLine := t.endLine }
  | .scalar .endColumn => { r with endColumn := t.endColumn }
  | .scalar .code => { r with code := t.code }
  | .scalar .name => { r with name := t.name }
  | .scalar .path => { r with path := t.path }
  | .scalar .type => { r with type := t.type }
  | .scalar .value => { r with value := t.value }
  | .scalar .content => { r with content := t.content }
  | .scalar .names => { r with names := t.names }
  | .scalar .hasVariable => { r with hasVariable := t.hasVariable }
  | .scalar .isDefault => { r with isDefault := t.isDefault }
  | .scalar .method => { r with method := t.method }
  | .link f => r.setLink (t.link f) f
  | .list f => r.setList (t.list f) f
  | .entries => { r with entries := t.entries }

/-- The record with the members in `p` only. -/
def only (r : Record) (p : Field → Bool) : Record where
  kind := if p (.scalar .kind) then r.kind else ""
  line := if p (.scalar .line) then r.line else 0
  column := if p (.scalar .column) then r.column else 0
  endLine := if p (.scalar .endLine) then r.endLine else 0
  endColumn := if p (.scalar .endColumn) then r.endColumn else 0
  code := if p (.scalar .code) then r.code else ""
  name := if p (.scalar .name) then r.name else ""
  path := if p (.scalar .path) then r.path else ""
  type := if p (.scalar .type) then r.type else ""
  value := if p (.scalar .value) then r.value else .null
  expr := if p (.link .expr) then r.expr else none
  nameExpr := if p (.link .nameExpr) then r.nameExpr else none
  content := if p (.scalar .content) then r.content else ""
  names := if p (.scalar .names) then r.names else []
  hasVariable := if p (.scalar .hasVariable) then r.hasVariable else false
  isDefault := if p (.scalar .isDefault) then r.isDefault else false
  items := if p (.list .items) then r.items else []
  entries := if p .entries then r.entries else []
  args := if p (.list .args) then r.args else []
  receiver := if p (.link .receiver) then r.receiver else none
  method := if p (.scalar .method) then r.method else ""
  operand := if p (.link .operand) then r.operand else none
  left := if p (.link .left) then r.left else none
  right := if p (.link .right) then r.right else none
  condition := if p (.link .condition) then r.condition else none
  otherwise := if p (.link .otherwise) then r.otherwise else none
  pairs := if p (.list .pairs) then r.pairs else []
  resources := if p (.list .resources) then r.resources else []
  vars := if p (.list .vars) then r.vars else []
  attributes := if p (.list .attributes) then r.attributes else []
  dependencies := if p (.list .dependencies) then r.dependencies else []
  statements := if p (.list .statements) then r.statements else []
  comments := if p (.list .comments) then r.comments else []
  unitBlocks := if p (.list .unitBlocks) then r.unitBlocks else []
  modules := if p (.list .modules) then r.modules else []
  blocks := if p (.list .blocks) then r.blocks else []

/-- A record with all its members is the record. -/
theorem only_all (t : Record) : t.only (fun _ => true) = t := by
  cases t
  rfl

/-- Taking one more member of a record. -/
theorem take_only (t : Record) (p : Field → Bool) (f : Field) :
    (t.only p).take t f = t.only fun g => g == f || p g := by
  rcases f with f | f | f | _
  · cases f <;> rfl
  · cases f <;> rfl
  · cases f <;> rfl
  · rfl

/-- Taking an empty member is leaving it out. -/
theorem take_empty (t : Record) (p : Field → Bool) (f : Field) :
    (t.only p).take {} f = t.only fun g => g != f && p g := by
  rcases f with f | f | f | _
  · cases f <;> rfl
  · cases f <;> rfl
  · cases f <;> rfl
  · rfl

/-! ## What is written of each member -/

/-- What is written of a list, unless it is empty. -/
def listDatum? (ds : List Datum) : Option Datum :=
  if ds.isEmpty then none else some (.list ds)

/-- What is written of a text, unless it is empty. -/
def textDatum? (s : String) : Option Datum :=
  if s = "" then none else some (.text s)

/-- What is written of an integer, unless it is zero. -/
def intDatum? (n : Int) : Option Datum :=
  if n = 0 then none else some (.number (.integer n))

/-- What is written of a truth value, unless it is false. -/
def flagDatum? (b : Bool) : Option Datum :=
  if b then some (.flag true) else none

/-- Does a value count as empty? -/
def isOmitted : Encoding → Datum → Bool
  | .json, .null => true
  | .json, _ => false
  | .pack, d => d.isEmptyValue

/-- What is written of a value, unless it counts as empty. -/
def valueDatum? (enc : Encoding) (d : Datum) : Option Datum :=
  if isOmitted enc d then none else some d

/-- A list that is written is written as its items. -/
theorem eq_of_listDatum? {ds : List Datum} {d : Datum} (h : listDatum? ds = some d) : d = .list ds := by
  unfold listDatum? at h
  split at h
  · cases h
  · exact (Option.some.inj h).symm

/-- A text that is written is written as it is. -/
theorem eq_of_textDatum? {s : String} {d : Datum} (h : textDatum? s = some d) : d = .text s := by
  unfold textDatum? at h
  split at h
  · cases h
  · exact (Option.some.inj h).symm

/-- An integer that is written is written as it is. -/
theorem eq_of_intDatum? {n : Int} {d : Datum} (h : intDatum? n = some d) :
    d = .number (.integer n) := by
  unfold intDatum? at h
  split at h
  · cases h
  · exact (Option.some.inj h).symm

/-- A truth value that is written is true. -/
theorem eq_of_flagDatum? {b : Bool} {d : Datum} (h : flagDatum? b = some d) :
    b = true ∧ d = .flag true := by
  cases b <;> cases h
  exact ⟨rfl, rfl⟩

/-- A value that is written does not count as empty, and is written as it is. -/
theorem eq_of_valueDatum? {enc : Encoding} {value d : Datum} (h : valueDatum? enc value = some d) :
    isOmitted enc value = false ∧ d = value := by
  unfold valueDatum? at h
  split at h
  · cases h
  · next homit => exact ⟨eq_false_of_ne_true homit, (Option.some.inj h).symm⟩

/-- What is written of a member, if it is not left out. -/
def fieldDatum? (enc : Encoding) (r : Record) : Field → Option Datum
  | .scalar .kind => some (.text r.kind)
  | .scalar .line => intDatum? r.line
  | .scalar .column => intDatum? r.column
  | .scalar .endLine => intDatum? r.endLine
  | .scalar .endColumn => intDatum? r.endColumn
  | .scalar .code => textDatum? r.code
  | .scalar .name => textDatum? r.name
  | .scalar .path => textDatum? r.path
  | .scalar .type => textDatum? r.type
  | .scalar .value => valueDatum? enc r.value
  | .scalar .content => textDatum? r.content
  | .scalar .names => listDatum? (r.names.map .text)
  | .scalar .hasVariable => flagDatum? r.hasVariable
  | .scalar .isDefault => flagDatum? r.isDefault
  | .scalar .method => textDatum? r.method
  | .link f => linkDatum enc (r.link f)
  | .list f => listDatum? (listData enc (r.list f))
  | .entries => listDatum? (entryData enc r.entries)

/-- The members that are written of some fields. -/
def writtenMembers (enc : Encoding) (r : Record) (fields : List (String × Field)) :
    List (String × Datum) :=
  fields.flatMap fun p => (fieldDatum? enc r p.2).toList.map (p.1, ·)

/-- The table of a record holds its members in the order of all members. -/
theorem toDatum_eq (enc : Encoding) (r : Record) :
    toDatum enc r = .table (writtenMembers enc r Field.table) := by
  have hint (name : String) (n : Int) : intMember name n = (intDatum? n).toList.map (name, ·) := by
    unfold intMember intDatum?
    split <;> rfl
  have htext (name s : String) : textMember name s = (textDatum? s).toList.map (name, ·) := by
    unfold textMember textDatum?
    split <;> rfl
  have hflag (name : String) (b : Bool) :
      flagMember name b = (flagDatum? b).toList.map (name, ·) := by
    cases b <;> rfl
  have hvalue (d : Datum) : valueMember enc d = (valueDatum? enc d).toList.map ("value", ·) := by
    have h : valueMember enc d = if isOmitted enc d then [] else [("value", d)] := by
      cases enc with
      | json => cases d <;> rfl
      | pack => rfl
    rw [h, valueDatum?]
    split <;> rfl
  have hlist (name : String) (ds : List Datum) :
      listMember name ds = (listDatum? ds).toList.map (name, ·) := by
    unfold listMember listDatum?
    split <;> rfl
  cases r
  simp only [toDatum, hint, htext, hflag, hvalue, hlist, linkMember, writtenMembers, Field.table,
    List.flatMap_cons, List.flatMap_nil, List.append_nil, List.append_assoc, fieldDatum?, link,
    list]
  rfl

/-! ## Records that are written -/

/-- The values of the records that elements have. -/
inductive IsWrittenValue : Datum → Prop
  | null : IsWrittenValue .null
  | text {s : String} (h : Text.IsPlain s) : IsWrittenValue (.text s)
  | flag (b : Bool) : IsWrittenValue (.flag b)
  | number {x : Binary64} (h : x.isFinite = true) : IsWrittenValue (.number (.float x))

/-- Such a value can be written. -/
theorem IsWrittenValue.isWritten {d : Datum} (h : IsWrittenValue d) : d.IsWritten := by
  cases h with
  | null => exact trivial
  | text h => exact h
  | flag b => exact trivial
  | number h => exact h

/-- The names of the members are plain. -/
theorem isPlain_names : ∀ p ∈ Field.table, Text.IsPlain p.1 := by
  have h : Field.table.all (Text.isAscii ·.1) = true := by decide
  exact fun p hp => Text.isPlain_ascii (List.all_eq_true.mp h p hp)

section
variable {enc : Encoding}

/-- Members are written data if each of them is. -/
theorem membersWritten_writtenMembers {r : Record} {fields : List (String × Field)}
    (hname : ∀ p ∈ fields, Text.IsPlain p.1)
    (h : ∀ p ∈ fields, ∀ d, fieldDatum? enc r p.2 = some d → d.IsWritten) :
    Datum.MembersWritten (writtenMembers enc r fields) := by
  induction fields with
  | nil => exact trivial
  | cons p fields ih =>
    rw [writtenMembers, List.flatMap_cons, Datum.membersWritten_append]
    refine ⟨?_, ih (fun q hq => hname q (.tail _ hq)) fun q hq => h q (.tail _ hq)⟩
    cases hd : fieldDatum? enc r p.2 with
    | none => exact trivial
    | some d => exact ⟨hname p (.head _), h p (.head _) d hd, trivial⟩

/-- Plain texts are written data. -/
theorem itemsWritten_texts {ss : List String} (h : ∀ s ∈ ss, Text.IsPlain s) :
    Datum.ItemsWritten (ss.map .text) := by
  induction ss with
  | nil => exact trivial
  | cons s ss ih => exact ⟨h s (.head _), ih fun t ht => h t (.tail _ ht)⟩

/-- The tables of records that can be written are written data. -/
theorem itemsWritten_listData {xs : List (Option Record)}
    (h : ∀ c, some c ∈ xs → (toDatum enc c).IsWritten) : Datum.ItemsWritten (listData enc xs) := by
  induction xs with
  | nil => exact trivial
  | cons x xs ih =>
    have hxs := ih fun c hc => h c (.tail _ hc)
    cases x with
    | none => exact ⟨trivial, hxs⟩
    | some c => exact ⟨h c (.head _), hxs⟩

/-- The tables of entries that can be written are written data. -/
theorem itemsWritten_entryData {es : List (Option Record × Option Record)}
    (h : ∀ e ∈ es, ∀ c, e.1 = some c ∨ e.2 = some c → (toDatum enc c).IsWritten) :
    Datum.ItemsWritten (entryData enc es) := by
  have hlink (x : Option Record) (hx : ∀ c, x = some c → (toDatum enc c).IsWritten) :
      ((linkDatum enc x).getD .null).IsWritten := by
    cases x with
    | none => exact trivial
    | some c => exact hx c rfl
  induction es with
  | nil => exact trivial
  | cons e es ih =>
    refine ⟨⟨Text.isPlain_ascii rfl, hlink _ fun c hc => h e (.head _) c (.inl hc),
      Text.isPlain_ascii rfl, hlink _ fun c hc => h e (.head _) c (.inr hc), trivial⟩,
      ih fun e' he' => h e' (.tail _ he')⟩

/-- A member that holds no record is written data. -/
theorem isWritten_scalar {r : Record} (h : OwnFits IsWrittenValue r) {f : ScalarField} {d : Datum}
    (hd : fieldDatum? enc r (.scalar f) = some d) : d.IsWritten := by
  have hint {n : Int} (hn : fitsInt64 n = true) (hd : intDatum? n = some d) : d.IsWritten :=
    eq_of_intDatum? hd ▸ hn
  have htext {s : String} (hs : Text.IsPlain s) (hd : textDatum? s = some d) : d.IsWritten :=
    eq_of_textDatum? hd ▸ hs
  have hflag {b : Bool} (hd : flagDatum? b = some d) : d.IsWritten :=
    (eq_of_flagDatum? hd).2 ▸ trivial
  cases f
  case kind =>
    cases hd
    exact h.kind
  case line => exact hint h.line hd
  case column => exact hint h.column hd
  case endLine => exact hint h.endLine hd
  case endColumn => exact hint h.endColumn hd
  case code => exact htext h.code hd
  case name => exact htext h.name hd
  case path => exact htext h.path hd
  case type => exact htext h.type hd
  case value => exact (eq_of_valueDatum? hd).2 ▸ h.value.isWritten
  case content => exact htext h.content hd
  case names => exact eq_of_listDatum? hd ▸ itemsWritten_texts h.names
  case hasVariable => exact hflag hd
  case isDefault => exact hflag hd
  case method => exact htext h.method hd

/-- The table of a record that fits is written data. -/
theorem isWritten_toDatum {r : Record} (h : Fits IsWrittenValue r) : (toDatum enc r).IsWritten := by
  induction r using Record.induction with
  | step r ih =>
    have hparts (c : Record) (hc : IsPart c r) : (toDatum enc c).IsWritten := ih c hc (h.parts c hc)
    rw [toDatum_eq]
    refine membersWritten_writtenMembers isPlain_names fun p _ d hd => ?_
    rcases hp : p.2 with f | f | f | _ <;> rw [hp] at hd
    · exact isWritten_scalar h.own hd
    · cases hx : r.link f with
      | none =>
        simp only [fieldDatum?, hx, linkDatum] at hd
        cases hd
      | some c =>
        simp only [fieldDatum?, hx, linkDatum] at hd
        cases hd
        exact hparts c (.link f hx)
    · exact eq_of_listDatum? hd ▸ itemsWritten_listData fun c hc => hparts c (.list f hc)
    · refine eq_of_listDatum? hd ▸ itemsWritten_entryData fun e he c hc => ?_
      obtain ⟨k, v⟩ := e
      rcases hc with rfl | rfl
      · exact hparts c (.key v he)
      · exact hparts c (.value k he)

end

/-! ## Reading what was written -/

/-- The form in which numbers come back: integers with their value, floating-point numbers with
theirs. -/
structure Rereads (num : Numeral → Numeral) : Prop where
  int : ∀ n, fitsInt64 n = true → (num (.integer n)).toInt64? = some n
  float : ∀ x : Binary64, x.isFinite = true → (num (.float x)).toBinary64? = some x

/-- The value that comes back where one was written. -/
def rereadValue (enc : Encoding) (num : Numeral → Numeral) (d : Datum) : Datum :=
  if isOmitted enc d then .null else d.withNumbers num

section
variable {enc : Encoding} {num : Numeral → Numeral}

/-- The record that comes back where one was written. -/
def reread (enc : Encoding) (num : Numeral → Numeral) : Record → Record :=
  mapValue (rereadValue enc num)

/-- A value is read back. -/
theorem value_rereadValue (hnum : Rereads num) {d : Datum} (hd : IsWrittenValue d)
    (homit : isOmitted enc d = false) :
    enc.value .null (d.withNumbers num) = .ok (rereadValue enc num d) := by
  have hread : enc.value .null (d.withNumbers num) =
      if (d.withNumbers num).isRepresentable then .ok (d.withNumbers num).normalize
      else .error .refused := by
    cases enc <;> rfl
  rw [hread, rereadValue, homit]
  cases hd with
  | null => rfl
  | text h => rfl
  | flag b => rfl
  | @number x h =>
    have : ((num (.float x)).toBinary64?).isSome = true := by
      rw [hnum.float x h]
      rfl
    simp only [Datum.withNumbers, Datum.isRepresentable, this]
    rfl

/-- The names of members mean these members. -/
theorem ofName?_table (enc : Encoding) : ∀ p ∈ Field.table, Field.ofName? enc p.1 = some p.2 := by
  cases enc <;> decide

/-- Only an empty list is left out. -/
theorem listDatum?_eq_none {ds : List Datum} : listDatum? ds = none ↔ ds = [] := by
  cases ds <;> simp [listDatum?]

/-- The tables of records are as many as these. -/
theorem listData_eq_nil {xs : List (Option Record)} : listData enc xs = [] ↔ xs = [] := by
  rcases xs with _ | ⟨_ | _, _⟩ <;> simp [listData]

/-- The tables of entries are as many as these. -/
theorem entryData_eq_nil {es : List (Option Record × Option Record)} :
    entryData enc es = [] ↔ es = [] := by
  cases es <;> simp [entryData]

/-- Only a missing record is left out. -/
theorem linkDatum_eq_none {x : Option Record} : linkDatum enc x = none ↔ x = none := by
  cases x <;> simp [linkDatum]

/-- A member that is left out comes back empty. -/
theorem take_omitted {r : Record} {f : Field} (h : fieldDatum? enc r f = none) (old : Record) :
    old.take (reread enc num r) f = old.take {} f := by
  rcases f with f | f | f | _
  · cases r
    cases f <;> simp_all [fieldDatum?, take, reread, mapValue, intDatum?, textDatum?, flagDatum?,
      valueDatum?, listDatum?_eq_none, rereadValue]
  · simp only [fieldDatum?, linkDatum_eq_none] at h
    simp only [take, reread, link_mapValue, h, mapLink]
    cases f <;> rfl
  · simp only [fieldDatum?, listDatum?_eq_none, listData_eq_nil] at h
    simp only [take, reread, list_mapValue, h, mapList]
    cases f <;> rfl
  · simp only [fieldDatum?, listDatum?_eq_none, entryData_eq_nil] at h
    simp only [take, reread, entries_mapValue, h, mapEntries]

/-- The nested record is read back from its table. -/
def ReadsBack (enc : Encoding) (num : Numeral → Numeral) (c : Record) : Prop :=
  readLink enc none ((toDatum enc c).withNumbers num) = .ok (some (reread enc num c))

/-- A list of texts is read back. -/
theorem texts?_written {ss : List String} {d : Datum} (hd : listDatum? (ss.map .text) = some d) :
    enc.texts? (d.withNumbers num) = some ss := by
  have htexts (ss : List String) :
      (Datum.withNumbersItems num (ss.map .text)).mapM (enc.text? "") = some ss := by
    induction ss with
    | nil => rfl
    | cons s ss ih =>
      simp only [List.map_cons, Datum.withNumbersItems, Datum.withNumbers, List.mapM_cons, ih]
      rfl
  rw [eq_of_listDatum? hd]
  exact htexts ss

/-- A member that holds no record is read back. -/
theorem readScalar_written (hnum : Rereads num) {r : Record} (h : OwnFits IsWrittenValue r)
    {old : Record} {f : ScalarField} (hold : f = .value → old.value = .null) {d : Datum}
    (hd : fieldDatum? enc r (.scalar f) = some d) :
    readScalar enc old (d.withNumbers num) f = .ok (old.take (reread enc num r) (.scalar f)) := by
  have hint {n old' : Int} (hn : fitsInt64 n = true) (hd : intDatum? n = some d) :
      RecordFault.orRefuse (enc.int? old' (d.withNumbers num)) = .ok n :=
    eq_of_intDatum? hd ▸ orRefuse_eq_ok.2 (hnum.int n hn)
  have htext {s old' : String} (hd : textDatum? s = some d) :
      RecordFault.orRefuse (enc.text? old' (d.withNumbers num)) = .ok s := by
    rw [eq_of_textDatum? hd]
    rfl
  have hflag {b old' : Bool} (hd : flagDatum? b = some d) :
      RecordFault.orRefuse (enc.flag? old' (d.withNumbers num)) = .ok b := by
    obtain ⟨rfl, rfl⟩ := eq_of_flagDatum? hd
    rfl
  cases r
  cases f
  case kind =>
    cases hd
    rfl
  case value =>
    obtain ⟨homit, rfl⟩ := eq_of_valueDatum? hd
    simp only [readScalar, hold rfl, value_rereadValue hnum h.value homit]
    rfl
  case names =>
    simp only [readScalar, texts?_written hd]
    rfl
  case line => simp only [readScalar, hint h.line hd]; rfl
  case column => simp only [readScalar, hint h.column hd]; rfl
  case endLine => simp only [readScalar, hint h.endLine hd]; rfl
  case endColumn => simp only [readScalar, hint h.endColumn hd]; rfl
  case hasVariable | isDefault => simp only [readScalar, hflag hd]; rfl
  case code | name | path | type | content | method => simp only [readScalar, htext hd]; rfl

/-- A list of records is read back. -/
theorem readItems_listData {xs : List (Option Record)}
    (h : ∀ c, some c ∈ xs → ReadsBack enc num c) :
    readItems enc [] (Datum.withNumbersItems num (listData enc xs)) =
      .ok (mapList (rereadValue enc num) xs) := by
  induction xs with
  | nil => rfl
  | cons x xs ih =>
    have hxs := ih fun c hc => h c (.tail _ hc)
    cases x with
    | none =>
      simp only [listData, Datum.withNumbersItems, Datum.withNumbers, readItems, List.tail_nil,
        readLink, hxs, mapList]
      rfl
    | some c =>
      have hc : readLink enc none _ = _ := h c (.head _)
      simp only [listData, Datum.withNumbersItems, readItems, List.head?_nil, Option.getD_none,
        List.tail_nil, hc, hxs, mapList]
      rfl

/-- A record that may be missing is read back. -/
theorem readLink_linkDatum {x : Option Record} (h : ∀ c, x = some c → ReadsBack enc num c) :
    readLink enc none (((linkDatum enc x).getD .null).withNumbers num) =
      .ok (mapLink (rereadValue enc num) x) := by
  cases x with
  | none => simp only [linkDatum, Option.getD_none, Datum.withNumbers, readLink, mapLink]
  | some c => exact h c rfl

/-- The entries of a hash are read back. -/
theorem readEntryItems_entryData {es : List (Option Record × Option Record)}
    (h : ∀ e ∈ es, ∀ c, e.1 = some c ∨ e.2 = some c → ReadsBack enc num c) :
    readEntryItems enc [] (Datum.withNumbersItems num (entryData enc es)) =
      .ok (mapEntries (rereadValue enc num) es) := by
  have hkey : enc.entryName "key" = some true := by cases enc <;> decide
  have hvalue : enc.entryName "value" = some false := by cases enc <;> decide
  induction es with
  | nil => rfl
  | cons e es ih =>
    have hes := ih fun e' he' => h e' (.tail _ he')
    have hk := readLink_linkDatum fun c hc => h e (.head _) c (.inl hc)
    have hv := readLink_linkDatum fun c hc => h e (.head _) c (.inr hc)
    simp only [entryData, Datum.withNumbersItems, Datum.withNumbers, Datum.withNumbersMembers,
      readEntryItems, List.head?_nil, Option.getD_none, List.tail_nil, readEntry, readEntryMembers,
      hkey, hvalue, hk, hv, hes, mapEntries]
    rfl

/-- A member that is not left out is read back onto a record that does not have it yet. -/
theorem readMembers_field (hnum : Rereads num) {r : Record} (h : OwnFits IsWrittenValue r)
    (hparts : ∀ c, IsPart c r → ReadsBack enc num c) {p : Field → Bool} {f : Field}
    (hp : p f = false) {d : Datum} (hd : fieldDatum? enc r f = some d) {name : String}
    (hname : Field.ofName? enc name = some f) (ms : List (String × Datum)) :
    readMembers enc ((reread enc num r).only p) ((name, d.withNumbers num) :: ms) =
      readMembers enc (((reread enc num r).only p).take (reread enc num r) f) ms := by
  rw [readMembers, hname]
  rcases f with f | f | f | _
  · have hold : f = .value → ((reread enc num r).only p).value = .null := by
      rintro rfl
      exact if_neg (Bool.not_eq_true _ ▸ hp)
    dsimp only
    rw [readScalar_written hnum h hold hd]
    rfl
  · have hold : ((reread enc num r).only p).link f = none := by
      cases f <;> exact if_neg (Bool.not_eq_true _ ▸ hp)
    simp only [fieldDatum?] at hd
    cases hx : r.link f with
    | none =>
      rw [hx, linkDatum] at hd
      cases hd
    | some c =>
      rw [hx, linkDatum] at hd
      cases hd
      have hc : readLink enc none _ = _ := hparts c (.link f hx)
      have hnew : (reread enc num r).link f = some (reread enc num c) := by
        rw [reread, link_mapValue, hx]
        rfl
      simp only [hold, hc, take, hnew]
      rfl
  · have hold : ((reread enc num r).only p).list f = [] := by
      cases f <;> exact if_neg (Bool.not_eq_true _ ▸ hp)
    have hitems := readItems_listData fun c hc => hparts c (.list f hc)
    rw [← list_mapValue] at hitems
    rw [eq_of_listDatum? hd]
    simp only [hold, Datum.withNumbers, readList, hitems, take]
    rfl
  · have hold : ((reread enc num r).only p).entries = [] := if_neg (Bool.not_eq_true _ ▸ hp)
    have hentries : ∀ e ∈ r.entries, ∀ c, e.1 = some c ∨ e.2 = some c → ReadsBack enc num c := by
      rintro ⟨k, v⟩ he c (rfl | rfl)
      · exact hparts c (.key v he)
      · exact hparts c (.value k he)
    have hitems := readEntryItems_entryData hentries
    rw [← entries_mapValue] at hitems
    rw [eq_of_listDatum? hd]
    simp only [hold, Datum.withNumbers, readEntries, hitems, take]
    rfl

/-- Members are read back one after the other. -/
theorem readMembers_written (hnum : Rereads num) {r : Record} (h : OwnFits IsWrittenValue r)
    (hparts : ∀ c, IsPart c r → ReadsBack enc num c) {fields : List (String × Field)}
    (hnames : ∀ q ∈ fields, Field.ofName? enc q.1 = some q.2) (hnodup : (fields.map Prod.snd).Nodup)
    {p : Field → Bool} (hp : ∀ q ∈ fields, p q.2 = false) :
    readMembers enc ((reread enc num r).only p)
        (Datum.withNumbersMembers num (writtenMembers enc r fields)) =
      .ok ((reread enc num r).only fun g => (fields.map Prod.snd).contains g || p g) := by
  induction fields generalizing p with
  | nil =>
    simp only [writtenMembers, List.flatMap_nil, Datum.withNumbersMembers, readMembers]
    rfl
  | cons q fields ih =>
    rw [List.map_cons, List.nodup_cons] at hnodup
    -- The member is taken, whether it was written or comes back empty.
    have hstep : readMembers enc ((reread enc num r).only p)
          (Datum.withNumbersMembers num (writtenMembers enc r (q :: fields))) =
        readMembers enc ((reread enc num r).only fun g => g == q.2 || p g)
          (Datum.withNumbersMembers num (writtenMembers enc r fields)) := by
      rw [← take_only, writtenMembers, List.flatMap_cons, Datum.withNumbersMembers_append]
      cases hd : fieldDatum? enc r q.2 with
      | none =>
        have hsame : (fun g => g != q.2 && p g) = p := by
          funext g
          by_cases hg : g = q.2
          · rw [hg, hp q (.head _), Bool.and_false]
          · rw [bne_iff_ne.2 hg, Bool.true_and]
        rw [take_omitted hd, take_empty, hsame]
        rfl
      | some d => exact readMembers_field hnum h hparts (hp q (.head _)) hd (hnames q (.head _)) _
    rw [hstep, ih (fun q' hq' => hnames q' (.tail _ hq')) hnodup.2 fun q' hq' => ?_]
    · congr 2
      funext g
      simp only [List.map_cons, List.contains_cons, Bool.or_assoc, Bool.or_left_comm]
    · have hne : q'.2 ≠ q.2 := fun heq =>
        hnodup.1 (heq ▸ List.mem_map_of_mem hq')
      rw [beq_false_of_ne hne, hp q' (.tail _ hq')]
      rfl

/-- A record that fits is read back from its table. -/
theorem readLink_toDatum (enc : Encoding) (hnum : Rereads num) {r : Record}
    (h : Fits IsWrittenValue r) :
    readLink enc none ((toDatum enc r).withNumbers num) = .ok (some (reread enc num r)) := by
  induction r using Record.induction with
  | step r ih =>
    have hparts (c : Record) (hc : IsPart c r) : ReadsBack enc num c := ih c hc (h.parts c hc)
    have hread := readMembers_written hnum h.own hparts (ofName?_table enc) (by decide)
      (p := fun _ => false) fun _ _ => rfl
    have hall : (fun g => (Field.table.map Prod.snd).contains g || false) = fun _ => true := by
      funext g
      rcases g with f | f | f | _
      · cases f <;> rfl
      · cases f <;> rfl
      · cases f <;> rfl
      · rfl
    rw [hall] at hread
    rw [toDatum_eq, Datum.withNumbers, readLink]
    show (readMembers enc ((reread enc num r).only fun _ => false) _ >>= _) = _
    rw [hread, only_all]
    rfl

end

end InfraSmells.Record
