import InfraSmells.Document.Record
import InfraSmells.Proofs.Datum.Written
import InfraSmells.Proofs.Decimal.Integer
import InfraSmells.Proofs.Failing

/-!
# What records hold

A record is made of members of its own and of the records that stand in its other members, its
parts (`Record.IsPart`); `Record.induction` is the induction over parts. `Record.Fits` says of a
record and of all its parts that their texts are plain, their integers have 64 bits and their
values are of a given kind. The records that are read from a JSON text are such records:
`Record.fits_ofDatum`.
-/

namespace InfraSmells.Record

/-! ## Parts -/

/-- The record stands directly in a member of the other one. -/
inductive IsPart (c r : Record) : Prop
  | link (f : LinkField) (h : r.link f = some c)
  | list (f : ListField) (h : some c ∈ r.list f)
  | key (v : Option Record) (h : (some c, v) ∈ r.entries)
  | value (k : Option Record) (h : (k, some c) ∈ r.entries)

/-- What a member holds is smaller than the record. -/
theorem sizeOf_link_lt (r : Record) (f : LinkField) : sizeOf (r.link f) < sizeOf r := by
  cases r
  -- the size of a record is a sum; its last terms are dropped until the member's own is the last
  cases f <;> simp only [link, mk.sizeOf_spec] <;>
    repeat first
      | exact Nat.lt_add_of_pos_left
          (by simp only [Nat.add_pos_iff_pos_or_pos, Nat.one_pos, true_or])
      | apply Nat.lt_add_right

/-- The list in a member is smaller than the record. -/
theorem sizeOf_list_lt (r : Record) (f : ListField) : sizeOf (r.list f) < sizeOf r := by
  cases r
  cases f <;> simp only [list, mk.sizeOf_spec] <;>
    repeat first
      | exact Nat.lt_add_of_pos_left
          (by simp only [Nat.add_pos_iff_pos_or_pos, Nat.one_pos, true_or])
      | apply Nat.lt_add_right

/-- The entries of a record are smaller than the record. -/
theorem sizeOf_entries_lt (r : Record) : sizeOf r.entries < sizeOf r := by
  cases r
  simp only [mk.sizeOf_spec]
  omega

/-- A part is smaller than the record it stands in. -/
theorem IsPart.sizeOf_lt {c r : Record} (h : IsPart c r) : sizeOf c < sizeOf r := by
  cases h with
  | link f h =>
    have hf := r.sizeOf_link_lt f
    simp only [h, Option.some.sizeOf_spec] at hf
    omega
  | list f h =>
    have hf := r.sizeOf_list_lt f
    have hc := List.sizeOf_lt_of_mem h
    simp only [Option.some.sizeOf_spec] at hc
    omega
  | key v h =>
    have hr := r.sizeOf_entries_lt
    have hc := List.sizeOf_lt_of_mem h
    simp only [Prod.mk.sizeOf_spec, Option.some.sizeOf_spec] at hc
    omega
  | value k h =>
    have hr := r.sizeOf_entries_lt
    have hc := List.sizeOf_lt_of_mem h
    simp only [Prod.mk.sizeOf_spec, Option.some.sizeOf_spec] at hc
    omega

/-- What holds of a record whenever it holds of its parts, holds of every record. -/
theorem induction {P : Record → Prop} (step : ∀ r, (∀ c, IsPart c r → P c) → P r) (r : Record) :
    P r :=
  step r fun c _ => induction step c
termination_by sizeOf r
decreasing_by exact IsPart.sizeOf_lt ‹_›

/-! ## Records that fit -/

section
variable {V : Datum → Prop} {r : Record}

/-- The members of a record that hold no record fit: texts are plain, integers have 64 bits, and
the value is one of `V`. -/
structure OwnFits (V : Datum → Prop) (r : Record) : Prop where
  kind : Text.IsPlain r.kind
  line : fitsInt64 r.line = true
  column : fitsInt64 r.column = true
  endLine : fitsInt64 r.endLine = true
  endColumn : fitsInt64 r.endColumn = true
  code : Text.IsPlain r.code
  name : Text.IsPlain r.name
  path : Text.IsPlain r.path
  type : Text.IsPlain r.type
  value : V r.value
  content : Text.IsPlain r.content
  names : ∀ s ∈ r.names, Text.IsPlain s
  method : Text.IsPlain r.method

/-- A record and all its parts fit. -/
inductive Fits (V : Datum → Prop) : Record → Prop
  | mk {r : Record} (own : OwnFits V r) (parts : ∀ c, IsPart c r → Fits V c) : Fits V r

/-- The members of a record that fits, fit. -/
theorem Fits.own (h : Fits V r) : OwnFits V r := by
  cases h with
  | mk own parts => exact own

/-- The parts of a record that fits, fit. -/
theorem Fits.parts (h : Fits V r) : ∀ c, IsPart c r → Fits V c := by
  cases h with
  | mk own parts => exact parts

/-- Is there a record, then it fits. -/
def LinkFits (V : Datum → Prop) (x : Option Record) : Prop :=
  ∀ c, x = some c → Fits V c

/-- The records of a list fit. -/
def ListFits (V : Datum → Prop) (xs : List (Option Record)) : Prop :=
  ∀ x ∈ xs, LinkFits V x

/-- The key and the value of an entry fit. -/
def EntryFits (V : Datum → Prop) (e : Option Record × Option Record) : Prop :=
  LinkFits V e.1 ∧ LinkFits V e.2

/-- The entries of a hash fit. -/
def EntriesFit (V : Datum → Prop) (es : List (Option Record × Option Record)) : Prop :=
  ∀ e ∈ es, EntryFits V e

/-- The record a member of a fitting record holds, fits. -/
theorem Fits.link (h : Fits V r) (f : LinkField) : LinkFits V (r.link f) :=
  fun c hc => h.parts c (.link f hc)

/-- The records a member of a fitting record holds, fit. -/
theorem Fits.list (h : Fits V r) (f : ListField) : ListFits V (r.list f) := by
  rintro x hx c rfl
  exact h.parts c (.list f hx)

/-- The entries of a fitting record fit. -/
theorem Fits.entries (h : Fits V r) : EntriesFit V r.entries := by
  rintro ⟨k, v⟩ he
  refine ⟨?_, ?_⟩
  · rintro c rfl
    exact h.parts c (.key v he)
  · rintro c rfl
    exact h.parts c (.value k he)

/-- A record fits if its members do. -/
theorem Fits.of_members (hown : OwnFits V r) (hlink : ∀ f, LinkFits V (r.link f))
    (hlist : ∀ f, ListFits V (r.list f)) (hentries : EntriesFit V r.entries) : Fits V r := by
  refine ⟨hown, fun c hc => ?_⟩
  cases hc with
  | link f h => exact hlink f c h
  | list f h => exact hlist f _ h c rfl
  | key v h => exact (hentries _ h).1 c rfl
  | value k h => exact (hentries _ h).2 c rfl

/-- The record without its parts. -/
def bare (r : Record) : Record :=
  { r with
    expr := none, nameExpr := none, receiver := none, operand := none, left := none,
    right := none, condition := none, otherwise := none, items := [], args := [], pairs := [],
    resources := [], vars := [], attributes := [], dependencies := [], statements := [],
    comments := [], unitBlocks := [], modules := [], blocks := [], entries := [] }

/-- A record without parts fits if its members do. -/
theorem Fits.of_own (hown : OwnFits V r) (hbare : r = r.bare) : Fits V r := by
  refine .of_members hown (fun f => ?_) (fun f => ?_) ?_
  · have : r.link f = none := by rw [hbare]; cases f <;> rfl
    rw [this]
    rintro c ⟨⟩
  · have : r.list f = [] := by rw [hbare]; cases f <;> rfl
    rw [this]
    rintro x ⟨⟩
  · rw [hbare]
    rintro e ⟨⟩

/-- Other members are left alone when a member that holds a record is changed. -/
theorem link_setLink (x : Option Record) (f g : LinkField) :
    (r.setLink x f).link g = if g = f then x else r.link g := by
  cases f <;> cases g <;> rfl

/-- Changing a member that holds a record keeps a record fitting. -/
theorem Fits.setLink (h : Fits V r) {x : Option Record} (hx : LinkFits V x) (f : LinkField) :
    Fits V (r.setLink x f) := by
  refine .of_members ?_ (fun g => ?_) (fun g => ?_) ?_
  · cases f <;> exact { h.own with }
  · rw [link_setLink]
    split
    · exact hx
    · exact h.link g
  · have : (r.setLink x f).list g = r.list g := by cases f <;> cases g <;> rfl
    rw [this]
    exact h.list g
  · have : (r.setLink x f).entries = r.entries := by cases f <;> rfl
    rw [this]
    exact h.entries

/-- Other members are left alone when a member that holds records is changed. -/
theorem list_setList (xs : List (Option Record)) (f g : ListField) :
    (r.setList xs f).list g = if g = f then xs else r.list g := by
  cases f <;> cases g <;> rfl

/-- Changing a member that holds records keeps a record fitting. -/
theorem Fits.setList (h : Fits V r) {xs : List (Option Record)} (hxs : ListFits V xs)
    (f : ListField) : Fits V (r.setList xs f) := by
  refine .of_members ?_ (fun g => ?_) (fun g => ?_) ?_
  · cases f <;> exact { h.own with }
  · have : (r.setList xs f).link g = r.link g := by cases f <;> cases g <;> rfl
    rw [this]
    exact h.link g
  · rw [list_setList]
    split
    · exact hxs
    · exact h.list g
  · have : (r.setList xs f).entries = r.entries := by cases f <;> rfl
    rw [this]
    exact h.entries

/-- Changing the entries keeps a record fitting. -/
theorem Fits.setEntries (h : Fits V r) {es : List (Option Record × Option Record)}
    (hes : EntriesFit V es) : Fits V { r with entries := es } := by
  refine .of_members { h.own with } (fun g => ?_) (fun g => ?_) hes
  · have : ({ r with entries := es } : Record).link g = r.link g := by cases g <;> rfl
    rw [this]
    exact h.link g
  · have : ({ r with entries := es } : Record).list g = r.list g := by cases g <;> rfl
    rw [this]
    exact h.list g

/-- Changing members that hold no record keeps a record fitting, if these still fit. -/
theorem Fits.setOwn (h : Fits V r) {r' : Record} (hown : OwnFits V r')
    (hlink : ∀ f, r'.link f = r.link f) (hlist : ∀ f, r'.list f = r.list f)
    (hentries : r'.entries = r.entries) : Fits V r' := by
  refine .of_members hown (fun g => ?_) (fun g => ?_) ?_
  · rw [hlink]
    exact h.link g
  · rw [hlist]
    exact h.list g
  · rw [hentries]
    exact h.entries

end

/-- The empty record fits if a missing value does. -/
theorem fits_empty {V : Datum → Prop} (hV : V .null) : Fits V {} := by
  have hplain : Text.IsPlain "" := ⟨[], rfl⟩
  exact .of_own ⟨hplain, rfl, rfl, rfl, rfl, hplain, hplain, hplain, hplain, hV, hplain,
    fun s hs => (by cases hs), hplain⟩ rfl

/-! ## Records that are read -/

/-- Only what is there is not refused. -/
theorem orRefuse_eq_ok {α : Type} {o : Option α} {a : α} :
    RecordFault.orRefuse o = .ok a ↔ o = some a := by
  cases o <;> simp [RecordFault.orRefuse]

/-- A text that is read from JSON is plain. -/
theorem isPlain_text? {old s : String} {d : Datum} (hold : Text.IsPlain old) (hd : d.IsRead)
    (h : Encoding.json.text? old d = some s) : Text.IsPlain s := by
  unfold Encoding.text? at h
  split at h
  · cases h
    exact hold
  · cases h
    exact hd
  · cases h
  · cases h

/-- Texts that are read from JSON are plain. -/
theorem isPlain_texts? {ss : List String} {d : Datum} (hd : d.IsRead)
    (h : Encoding.json.texts? d = some ss) : ∀ s ∈ ss, Text.IsPlain s := by
  unfold Encoding.texts? at h
  split at h
  · cases h
    intro s hs
    cases hs
  · next xs =>
    have hxs : Datum.ItemsRead xs := hd
    clear hd
    induction xs generalizing ss with
    | nil =>
      cases h
      intro s hs
      cases hs
    | cons x xs ih =>
      rw [List.mapM_cons] at h
      obtain ⟨t, ht, h⟩ := Option.bind_eq_some_iff.1 h
      obtain ⟨ts, hts, h⟩ := Option.bind_eq_some_iff.1 h
      cases h
      intro s hs
      rcases List.mem_cons.1 hs with rfl | hs
      · exact isPlain_text? ⟨[], rfl⟩ hxs.1 ht
      · exact ih hts hxs.2 s hs
  · cases h

/-- An integer that a number stands for has 64 bits. -/
theorem fitsInt64_toInt64? {m : Numeral} {n : Int} (h : m.toInt64? = some n) :
    fitsInt64 n = true := by
  rw [fitsInt64_iff]
  unfold Numeral.toInt64? at h
  split at h
  · obtain ⟨hrange, heq⟩ := Option.ite_none_right_eq_some.1 h
    cases heq
    simp only [Bool.and_eq_true, decide_eq_true_eq] at hrange
    exact ⟨hrange.1.2, hrange.2⟩
  · next i =>
    cases h
    have htwice : twoPow 64 = 2 * twoPow 63 := by decide
    have hpos : 0 < twoPow 63 := by decide
    have hle := Int.le_bmod (x := i) (m := twoPow 64) (by omega)
    have hlt := Int.bmod_lt (x := i) (m := twoPow 64) (by omega)
    omega
  · cases h
  · cases h

/-- An integer that is read has 64 bits. -/
theorem fitsInt64_int? {enc : Encoding} {old n : Int} {d : Datum} (hold : fitsInt64 old = true)
    (h : enc.int? old d = some n) : fitsInt64 n = true := by
  unfold Encoding.int? at h
  split at h
  · cases h
    split
    · exact hold
    · decide
  · exact fitsInt64_toInt64? h
  · cases h

/-- The value is one that was read from JSON. -/
def IsReadValue (d : Datum) : Prop :=
  ∃ e : Datum, e.IsRead ∧ d = e.normalize

/-- A missing value counts as one that was read. -/
theorem isReadValue_null : IsReadValue .null :=
  ⟨.null, trivial, rfl⟩

/-- Reading a member that holds no record leaves the others alone. -/
theorem readScalar_members {enc : Encoding} {r r' : Record} {d : Datum} {f : ScalarField}
    (h : readScalar enc r d f = .ok r') :
    (∀ g, r'.link g = r.link g) ∧ (∀ g, r'.list g = r.list g) ∧ r'.entries = r.entries := by
  cases f <;> obtain ⟨x, -, heq⟩ := bind_eq_ok.1 h <;> cases heq <;>
    refine ⟨fun g => ?_, fun g => ?_, rfl⟩ <;> cases g <;> rfl

/-- A member that holds no record is read so that the record fits. -/
theorem Fits.readScalar {r r' : Record} {d : Datum} (h : Fits IsReadValue r) (hd : d.IsRead)
    {f : ScalarField} (hread : readScalar .json r d f = .ok r') : Fits IsReadValue r' := by
  have ⟨hlink, hlist, hentries⟩ := readScalar_members hread
  refine h.setOwn ?_ hlink hlist hentries
  have hown := h.own
  cases f <;> obtain ⟨x, hx, heq⟩ := bind_eq_ok.1 hread <;> cases heq
  case kind => exact { hown with kind := isPlain_text? hown.kind hd (orRefuse_eq_ok.1 hx) }
  case line => exact { hown with line := fitsInt64_int? hown.line (orRefuse_eq_ok.1 hx) }
  case column => exact { hown with column := fitsInt64_int? hown.column (orRefuse_eq_ok.1 hx) }
  case endLine => exact { hown with endLine := fitsInt64_int? hown.endLine (orRefuse_eq_ok.1 hx) }
  case endColumn =>
    exact { hown with endColumn := fitsInt64_int? hown.endColumn (orRefuse_eq_ok.1 hx) }
  case code => exact { hown with code := isPlain_text? hown.code hd (orRefuse_eq_ok.1 hx) }
  case name => exact { hown with name := isPlain_text? hown.name hd (orRefuse_eq_ok.1 hx) }
  case path => exact { hown with path := isPlain_text? hown.path hd (orRefuse_eq_ok.1 hx) }
  case type => exact { hown with type := isPlain_text? hown.type hd (orRefuse_eq_ok.1 hx) }
  case value =>
    rw [Encoding.value] at hx
    split at hx
    · cases hx
      exact { hown with value := ⟨d, hd, rfl⟩ }
    · cases hx
  case content => exact { hown with content := isPlain_text? hown.content hd (orRefuse_eq_ok.1 hx) }
  case names => exact { hown with names := isPlain_texts? hd (orRefuse_eq_ok.1 hx) }
  case hasVariable => exact { hown with }
  case isDefault => exact { hown with }
  case method => exact { hown with method := isPlain_text? hown.method hd (orRefuse_eq_ok.1 hx) }

mutual

/-- Members are read onto a fitting record so that it fits. -/
theorem Fits.readMembers {r r' : Record} (h : Fits IsReadValue r) : ∀ (ms : List (String × Datum)),
    Datum.MembersRead ms → readMembers .json r ms = .ok r' → Fits IsReadValue r'
  | [], _, hread => by
    simp only [Record.readMembers] at hread
    cases hread
    exact h
  | (name, d) :: ms, hms, hread => by
    rw [Record.readMembers] at hread
    split at hread
    · exact h.readMembers ms hms.2 hread
    · obtain ⟨x, hx, hread⟩ := bind_eq_ok.1 hread
      exact (h.readScalar hms.1 hx).readMembers ms hms.2 hread
    · next f _ =>
      obtain ⟨x, hx, hread⟩ := bind_eq_ok.1 hread
      exact (h.setLink (fits_readLink (h.link f) d hms.1 hx) f).readMembers ms hms.2 hread
    · next f _ =>
      obtain ⟨x, hx, hread⟩ := bind_eq_ok.1 hread
      exact (h.setList (fits_readList (h.list f) d hms.1 hx) f).readMembers ms hms.2 hread
    · obtain ⟨x, hx, hread⟩ := bind_eq_ok.1 hread
      exact (h.setEntries (fits_readEntries h.entries d hms.1 hx)).readMembers ms hms.2 hread

/-- A nested record is read so that it fits. -/
theorem fits_readLink {old x : Option Record} (hold : LinkFits IsReadValue old) :
    ∀ (d : Datum), d.IsRead → readLink .json old d = .ok x → LinkFits IsReadValue x
  | .null, _, hread => by
    simp only [Record.readLink] at hread
    cases hread
    rintro c ⟨⟩
  | .table ms, hd, hread => by
    rw [Record.readLink] at hread
    obtain ⟨r, hr, heq⟩ := bind_eq_ok.1 hread
    cases heq
    rintro c ⟨⟩
    have hold' : Fits IsReadValue (old.getD {}) := by
      cases old with
      | none => exact fits_empty isReadValue_null
      | some r => exact hold r rfl
    exact hold'.readMembers ms hd hr
  | .list xs, hd, hread => by
    rw [Record.readLink] at hread
    cases hread

/-- A list of nested records is read so that they fit. -/
theorem fits_readList {old xs : List (Option Record)} (hold : ListFits IsReadValue old) :
    ∀ (d : Datum), d.IsRead → readList .json old d = .ok xs → ListFits IsReadValue xs
  | .null, _, hread => by
    simp only [Record.readList] at hread
    cases hread
    rintro c ⟨⟩
  | .list xs, hd, hread => fits_readItems hold xs hd (by simpa only [Record.readList] using hread)

/-- The items of a list of nested records are read so that they fit. -/
theorem fits_readItems {old xs : List (Option Record)} (hold : ListFits IsReadValue old) :
    ∀ (ds : List Datum), Datum.ItemsRead ds → readItems .json old ds = .ok xs →
      ListFits IsReadValue xs
  | [], _, hread => by
    simp only [Record.readItems] at hread
    cases hread
    rintro c ⟨⟩
  | d :: ds, hds, hread => by
    rw [Record.readItems] at hread
    obtain ⟨y, hy, hread⟩ := bind_eq_ok.1 hread
    obtain ⟨ys, hys, heq⟩ := bind_eq_ok.1 hread
    cases heq
    have hfirst : LinkFits IsReadValue (old.head?.getD none) := by
      cases old with
      | nil => rintro c ⟨⟩
      | cons o old => exact hold o (.head _)
    intro x hx
    rcases List.mem_cons.1 hx with rfl | hx
    · exact fits_readLink hfirst d hds.1 hy
    · exact fits_readItems (fun z hz => hold z (List.mem_of_mem_tail hz)) ds hds.2 hys x hx

/-- Entries are read so that they fit. -/
theorem fits_readEntries {old es : List (Option Record × Option Record)}
    (hold : EntriesFit IsReadValue old) :
    ∀ (d : Datum), d.IsRead → readEntries .json old d = .ok es → EntriesFit IsReadValue es
  | .null, _, hread => by
    simp only [Record.readEntries] at hread
    cases hread
    rintro c ⟨⟩
  | .list xs, hd, hread =>
    fits_readEntryItems hold xs hd (by simpa only [Record.readEntries] using hread)

/-- Entries are read one by one so that they fit. -/
theorem fits_readEntryItems {old es : List (Option Record × Option Record)}
    (hold : EntriesFit IsReadValue old) : ∀ (ds : List Datum), Datum.ItemsRead ds →
    readEntryItems .json old ds = .ok es → EntriesFit IsReadValue es
  | [], _, hread => by
    simp only [Record.readEntryItems] at hread
    cases hread
    rintro c ⟨⟩
  | d :: ds, hds, hread => by
    rw [Record.readEntryItems] at hread
    obtain ⟨y, hy, hread⟩ := bind_eq_ok.1 hread
    obtain ⟨ys, hys, heq⟩ := bind_eq_ok.1 hread
    cases heq
    have hfirst : EntryFits IsReadValue (old.head?.getD (none, none)) := by
      cases old with
      | nil => exact ⟨fun c hc => (by cases hc), fun c hc => (by cases hc)⟩
      | cons o old => exact hold o (.head _)
    intro x hx
    rcases List.mem_cons.1 hx with rfl | hx
    · exact fits_readEntry hfirst d hds.1 hy
    · exact fits_readEntryItems (fun z hz => hold z (List.mem_of_mem_tail hz)) ds hds.2 hys x hx

/-- An entry is read so that its key and its value fit. -/
theorem fits_readEntry {old e : Option Record × Option Record}
    (hold : EntryFits IsReadValue old) : ∀ (d : Datum), d.IsRead →
    readEntry .json old d = .ok e → EntryFits IsReadValue e
  | .null, _, hread => by
    simp only [Record.readEntry] at hread
    cases hread
    exact hold
  | .table ms, hd, hread =>
    fits_readEntryMembers hold ms hd (by simpa only [Record.readEntry] using hread)
  | .list xs, hd, hread => by
    rw [Record.readEntry] at hread
    cases hread

/-- The members of an entry are read so that its key and its value fit. -/
theorem fits_readEntryMembers {old e : Option Record × Option Record}
    (hold : EntryFits IsReadValue old) : ∀ (ms : List (String × Datum)), Datum.MembersRead ms →
    readEntryMembers .json old ms = .ok e → EntryFits IsReadValue e
  | [], _, hread => by
    simp only [Record.readEntryMembers] at hread
    cases hread
    exact hold
  | (name, d) :: ms, hms, hread => by
    rw [Record.readEntryMembers] at hread
    split at hread
    · obtain ⟨x, hx, hread⟩ := bind_eq_ok.1 hread
      have hnew : EntryFits IsReadValue (x, old.2) := ⟨fits_readLink hold.1 d hms.1 hx, hold.2⟩
      exact fits_readEntryMembers hnew ms hms.2 hread
    · obtain ⟨x, hx, hread⟩ := bind_eq_ok.1 hread
      have hnew : EntryFits IsReadValue (old.1, x) := ⟨hold.1, fits_readLink hold.2 d hms.1 hx⟩
      exact fits_readEntryMembers hnew ms hms.2 hread
    · exact fits_readEntryMembers hold ms hms.2 hread

end

/-- A record that is read from JSON fits. -/
theorem fits_ofDatum {d : Datum} {r : Record} (hd : d.IsRead) (h : ofDatum .json d = .ok r) :
    Fits IsReadValue r := by
  have hempty : Fits IsReadValue {} := fits_empty isReadValue_null
  unfold ofDatum at h
  split at h
  · cases h
    exact hempty
  · cases hx : readLink .json none d with
    | error e =>
      rw [hx] at h
      cases h
    | ok x =>
      rw [hx] at h
      cases h
      cases x with
      | none => exact hempty
      | some r => exact fits_readLink (fun c hc => by cases hc) d hd hx r rfl

end InfraSmells.Record
