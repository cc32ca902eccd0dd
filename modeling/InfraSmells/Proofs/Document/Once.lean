import InfraSmells.Proofs.Document.Record
import Mathlib.Data.List.Nodup

/-!
# Documents that name their members once

Reading a record breaks down where a value would have to be read on top of another. In MessagePack
that takes a table in which a name stands twice: where every name stands once
(`Datum.NamesOnce`), whatever is read is read onto what is still empty (`Record.IsBlank`), and a record
that cannot be read is refused (`Record.failsOnly_ofDatum`). In JSON nothing breaks down.
-/

namespace InfraSmells

/-! ## Names that stand once -/

namespace Datum

mutual

/-- In no table within the datum does a name stand twice. -/
def NamesOnce : Datum → Prop
  | .list xs => ItemsOnce xs
  | .table ms => (ms.map Prod.fst).Nodup ∧ MembersOnce ms
  | _ => True

/-- `NamesOnce` of every item. -/
def ItemsOnce : List Datum → Prop
  | [] => True
  | d :: ds => d.NamesOnce ∧ ItemsOnce ds

/-- `NamesOnce` of every member. -/
def MembersOnce : List (String × Datum) → Prop
  | [] => True
  | (_, d) :: ms => d.NamesOnce ∧ MembersOnce ms

end

end Datum

/-- A member is written under one name in MessagePack. -/
theorem Field.ofName?_inj {n n' : String} {f : Field} (h : ofName? .pack n = some f)
    (h' : ofName? .pack n' = some f) : n = n' := by
  have hentry {n : String} (h : ofName? .pack n = some f) : (n, f) ∈ table := by
    unfold ofName? at h
    cases hfind : table.find? (·.1 == n) with
    | none =>
      rw [hfind] at h
      cases h
    | some entry =>
      rw [hfind] at h
      cases h
      have hname : entry.1 = n := by simpa using List.find?_some hfind
      exact hname ▸ List.mem_of_find?_eq_some hfind
  have hfields : (table.map Prod.snd).Nodup := by decide
  exact congrArg Prod.fst (List.inj_on_of_nodup_map hfields (hentry h) (hentry h') rfl)

namespace Record

variable {enc : Encoding} {r r' : Record}

/-- Nothing has been read into the member. -/
def IsBlank (r : Record) : Field → Prop
  | .scalar .value => r.value = .null
  | .scalar _ => True
  | .link f => r.link f = none
  | .list f => r.list f = []
  | .entries => r.entries = []

/-- Nothing has been read into the empty record. -/
theorem isBlank_empty (f : Field) : ({} : Record).IsBlank f := by
  cases f with
  | scalar f => cases f <;> trivial
  | link f => cases f <;> rfl
  | list f => cases f <;> rfl
  | entries => rfl

/-- Reading a member that holds no record leaves the others blank. -/
theorem IsBlank.readScalar {f : ScalarField} {d : Datum} {g : Field} (h : r.IsBlank g)
    (hread : readScalar enc r d f = .ok r') (hne : g ≠ .scalar f) : r'.IsBlank g := by
  obtain ⟨hlink, hlist, hentries⟩ := readScalar_members hread
  cases g with
  | scalar g =>
    cases g
    case value =>
      have hvalue : r'.value = r.value := by
        cases f <;> obtain ⟨x, -, heq⟩ := bind_eq_ok.1 hread <;> cases heq
        case value => exact absurd rfl hne
        all_goals rfl
      exact hvalue.trans h
    all_goals trivial
  | link g => exact (hlink g).trans h
  | list g => exact (hlist g).trans h
  | entries => exact hentries.trans h

/-- Changing a member that holds a record leaves the others blank. -/
theorem IsBlank.setLink {f : LinkField} {x : Option Record} {g : Field} (h : r.IsBlank g)
    (hne : g ≠ .link f) : (r.setLink x f).IsBlank g := by
  cases g with
  | scalar g => cases f <;> cases g <;> exact h
  | link g =>
    show (r.setLink x f).link g = none
    rw [link_setLink, if_neg fun heq => hne (congrArg _ heq)]
    exact h
  | list g => cases f <;> cases g <;> exact h
  | entries => cases f <;> exact h

/-- Changing a member that holds records leaves the others blank. -/
theorem IsBlank.setList {f : ListField} {xs : List (Option Record)} {g : Field} (h : r.IsBlank g)
    (hne : g ≠ .list f) : (r.setList xs f).IsBlank g := by
  cases g with
  | scalar g => cases f <;> cases g <;> exact h
  | link g => cases f <;> cases g <;> exact h
  | list g =>
    show (r.setList xs f).list g = []
    rw [list_setList, if_neg fun heq => hne (congrArg _ heq)]
    exact h
  | entries => cases f <;> exact h

/-- Changing the entries leaves the other members blank. -/
theorem IsBlank.setEntries {es : List (Option Record × Option Record)} {g : Field}
    (h : r.IsBlank g) (hne : g ≠ .entries) : ({ r with entries := es } : Record).IsBlank g := by
  cases g with
  | scalar g => cases g <;> exact h
  | link g => cases g <;> exact h
  | list g => cases g <;> exact h
  | entries => exact absurd rfl hne

/-! ## Reading onto what is blank -/

/-- The refusal of a member. -/
theorem failsOnly_orRefuse {α : Type} (o : Option α) :
    FailsOnly (· = .refused) (RecordFault.orRefuse o) := by
  cases o with
  | none => exact .error rfl
  | some a => exact .ok a

/-- A member that holds no record is refused, if it cannot be read. -/
theorem failsOnly_readScalar {f : ScalarField} (d : Datum)
    (h : enc = .pack → r.IsBlank (.scalar f)) :
    FailsOnly (· = .refused) (readScalar enc r d f) := by
  cases f
  case value =>
    refine .bind ?_ fun a _ => .ok _
    unfold Encoding.value
    split
    · split
      · exact .ok _
      · exact .error rfl
    · split
      · exact .ok _
      · exact .error rfl
    · next hvalue =>
      exact absurd (h rfl) hvalue
  all_goals exact .bind (failsOnly_orRefuse _) fun a _ => .ok _

/-- The members are named once, and nothing has been read into them. -/
structure Awaits (r : Record) (ms : List (String × Datum)) : Prop where
  names : (ms.map Prod.fst).Nodup
  members : Datum.MembersOnce ms
  blank : ∀ m ∈ ms, ∀ f, Field.ofName? .pack m.1 = some f → r.IsBlank f

/-- Once a member has been read, the others are awaited if they have been left blank. -/
theorem Awaits.tail {name : String} {d : Datum} {ms : List (String × Datum)}
    (h : r.Awaits ((name, d) :: ms))
    (hblank : ∀ g, Field.ofName? .pack name ≠ some g → r.IsBlank g → r'.IsBlank g) :
    r'.Awaits ms := by
  obtain ⟨hnotMem, hnodup⟩ := List.nodup_cons.1 h.names
  refine ⟨hnodup, h.members.2, fun m hm g hg => ?_⟩
  refine hblank g (fun hname => hnotMem ?_) (h.blank m (.tail _ hm) g hg)
  exact List.mem_map.2 ⟨m, hm, Field.ofName?_inj hg hname⟩

/-- All members are listed, and nothing has been read into them. -/
structure AwaitsList (r : Record) (fields : List (String × Field)) (ds : List Datum) : Prop where
  once : (fields.map Prod.snd).Nodup
  items : Datum.ItemsOnce ds
  blank : ∀ p ∈ fields, r.IsBlank p.2

/-- Once a member has been read, the others are awaited if they have been left blank. -/
theorem AwaitsList.tail {p : String × Field} {fields : List (String × Field)} {d : Datum}
    {ds : List Datum} (h : r.AwaitsList (p :: fields) (d :: ds))
    (hblank : ∀ g, g ≠ p.2 → r.IsBlank g → r'.IsBlank g) : r'.AwaitsList fields ds := by
  obtain ⟨hnotMem, hnodup⟩ := List.nodup_cons.1 h.once
  refine ⟨hnodup, h.items.2, fun q hq => hblank q.2 (fun heq => hnotMem ?_) (h.blank q (.tail _ hq))⟩
  exact List.mem_map.2 ⟨q, hq, heq⟩

/-- The name of an entry's key is not that of its value. -/
theorem entryName_inj {n n' : String} {b : Bool} (h : Encoding.pack.entryName n = some b)
    (h' : Encoding.pack.entryName n' = some b) : n = n' := by
  have hname {n : String} (h : Encoding.pack.entryName n = some b) :
      n = if b then "key" else "value" := by
    unfold Encoding.entryName at h
    dsimp only at h
    split at h
    · next hkey =>
      cases h
      simpa using hkey
    split at h
    · next hvalue =>
      cases h
      simpa using hvalue
    · cases h
  rw [hname h, hname h']

/-- The parts of an entry are named once, and nothing has been read into them. -/
structure AwaitsEntry (old : Option Record × Option Record) (ms : List (String × Datum)) :
    Prop where
  names : (ms.map Prod.fst).Nodup
  members : Datum.MembersOnce ms
  key : ∀ m ∈ ms, Encoding.pack.entryName m.1 = some true → old.1 = none
  value : ∀ m ∈ ms, Encoding.pack.entryName m.1 = some false → old.2 = none

/-- Once a part of an entry has been read, the others are awaited. -/
theorem AwaitsEntry.tail {old new : Option Record × Option Record} {name : String} {d : Datum}
    {ms : List (String × Datum)} (h : AwaitsEntry old ((name, d) :: ms))
    (hkey : Encoding.pack.entryName name ≠ some true → new.1 = old.1)
    (hvalue : Encoding.pack.entryName name ≠ some false → new.2 = old.2) : AwaitsEntry new ms := by
  obtain ⟨hnotMem, hnodup⟩ := List.nodup_cons.1 h.names
  have hother {m : String × Datum} (hm : m ∈ ms) {b : Bool}
      (hb : Encoding.pack.entryName m.1 = some b) : Encoding.pack.entryName name ≠ some b :=
    fun hname => hnotMem (List.mem_map.2 ⟨m, hm, entryName_inj hb hname⟩)
  refine ⟨hnodup, h.members.2, fun m hm hb => ?_, fun m hm hb => ?_⟩
  · exact (hkey (hother hm hb)).trans (h.key m (.tail _ hm) hb)
  · exact (hvalue (hother hm hb)).trans (h.value m (.tail _ hm) hb)

mutual

/-- Members that are named once are refused, if they cannot be read. -/
theorem failsOnly_readMembers : ∀ (ms : List (String × Datum)) {old : Record},
    (enc = .pack → old.Awaits ms) → FailsOnly (· = .refused) (readMembers enc old ms)
  | [], _, _ => by
    rw [readMembers]
    exact .ok _
  | (name, d) :: ms, old, h => by
    have hd (he : enc = .pack) := (h he).members.1
    have hblank {f : Field} (hname : Field.ofName? enc name = some f) (he : enc = .pack) :
        old.IsBlank f := by
      subst he
      exact (h rfl).blank _ (.head _) f hname
    have htail {f : Field} {r : Record} (hname : Field.ofName? enc name = some f)
        (hleft : ∀ g, g ≠ f → old.IsBlank g → r.IsBlank g) (he : enc = .pack) : r.Awaits ms := by
      subst he
      refine (h rfl).tail fun g hg => hleft g fun heq => hg ?_
      rw [hname, heq]
    rw [readMembers]
    split
    · next hname =>
      refine failsOnly_readMembers ms fun he => ?_
      exact (h he).tail fun g _ hg => hg
    · next f hname =>
      refine .bind (failsOnly_readScalar d (hblank hname)) fun r hr => ?_
      exact failsOnly_readMembers ms (htail hname fun g hne hg => hg.readScalar hr hne)
    · next f hname =>
      refine .bind (failsOnly_readLink d fun he => ⟨hblank hname he, hd he⟩) fun x _ => ?_
      exact failsOnly_readMembers ms (htail hname fun g hne hg => hg.setLink hne)
    · next f hname =>
      refine .bind (failsOnly_readList d fun he => ⟨hblank hname he, hd he⟩) fun xs _ => ?_
      exact failsOnly_readMembers ms (htail hname fun g hne hg => hg.setList hne)
    · next hname =>
      refine .bind (failsOnly_readEntries d fun he => ⟨hblank hname he, hd he⟩) fun es _ => ?_
      exact failsOnly_readMembers ms (htail hname fun g hne hg => hg.setEntries hne)

/-- Listed members are refused, if they cannot be read. -/
theorem failsOnly_readFields : ∀ (ds : List Datum) {old : Record}
    {fields : List (String × Field)}, old.AwaitsList fields ds →
      FailsOnly (· = .refused) (readFields enc old fields ds)
  | [], _, _, _ => by
    rw [readFields]
    split
    · exact .ok _
    · exact .error rfl
  | d :: ds, old, [], _ => by
    rw [readFields]
    exact .error rfl
  | d :: ds, old, (name, f) :: fields, h => by
    have hblank := h.blank _ (.head _)
    have hd := h.items.1
    cases f with
    | scalar f =>
      rw [readFields]
      refine .bind (failsOnly_readScalar d fun _ => hblank) fun r hr => ?_
      exact failsOnly_readFields ds (h.tail fun g hne hg => hg.readScalar hr hne)
    | link f =>
      rw [readFields]
      refine .bind (failsOnly_readLink d fun _ => ⟨hblank, hd⟩) fun x _ => ?_
      exact failsOnly_readFields ds (h.tail fun g hne hg => hg.setLink hne)
    | list f =>
      rw [readFields]
      refine .bind (failsOnly_readList d fun _ => ⟨hblank, hd⟩) fun xs _ => ?_
      exact failsOnly_readFields ds (h.tail fun g hne hg => hg.setList hne)
    | entries =>
      rw [readFields]
      refine .bind (failsOnly_readEntries d fun _ => ⟨hblank, hd⟩) fun es _ => ?_
      exact failsOnly_readFields ds (h.tail fun g hne hg => hg.setEntries hne)

/-- A nested record is refused, if it cannot be read. -/
theorem failsOnly_readLink : ∀ (d : Datum) {old : Option Record},
    (enc = .pack → old = none ∧ d.NamesOnce) → FailsOnly (· = .refused) (readLink enc old d)
  | .null, _, _ => by
    rw [readLink]
    exact .ok _
  | .table ms, old, h => by
    rw [readLink]
    refine .bind (failsOnly_readMembers ms fun he => ?_) fun r _ => .ok _
    obtain ⟨rfl, hnames, hmembers⟩ := h he
    exact ⟨hnames, hmembers, fun m _ f _ => isBlank_empty f⟩
  | .list xs, old, h => by
    rw [readLink]
    split
    · exact .error rfl
    next hjson =>
    split
    · exact .ok _
    split
    · exact .error rfl
    · obtain ⟨rfl, hitems⟩ := h (by cases enc <;> first | rfl | exact absurd rfl hjson)
      refine .bind (failsOnly_readFields xs ⟨by decide, hitems, fun p _ => isBlank_empty p.2⟩)
        fun r _ => .ok _
  | .flag _, _, _ | .number _, _, _ | .text _, _, _ | .bytes _, _, _ | .instant _, _, _
  | .tables _, _, _ | .other, _, _ => by
    unfold readLink
    exact .error rfl

/-- A list of nested records is refused, if it cannot be read. -/
theorem failsOnly_readList : ∀ (d : Datum) {old : List (Option Record)},
    (enc = .pack → old = [] ∧ d.NamesOnce) → FailsOnly (· = .refused) (readList enc old d)
  | .null, _, _ => by
    rw [readList]
    exact .ok _
  | .list xs, _, h => by
    rw [readList]
    exact failsOnly_readItems xs h
  | .flag _, _, _ | .number _, _, _ | .text _, _, _ | .bytes _, _, _ | .instant _, _, _
  | .tables _, _, _ | .table _, _, _ | .other, _, _ => by
    unfold readList
    exact .error rfl

/-- The items of a list are refused, if they cannot be read. -/
theorem failsOnly_readItems : ∀ (ds : List Datum) {old : List (Option Record)},
    (enc = .pack → old = [] ∧ Datum.ItemsOnce ds) →
      FailsOnly (· = .refused) (readItems enc old ds)
  | [], _, _ => by
    rw [readItems]
    exact .ok _
  | d :: ds, old, h => by
    rw [readItems]
    refine .bind (failsOnly_readLink d fun he => ?_) fun r _ =>
      .bind (failsOnly_readItems ds fun he => ?_) fun rs _ => .ok _
    · obtain ⟨rfl, hitems⟩ := h he
      exact ⟨rfl, hitems.1⟩
    · obtain ⟨rfl, hitems⟩ := h he
      exact ⟨rfl, hitems.2⟩

/-- The entries of a hash are refused, if they cannot be read. -/
theorem failsOnly_readEntries : ∀ (d : Datum) {old : List (Option Record × Option Record)},
    (enc = .pack → old = [] ∧ d.NamesOnce) → FailsOnly (· = .refused) (readEntries enc old d)
  | .null, _, _ => by
    rw [readEntries]
    exact .ok _
  | .list xs, _, h => by
    rw [readEntries]
    exact failsOnly_readEntryItems xs h
  | .flag _, _, _ | .number _, _, _ | .text _, _, _ | .bytes _, _, _ | .instant _, _, _
  | .tables _, _, _ | .table _, _, _ | .other, _, _ => by
    unfold readEntries
    exact .error rfl

/-- Entries are refused, if they cannot be read. -/
theorem failsOnly_readEntryItems : ∀ (ds : List Datum)
    {old : List (Option Record × Option Record)},
    (enc = .pack → old = [] ∧ Datum.ItemsOnce ds) →
      FailsOnly (· = .refused) (readEntryItems enc old ds)
  | [], _, _ => by
    rw [readEntryItems]
    exact .ok _
  | d :: ds, old, h => by
    rw [readEntryItems]
    refine .bind (failsOnly_readEntry d fun he => ?_) fun r _ =>
      .bind (failsOnly_readEntryItems ds fun he => ?_) fun rs _ => .ok _
    · obtain ⟨rfl, hitems⟩ := h he
      exact ⟨rfl, hitems.1⟩
    · obtain ⟨rfl, hitems⟩ := h he
      exact ⟨rfl, hitems.2⟩

/-- An entry is refused, if it cannot be read. -/
theorem failsOnly_readEntry : ∀ (d : Datum) {old : Option Record × Option Record},
    (enc = .pack → old = (none, none) ∧ d.NamesOnce) →
      FailsOnly (· = .refused) (readEntry enc old d)
  | .null, _, _ => by
    rw [readEntry]
    exact .ok _
  | .table ms, _, h => by
    rw [readEntry]
    refine failsOnly_readEntryMembers ms fun he => ?_
    obtain ⟨rfl, hnames, hmembers⟩ := h he
    exact ⟨hnames, hmembers, fun _ _ _ => rfl, fun _ _ _ => rfl⟩
  | .list xs, _, h => by
    rw [readEntry]
    split
    · exact .error rfl
    · exact failsOnly_readEntryFields xs h
  | .flag _, _, _ | .number _, _, _ | .text _, _, _ | .bytes _, _, _ | .instant _, _, _
  | .tables _, _, _ | .other, _, _ => by
    unfold readEntry
    exact .error rfl

/-- The parts of an entry are refused, if they cannot be read. -/
theorem failsOnly_readEntryMembers : ∀ (ms : List (String × Datum))
    {old : Option Record × Option Record},
    (enc = .pack → AwaitsEntry old ms) → FailsOnly (· = .refused) (readEntryMembers enc old ms)
  | [], _, _ => by
    rw [readEntryMembers]
    exact .ok _
  | (name, d) :: ms, old, h => by
    have hd (he : enc = .pack) := (h he).members.1
    rw [readEntryMembers]
    split
    · next hname =>
      refine .bind (failsOnly_readLink d fun he => ?_) fun x _ =>
        failsOnly_readEntryMembers ms fun he => ?_
      · subst he
        exact ⟨(h rfl).key _ (.head _) hname, hd rfl⟩
      · subst he
        exact (h rfl).tail (fun hne => absurd hname hne) fun _ => rfl
    · next hname =>
      refine .bind (failsOnly_readLink d fun he => ?_) fun x _ =>
        failsOnly_readEntryMembers ms fun he => ?_
      · subst he
        exact ⟨(h rfl).value _ (.head _) hname, hd rfl⟩
      · subst he
        exact (h rfl).tail (fun _ => rfl) fun hne => absurd hname hne
    · exact failsOnly_readEntryMembers ms fun he => (h he).tail (fun _ => rfl) fun _ => rfl

/-- A listed entry is refused, if it cannot be read. -/
theorem failsOnly_readEntryFields : ∀ (ds : List Datum) {old : Option Record × Option Record},
    (enc = .pack → old = (none, none) ∧ Datum.ItemsOnce ds) →
      FailsOnly (· = .refused) (readEntryFields enc old ds)
  | [], _, _ => by
    rw [readEntryFields]
    exact .ok _
  | [k, v], old, h => by
    rw [readEntryFields]
    refine .bind (failsOnly_readLink k fun he => ?_) fun x _ =>
      .bind (failsOnly_readLink v fun he => ?_) fun y _ => .ok _
    · obtain ⟨rfl, hitems⟩ := h he
      exact ⟨rfl, hitems.1⟩
    · obtain ⟨rfl, hitems⟩ := h he
      exact ⟨rfl, hitems.2.1⟩
  | [_], _, _ | _ :: _ :: _ :: _, _, _ => by
    unfold readEntryFields
    exact .error rfl

end

/-- A record that cannot be read is refused, in MessagePack if its names stand once. -/
theorem failsOnly_ofDatum {d : Datum} (h : enc = .pack → d.NamesOnce) :
    FailsOnly (· = .refused) (ofDatum enc d) := by
  unfold ofDatum
  split
  · exact .ok _
  · exact (failsOnly_readLink d fun he => ⟨rfl, h he⟩).map _

end Record

end InfraSmells
