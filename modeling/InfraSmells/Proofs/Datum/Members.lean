import InfraSmells.Proofs.Datum.Lower
import InfraSmells.Proofs.Text.Distinct

/-!
# Members in the order in which they are written

A table is written with its members sorted by name. In lower case two names can be the same, and
then the member that is written later is the one a reader finds; `Datum.InPrintedOrder` says that it
is the later one in the table as well. Under this condition sorting does not matter to a reader that
looks for names in lower case (`Datum.lastNamed_sortMembers`).
-/

namespace InfraSmells

namespace Text

/-- Texts that are equal in the order are the same in lower case. -/
theorem lower_eq_of_compareText {a b : String} (h : compareText a b = .eq) : lower a = lower b := by
  rw [compareText, compareBytes_eq] at h
  rw [lower, lower, characters_eq, characters_eq, Std.LawfulEqCmp.compare_eq_iff_eq.1 h]

end Text

namespace Datum

/-! ## Sorted members -/

/-- Members in increasing order of their names. -/
def SortedMembers (ms : List (String × Datum)) : Prop :=
  ms.Pairwise fun a b => Text.compareText a.1 b.1 = .lt

/-- A member is inserted among others, perhaps in the place of one. -/
theorem mem_insertMember {m x : String × Datum} {ms : List (String × Datum)}
    (h : x ∈ insertMember m ms) : x = m ∨ x ∈ ms := by
  induction ms with
  | nil => exact .inl (List.mem_singleton.1 h)
  | cons y ms ih =>
    rw [insertMember] at h
    split at h
    · exact List.mem_cons.1 h
    · exact (List.mem_cons.1 h).imp_right (List.mem_cons_of_mem y)
    · rcases List.mem_cons.1 h with rfl | h
      · exact .inr (.head _)
      · exact (ih h).imp_right (List.mem_cons_of_mem y)

/-- Sorted members stay sorted. -/
theorem SortedMembers.insertMember {m : String × Datum} {ms : List (String × Datum)}
    (h : SortedMembers ms) : SortedMembers (insertMember m ms) := by
  induction ms with
  | nil => exact List.pairwise_singleton _ m
  | cons y ms ih =>
    obtain ⟨hy, hms⟩ := List.pairwise_cons.1 h
    rw [Datum.insertMember]
    split
    · next hlt =>
      exact List.pairwise_cons.2 ⟨List.forall_mem_cons.2
        ⟨hlt, fun x hx => Std.TransCmp.lt_trans hlt (hy x hx)⟩, h⟩
    · next heq =>
      exact List.pairwise_cons.2 ⟨fun x hx => Std.TransCmp.lt_of_eq_of_lt heq (hy x hx), hms⟩
    · next hgt =>
      refine List.pairwise_cons.2 ⟨fun x hx => ?_, ih hms⟩
      rcases mem_insertMember hx with rfl | hx
      · exact Std.OrientedCmp.gt_iff_lt.1 hgt
      · exact hy x hx

/-- The members that are sorted with one more. -/
theorem sortMembers_concat (ms : List (String × Datum)) (m : String × Datum) :
    sortMembers (ms ++ [m]) = insertMember m (sortMembers ms) := by
  rw [sortMembers, List.foldl_append]
  rfl

/-- Sorting sorts. -/
theorem sortedMembers_sortMembers (ms : List (String × Datum)) :
    SortedMembers (sortMembers ms) := by
  induction ms using List.reverseRecOn with
  | nil => exact .nil
  | append_singleton ms m ih =>
    rw [sortMembers_concat]
    exact ih.insertMember

/-- What is sorted was there. -/
theorem mem_of_mem_sortMembers {x : String × Datum} {ms : List (String × Datum)}
    (h : x ∈ sortMembers ms) : x ∈ ms := by
  induction ms using List.reverseRecOn with
  | nil => exact h
  | append_singleton ms m ih =>
    rw [sortMembers_concat] at h
    rcases mem_insertMember h with rfl | h
    · simp
    · exact List.mem_append_left _ (ih h)

/-! ## Names in lower case -/

/-- The last of some pairs whose name is the given one in lower case. -/
def lastNamed {α : Type} (name : String) (ms : List (String × α)) : Option (String × α) :=
  ms.reverse.find? fun m => Text.lower m.1 == name

/-- The last pair of a name, by what stands behind the first. -/
theorem lastNamed_cons {α : Type} (name : String) (m : String × α) (ms : List (String × α)) :
    lastNamed name (m :: ms) =
      (lastNamed name ms).or (if Text.lower m.1 == name then some m else none) := by
  rw [lastNamed, List.reverse_cons, List.find?_append, List.find?_singleton]
  rfl

/-- No pair has a name that none has. -/
theorem lastNamed_eq_none {α : Type} {name : String} {ms : List (String × α)}
    (h : ∀ m ∈ ms, Text.lower m.1 ≠ name) : lastNamed name ms = none := by
  rw [lastNamed, List.find?_eq_none]
  intro m hm
  simpa using h m (List.mem_reverse.1 hm)

/-- A member that is written behind all of its name in lower case is found by this name. -/
theorem lastNamed_insertMember {m : String × Datum} {ms : List (String × Datum)}
    (hsorted : SortedMembers ms)
    (hbefore : ∀ x ∈ ms, Text.lower x.1 = Text.lower m.1 → Text.compareText x.1 m.1 = .lt)
    (name : String) : lastNamed name (insertMember m ms) =
      if Text.lower m.1 == name then some m else lastNamed name ms := by
  have hasymm {x : String × Datum} (hlt : Text.compareText m.1 x.1 = .lt)
      (hgt : Text.compareText x.1 m.1 = .lt) : False := by
    rw [Std.OrientedCmp.gt_of_lt hgt] at hlt
    cases hlt
  induction ms with
  | nil =>
    have hnone : lastNamed name ([] : List (String × Datum)) = none := rfl
    rw [insertMember, lastNamed_cons, hnone, Option.none_or]
  | cons y ms ih =>
    obtain ⟨hy, hms⟩ := List.pairwise_cons.1 hsorted
    obtain ⟨hbefore_y, hbefore⟩ := List.forall_mem_cons.1 hbefore
    rw [insertMember]
    split
    · next hlt =>
      rw [lastNamed_cons]
      split
      · next hname =>
        -- what is written behind the member has another name
        rw [lastNamed_eq_none, Option.none_or]
        refine List.forall_mem_cons.2 ⟨fun hsame => ?_, fun x hx hsame => ?_⟩
        · exact hasymm hlt (hbefore_y (hsame.trans (eq_of_beq hname).symm))
        · exact hasymm (Std.TransCmp.lt_trans hlt (hy x hx))
            (hbefore x hx (hsame.trans (eq_of_beq hname).symm))
      · exact Option.or_none
    · next heq =>
      have hlt := hbefore_y (Text.lower_eq_of_compareText heq).symm
      rw [Std.OrientedCmp.gt_of_lt hlt] at heq
      cases heq
    · rw [lastNamed_cons, ih hms hbefore, lastNamed_cons]
      split <;> rfl

/-- Of two members whose names are the same in lower case, the later one is written later. -/
def NamesInPrintedOrder (ms : List (String × Datum)) : Prop :=
  ms.Pairwise fun a b => Text.lower a.1 = Text.lower b.1 → Text.compareText a.1 b.1 = .lt

/-- Members are in this order if no two names are the same in lower case. -/
theorem namesInPrintedOrder_of_nodup {ms : List (String × Datum)}
    (h : (ms.map fun m => Text.lower m.1).Nodup) : NamesInPrintedOrder ms :=
  (List.pairwise_map.1 h).imp fun hne hsame => absurd hsame hne

/-- The last member of a name in lower case is the one that is written last. -/
theorem lastNamed_sortMembers (name : String) {ms : List (String × Datum)}
    (h : NamesInPrintedOrder ms) : lastNamed name (sortMembers ms) = lastNamed name ms := by
  induction ms using List.reverseRecOn with
  | nil => rfl
  | append_singleton ms m ih =>
    obtain ⟨hms, -, hm⟩ := List.pairwise_append.1 h
    rw [sortMembers_concat, lastNamed_insertMember (sortedMembers_sortMembers ms)
      (fun x hx => hm x (mem_of_mem_sortMembers hx) m (List.mem_singleton_self m)), ih hms,
      lastNamed, lastNamed, List.reverse_concat, List.find?_cons]
    cases Text.lower m.1 == name <;> rfl

/-- A member of a new name is inserted among the others. -/
theorem perm_insertMember {m : String × Datum} {ms : List (String × Datum)}
    (h : ∀ x ∈ ms, Text.compareText m.1 x.1 ≠ .eq) : (insertMember m ms).Perm (m :: ms) := by
  induction ms with
  | nil => exact .refl _
  | cons y ms ih =>
    rw [insertMember]
    split
    · exact .refl _
    · next heq => exact absurd heq (h y List.mem_cons_self)
    · exact ((ih fun x hx => h x (List.mem_cons_of_mem y hx)).cons y).trans (.swap m y ms)

/-- No member is lost when members of different names are sorted. -/
theorem perm_sortMembers_of_ne {ms : List (String × Datum)}
    (h : ms.Pairwise fun a b => Text.compareText b.1 a.1 ≠ .eq) : (sortMembers ms).Perm ms := by
  induction ms using List.reverseRecOn with
  | nil => exact .refl _
  | append_singleton ms m ih =>
    obtain ⟨hms, -, hm⟩ := List.pairwise_append.1 h
    rw [sortMembers_concat]
    have hnew (x : String × Datum) (hx : x ∈ sortMembers ms) : Text.compareText m.1 x.1 ≠ .eq :=
      hm x (mem_of_mem_sortMembers hx) m (List.mem_singleton_self m)
    exact ((perm_insertMember hnew).trans ((ih hms).cons m)).trans
      (List.perm_append_singleton m ms).symm

/-- No member is lost when members are sorted. -/
theorem perm_sortMembers {ms : List (String × Datum)} (h : NamesInPrintedOrder ms) :
    (sortMembers ms).Perm ms := by
  refine perm_sortMembers_of_ne (h.imp fun {a b} hlt heq => ?_)
  rw [Std.OrientedCmp.gt_of_lt (hlt (Text.lower_eq_of_compareText heq).symm)] at heq
  cases heq

mutual

/-- In every table of the datum the later one of two members whose names are the same in lower case
is written later. So it is where no two names of a table are the same in lower case. -/
def InPrintedOrder : Datum → Prop
  | .list xs | .tables xs => ItemsInPrintedOrder xs
  | .table ms => NamesInPrintedOrder ms ∧ ValuesInPrintedOrder ms
  | _ => True

/-- `InPrintedOrder` of every item. -/
def ItemsInPrintedOrder : List Datum → Prop
  | [] => True
  | d :: ds => d.InPrintedOrder ∧ ItemsInPrintedOrder ds

/-- `InPrintedOrder` of every value of members. -/
def ValuesInPrintedOrder : List (String × Datum) → Prop
  | [] => True
  | (_, d) :: ms => d.InPrintedOrder ∧ ValuesInPrintedOrder ms

end

/-! ## Data with sorted tables -/

/-- The tables of items are sorted one by one. -/
theorem normalizeItems_eq (ds : List Datum) : normalizeItems ds = ds.map normalize := by
  induction ds with
  | nil => rfl
  | cons d ds ih => rw [normalizeItems, ih, List.map_cons]

/-- The members of tables keep their names. -/
theorem normalizeMembers_eq (ms : List (String × Datum)) :
    normalizeMembers ms = ms.map fun m => (m.1, m.2.normalize) := by
  induction ms with
  | nil => rfl
  | cons m ms ih => rw [normalizeMembers, ih, List.map_cons]

/-- Members are values one by one. -/
theorem membersValue_iff {ms : List (String × Datum)} :
    MembersValue ms ↔ ∀ m ∈ ms, m.2.IsValue := by
  induction ms with
  | nil => simp [MembersValue]
  | cons m ms ih => rw [MembersValue, ih, List.forall_mem_cons]

mutual

/-- A value with sorted tables is a value. -/
theorem IsValue.normalize : ∀ {d : Datum}, d.IsValue → d.normalize.IsValue
  | .null, _ | .flag _, _ | .text _, _ => trivial
  | .number (.float _), h => h
  | .list _, h => ItemsValue.normalize h
  | .table _, h => membersValue_iff.2 fun m hm =>
    membersValue_iff.1 (MembersValue.normalize h) m (mem_of_mem_sortMembers hm)

/-- Values with sorted tables are values. -/
theorem ItemsValue.normalize : ∀ {ds : List Datum}, ItemsValue ds → ItemsValue (normalizeItems ds)
  | [], _ => trivial
  | _ :: _, h => ⟨IsValue.normalize h.1, ItemsValue.normalize h.2⟩

/-- Members with sorted tables are values. -/
theorem MembersValue.normalize : ∀ {ms : List (String × Datum)}, MembersValue ms →
    MembersValue (normalizeMembers ms)
  | [], _ => trivial
  | (_, _) :: _, h => ⟨IsValue.normalize h.1, MembersValue.normalize h.2⟩

end

/-- Names in the order in which they are printed stay so when values are sorted. -/
theorem NamesInPrintedOrder.normalizeMembers {ms : List (String × Datum)}
    (h : NamesInPrintedOrder ms) : NamesInPrintedOrder (normalizeMembers ms) := by
  rw [normalizeMembers_eq]
  exact List.pairwise_map.2 h

mutual

/-- A value with sorted tables is as deep as before. -/
theorem depth_normalize : ∀ {d : Datum}, d.InPrintedOrder → d.normalize.depth = d.depth
  | .list _, h | .tables _, h => congrArg (· + 1) (itemsDepth_normalize h)
  | .table ms, h => by
    refine congrArg (· + 1) ?_
    refine Eq.trans (eq_of_forall_ge_iff fun n => ?_) (membersDepth_normalize h.2)
    rw [membersDepth_le_iff, membersDepth_le_iff]
    exact forall_congr' fun m => imp_congr_left (perm_sortMembers h.1.normalizeMembers).mem_iff
  | .null, _ | .flag _, _ | .number _, _ | .text _, _ | .bytes _, _ | .instant _, _
  | .other, _ => rfl

/-- Items with sorted tables are as deep as before. -/
theorem itemsDepth_normalize : ∀ {ds : List Datum}, ItemsInPrintedOrder ds →
    itemsDepth (normalizeItems ds) = itemsDepth ds
  | [], _ => rfl
  | _ :: _, h => congrArg₂ max (depth_normalize h.1) (itemsDepth_normalize h.2)

/-- Members with sorted tables are as deep as before. -/
theorem membersDepth_normalize : ∀ {ms : List (String × Datum)}, ValuesInPrintedOrder ms →
    membersDepth (normalizeMembers ms) = membersDepth ms
  | [], _ => rfl
  | (_, _) :: _, h => congrArg₂ max (depth_normalize h.1) (membersDepth_normalize h.2)

end

end Datum

end InfraSmells
