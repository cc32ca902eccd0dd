import InfraSmells.Decimal.Integer
import InfraSmells.Datum.Basic
import InfraSmells.Proofs.Text.Carried

/-!
# Data that are written

The writers of the two document formats are given data of a few kinds only: plain texts, integers
of 64 bits, finite floating-point numbers, truth values, lists and tables (`Datum.IsWritten`). A
reader gives the same data back, but for the form of their numbers; `Datum.withNumbers` changes
this form, and `Datum.withTexts` changes texts and names. `Datum.IsRead` is what the reader of a JSON
text gives, whoever wrote the text.
-/

namespace InfraSmells.Datum

mutual

/-- The datum with its numbers changed. -/
def withNumbers (f : Numeral → Numeral) : Datum → Datum
  | .number n => .number (f n)
  | .list xs => .list (withNumbersItems f xs)
  | .tables xs => .tables (withNumbersItems f xs)
  | .table ms => .table (withNumbersMembers f ms)
  | d => d

/-- `withNumbers` on the items of a list. -/
def withNumbersItems (f : Numeral → Numeral) : List Datum → List Datum
  | [] => []
  | d :: ds => d.withNumbers f :: withNumbersItems f ds

/-- `withNumbers` on the values of members. -/
def withNumbersMembers (f : Numeral → Numeral) : List (String × Datum) → List (String × Datum)
  | [] => []
  | (k, d) :: ms => (k, d.withNumbers f) :: withNumbersMembers f ms

end

mutual

/-- The datum with its texts and the names of its members changed. -/
def withTexts (f : String → String) : Datum → Datum
  | .text s => .text (f s)
  | .list xs => .list (withTextsItems f xs)
  | .tables xs => .tables (withTextsItems f xs)
  | .table ms => .table (withTextsMembers f ms)
  | d => d

/-- `withTexts` on the items of a list. -/
def withTextsItems (f : String → String) : List Datum → List Datum
  | [] => []
  | d :: ds => d.withTexts f :: withTextsItems f ds

/-- `withTexts` on members. -/
def withTextsMembers (f : String → String) : List (String × Datum) → List (String × Datum)
  | [] => []
  | (k, d) :: ms => (f k, d.withTexts f) :: withTextsMembers f ms

end

mutual

/-- How many lists and tables stand within one another. -/
def depth : Datum → Nat
  | .list xs => itemsDepth xs + 1
  | .tables xs => itemsDepth xs + 1
  | .table ms => membersDepth ms + 1
  | _ => 0

/-- The greatest `depth` of an item. -/
def itemsDepth : List Datum → Nat
  | [] => 0
  | d :: ds => max d.depth (itemsDepth ds)

/-- The greatest `depth` of a member. -/
def membersDepth : List (String × Datum) → Nat
  | [] => 0
  | (_, d) :: ms => max d.depth (membersDepth ms)

end

mutual

/-- The datum is one that documents are written from. -/
def IsWritten : Datum → Prop
  | .null | .flag _ => True
  | .text s => Text.IsPlain s
  | .number (.integer n) => fitsInt64 n = true
  | .number (.float x) => x.isFinite = true
  | .list xs => ItemsWritten xs
  | .table ms => MembersWritten ms
  | .number (.decimal ..) | .number (.single _) | .bytes _ | .instant _ | .tables _ | .other =>
    False

/-- `IsWritten` of every item. -/
def ItemsWritten : List Datum → Prop
  | [] => True
  | d :: ds => d.IsWritten ∧ ItemsWritten ds

/-- `IsWritten` of every member, whose name is plain. -/
def MembersWritten : List (String × Datum) → Prop
  | [] => True
  | (k, d) :: ms => Text.IsPlain k ∧ d.IsWritten ∧ MembersWritten ms

end

mutual

/-- The datum is one that a JSON text can stand for. -/
def IsRead : Datum → Prop
  | .null | .flag _ | .number (.decimal ..) => True
  | .text s => Text.IsPlain s
  | .list xs => ItemsRead xs
  | .table ms => MembersRead ms
  | .number (.integer _) | .number (.float _) | .number (.single _) | .bytes _ | .instant _
  | .tables _ | .other => False

/-- `IsRead` of every item. -/
def ItemsRead : List Datum → Prop
  | [] => True
  | d :: ds => d.IsRead ∧ ItemsRead ds

/-- `IsRead` of every member. -/
def MembersRead : List (String × Datum) → Prop
  | [] => True
  | (_, d) :: ms => d.IsRead ∧ MembersRead ms

end

section
variable {ds : List Datum} {ms : List (String × Datum)} {n : Nat}

/-- Items are written data one by one. -/
theorem itemsWritten_iff : ItemsWritten ds ↔ ∀ d ∈ ds, d.IsWritten := by
  induction ds with
  | nil => simp [ItemsWritten]
  | cons d ds ih => rw [ItemsWritten, ih, List.forall_mem_cons]

/-- Members are written data one by one. -/
theorem membersWritten_iff :
    MembersWritten ms ↔ ∀ m ∈ ms, Text.IsPlain m.1 ∧ m.2.IsWritten := by
  induction ms with
  | nil => simp [MembersWritten]
  | cons m ms ih => rw [MembersWritten, ih, List.forall_mem_cons, and_assoc]

/-- Items are as deep as the deepest of them. -/
theorem itemsDepth_le_iff : itemsDepth ds ≤ n ↔ ∀ d ∈ ds, d.depth ≤ n := by
  induction ds with
  | nil => simp [itemsDepth]
  | cons d ds ih => rw [itemsDepth, Nat.max_le, ih, List.forall_mem_cons]

/-- Members are as deep as the deepest of them. -/
theorem membersDepth_le_iff : membersDepth ms ≤ n ↔ ∀ m ∈ ms, m.2.depth ≤ n := by
  induction ms with
  | nil => simp [membersDepth]
  | cons m ms ih => rw [membersDepth, Nat.max_le, ih, List.forall_mem_cons]

/-- The numbers of items are changed one by one. -/
theorem withNumbersItems_eq (f : Numeral → Numeral) :
    withNumbersItems f ds = ds.map (withNumbers f) := by
  induction ds with
  | nil => rfl
  | cons d ds ih => rw [withNumbersItems, ih, List.map_cons]

/-- The numbers of members are changed one by one. -/
theorem withNumbersMembers_eq (f : Numeral → Numeral) :
    withNumbersMembers f ms = ms.map fun m => (m.1, m.2.withNumbers f) := by
  induction ms with
  | nil => rfl
  | cons m ms ih => rw [withNumbersMembers, ih, List.map_cons]

/-- The texts of items are changed one by one. -/
theorem withTextsItems_eq (f : String → String) :
    withTextsItems f ds = ds.map (withTexts f) := by
  induction ds with
  | nil => rfl
  | cons d ds ih => rw [withTextsItems, ih, List.map_cons]

/-- The texts of members are changed one by one. -/
theorem withTextsMembers_eq (f : String → String) :
    withTextsMembers f ms = ms.map fun m => (f m.1, m.2.withTexts f) := by
  induction ms with
  | nil => rfl
  | cons m ms ih => rw [withTextsMembers, ih, List.map_cons]

end

/-- Members in a row are written data if their parts are. -/
theorem membersWritten_append : ∀ as bs : List (String × Datum),
    MembersWritten (as ++ bs) ↔ MembersWritten as ∧ MembersWritten bs
  | [], bs => by simp [MembersWritten]
  | (k, d) :: as, bs => by
    simp [MembersWritten, membersWritten_append as bs, and_assoc]

/-- The numbers of members in a row are changed in their parts. -/
theorem withNumbersMembers_append (f : Numeral → Numeral) : ∀ as bs : List (String × Datum),
    withNumbersMembers f (as ++ bs) = withNumbersMembers f as ++ withNumbersMembers f bs
  | [], _ => rfl
  | (k, d) :: as, bs => by
    rw [List.cons_append, withNumbersMembers, withNumbersMembers_append f as bs]
    rfl

mutual

/-- A datum is as deep with other texts. -/
theorem depth_withTexts (f : String → String) : ∀ d : Datum, (d.withTexts f).depth = d.depth
  | .list ds => congrArg (· + 1) (itemsDepth_withTexts f ds)
  | .tables ds => congrArg (· + 1) (itemsDepth_withTexts f ds)
  | .table ms => congrArg (· + 1) (membersDepth_withTexts f ms)
  | .null | .flag _ | .number _ | .text _ | .bytes _ | .instant _ | .other => rfl

/-- `depth_withTexts` for the items of a list. -/
theorem itemsDepth_withTexts (f : String → String) : ∀ ds : List Datum,
    itemsDepth (withTextsItems f ds) = itemsDepth ds
  | [] => rfl
  | d :: ds => by
    rw [withTextsItems, itemsDepth, itemsDepth, depth_withTexts f d, itemsDepth_withTexts f ds]

/-- `depth_withTexts` for the members of a table. -/
theorem membersDepth_withTexts (f : String → String) : ∀ ms : List (String × Datum),
    membersDepth (withTextsMembers f ms) = membersDepth ms
  | [] => rfl
  | (_, d) :: ms => by
    rw [withTextsMembers, membersDepth, membersDepth, depth_withTexts f d,
      membersDepth_withTexts f ms]

end

mutual

/-- Keeping the form of all numbers changes nothing. -/
theorem withNumbers_id : ∀ d : Datum, d.withNumbers id = d
  | .null | .flag _ | .number _ | .text _ | .bytes _ | .instant _ | .other => rfl
  | .list xs => by rw [withNumbers, withNumbersItems_id xs]
  | .tables xs => by rw [withNumbers, withNumbersItems_id xs]
  | .table ms => by rw [withNumbers, withNumbersMembers_id ms]

/-- `withNumbers_id` for the items of a list. -/
theorem withNumbersItems_id : ∀ ds : List Datum, withNumbersItems id ds = ds
  | [] => rfl
  | d :: ds => by rw [withNumbersItems, withNumbers_id d, withNumbersItems_id ds]

/-- `withNumbers_id` for the members of a table. -/
theorem withNumbersMembers_id : ∀ ms : List (String × Datum), withNumbersMembers id ms = ms
  | [] => rfl
  | (k, d) :: ms => by rw [withNumbersMembers, withNumbers_id d, withNumbersMembers_id ms]

end

mutual

/-- Written data hold no number that a decimal text cannot write. -/
theorem isWritable_of_isWritten : ∀ {d : Datum}, d.IsWritten → d.isWritable = true
  | .null, _ | .flag _, _ | .text _, _ | .number (.integer _), _ => rfl
  | .number (.float _), h => h
  | .list _, h => allWritable_of_itemsWritten h
  | .table _, h => membersWritable_of_membersWritten h

/-- `isWritable_of_isWritten` for the items of a list. -/
theorem allWritable_of_itemsWritten : ∀ {ds : List Datum}, ItemsWritten ds → allWritable ds = true
  | [], _ => rfl
  | _ :: _, h => by
    rw [allWritable, isWritable_of_isWritten h.1, allWritable_of_itemsWritten h.2]
    rfl

/-- `isWritable_of_isWritten` for the members of a table. -/
theorem membersWritable_of_membersWritten : ∀ {ms : List (String × Datum)}, MembersWritten ms →
    membersWritable ms = true
  | [], _ => rfl
  | (_, _) :: _, h => by
    rw [membersWritable, isWritable_of_isWritten h.2.1, membersWritable_of_membersWritten h.2.2]
    rfl

end

end InfraSmells.Datum
