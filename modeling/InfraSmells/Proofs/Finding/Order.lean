import InfraSmells.Finding.Bag

/-!
# The order of findings

The order by path, line and code is a total preorder in which exactly the findings of one key are
equal (`Finding.order_eq_iff`). Sorting what has no repetitions therefore gives a strictly
increasing list (`Finding.sort_strict`), and removing repetitions keeps the first finding of each
key (`Finding.mem_dedup_iff`).
-/

namespace InfraSmells

open Std (TransCmp OrientedCmp LawfulEqCmp)

/-- The order of byte sequences is the lexicographic one. -/
theorem Text.compareBytes_eq : ∀ as bs, compareBytes as bs = List.compareLex compare as bs
  | [], [] => rfl
  | [], _ :: _ => rfl
  | _ :: _, [] => rfl
  | a :: as, b :: bs => by
    rw [compareBytes, List.compareLex_cons_cons, compareBytes_eq as bs]

namespace Finding

/-- Findings are compared by the bytes of their paths, their lines and the bytes of their codes. -/
theorem order_eq_compareLex : order =
    compareLex (compareOn fun f => Text.toBytes f.path)
      (compareLex (compareOn (·.line)) (compareOn fun f => Text.toBytes f.code)) := by
  funext a b
  simp only [order, Text.compareText, Text.compareBytes_eq]
  rfl

instance : TransCmp order := by
  rw [order_eq_compareLex]
  infer_instance

/-- The findings that are equal in the order are those with the same key. -/
theorem order_eq_iff {a b : Finding} : order a b = .eq ↔ a.key = b.key := by
  simp only [order, Text.compareText, Text.compareBytes_eq, Ordering.then_eq_eq,
    LawfulEqCmp.compare_eq_iff_eq, key, Prod.mk.injEq]
  exact ⟨fun ⟨hp, hl, hc⟩ => ⟨hc, hp, hl⟩, fun ⟨hc, hp, hl⟩ => ⟨hp, hl, hc⟩⟩

/-- Sorting changes the order only. -/
theorem sort_perm (fs : List Finding) : (sort fs).Perm fs :=
  List.mergeSort_perm fs _

/-- The order by which findings are sorted is transitive. -/
theorem not_gt_trans (a b c : Finding) (hab : (order a b != .gt) = true)
    (hbc : (order b c != .gt) = true) : (order a c != .gt) = true := by
  simp only [bne_iff_ne, ne_eq, ← Ordering.isLE_iff_ne_gt] at *
  exact TransCmp.isLE_trans hab hbc

/-- Any two findings can be sorted. -/
theorem not_gt_total (a b : Finding) : (order a b != .gt || order b a != .gt) = true := by
  have hswap : order b a = (order a b).swap := OrientedCmp.eq_swap
  rw [hswap]
  cases order a b <;> rfl

/-- Sorted findings never decrease. -/
theorem sort_pairwise (fs : List Finding) : (sort fs).Pairwise fun a b => order a b ≠ .gt :=
  (List.pairwise_mergeSort not_gt_trans not_gt_total fs).imp fun h => by simpa using h

/-- Findings without repetitions are strictly increasing once they are sorted. -/
theorem sort_strict {fs : List Finding} (h : fs.Pairwise fun a b => a.key ≠ b.key) :
    (sort fs).Pairwise fun a b => order a b = .lt := by
  have hkeys : (sort fs).Pairwise fun a b => a.key ≠ b.key :=
    (sort_perm fs).symm.pairwise h fun hab => hab.symm
  refine ((sort_pairwise fs).and hkeys).imp fun {a b} ⟨hle, hne⟩ => ?_
  cases hab : order a b with
  | lt => rfl
  | eq => exact absurd (order_eq_iff.1 hab) hne
  | gt => exact absurd hab hle

/-- What is left of findings once those of the keys `seen` and all repetitions are gone: the first
of each other key. -/
theorem mem_dedupFrom_iff {f : Finding} : ∀ (fs : List Finding) (seen : List Key),
    f ∈ dedupFrom seen fs ↔ f.key ∉ seen ∧ fs.find? (fun g => g.key = f.key) = some f
  | [], seen => by simp [dedupFrom]
  | g :: fs, seen => by
    unfold dedupFrom
    by_cases hg : g.key = f.key
    · by_cases hseen : f.key ∈ seen
      · simp [hg, hseen, mem_dedupFrom_iff fs seen]
      · have hlater : f ∉ dedupFrom (f.key :: seen) fs := by
          simp [mem_dedupFrom_iff fs]
        simp [hg, hseen, hlater, eq_comm]
    · have hne : f ≠ g := fun h => hg (h ▸ rfl)
      split
      · simp [hg, mem_dedupFrom_iff fs seen]
      · simp [hne, hg, mem_dedupFrom_iff fs, Ne.symm hg]

/-- A finding is kept if and only if it is the first of its key. -/
theorem mem_dedup_iff {f : Finding} {fs : List Finding} :
    f ∈ dedup fs ↔ fs.find? (fun g => g.key = f.key) = some f := by
  simp [dedup, mem_dedupFrom_iff]

/-- No key is left twice. -/
theorem dedupFrom_pairwise : ∀ (fs : List Finding) (seen : List Key),
    (dedupFrom seen fs).Pairwise fun a b => a.key ≠ b.key
  | [], _ => .nil
  | f :: fs, seen => by
    unfold dedupFrom
    split
    · exact dedupFrom_pairwise fs seen
    · refine .cons (fun g hg => ?_) (dedupFrom_pairwise fs _)
      have ⟨hnew, _⟩ := (mem_dedupFrom_iff fs _).1 hg
      exact fun h => hnew (h ▸ .head _)

end Finding

end InfraSmells
