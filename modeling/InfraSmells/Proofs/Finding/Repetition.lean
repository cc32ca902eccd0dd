import InfraSmells.Proofs.Finding.Order
import Mathlib.Data.List.Sort

/-!
# Repetitions removed early or late

Findings may pass a reporter one by one, or be collected first and rid of repetitions before or
after they are sorted, all at once or part by part. It comes to the same list each time
(`Finding.dedup_early_eq_late`): for each key that was reported it holds the first finding of that
key, and it is strictly increasing. Two facts carry this. A sorted list keeps the findings of one
key in their order (`Finding.filter_sort`), and of these only the first is left when repetitions are
removed (`Finding.filter_dedup`).
-/

namespace InfraSmells.Finding

/-- Findings reported one after the other are those that were collected before, and behind them what
is left once the keys already reported and all repetitions are gone. -/
theorem reports_eq_dedupFrom : ∀ (fs found : List Finding) (r : Reporter),
    (fs.foldl (fun s f => s.1.report s.2 f) (r, found)).2 = found ++ dedupFrom r.seen fs
  | [], found, r => (List.append_nil found).symm
  | f :: fs, found, r => by
    rw [List.foldl_cons, dedupFrom]
    by_cases hf : f.key ∈ r.seen
    · have hreport : r.report found f = (r, found) := if_pos hf
      rw [if_pos hf, hreport, reports_eq_dedupFrom fs found r]
    · have hreport : r.report found f = ({ seen := f.key :: r.seen }, found ++ [f]) := if_neg hf
      rw [if_neg hf, hreport, reports_eq_dedupFrom fs _ _, List.append_assoc]
      rfl

/-! ## What is left of each key -/

/-- Sorting keeps the order of findings with the same key. -/
theorem filter_sort (fs : List Finding) (k : Key) :
    (sort fs).filter (·.key = k) = fs.filter (·.key = k) := by
  have hequal : (fs.filter (·.key = k)).Pairwise fun a b => (order a b != .gt) = true := by
    refine List.pairwise_of_forall_mem_list fun a ha b hb => ?_
    have hkey : a.key = b.key := by
      rw [of_decide_eq_true (List.mem_filter.1 ha).2, of_decide_eq_true (List.mem_filter.1 hb).2]
    rw [order_eq_iff.2 hkey]
    rfl
  have hsub : (fs.filter (·.key = k)).Sublist (sort fs) :=
    List.sublist_mergeSort not_gt_trans not_gt_total hequal List.filter_sublist
  have hfilter := hsub.filter (·.key = k)
  rw [List.filter_filter] at hfilter
  simp only [Bool.and_self] at hfilter
  exact (hfilter.eq_of_length ((sort_perm fs).filter _).length_eq.symm).symm

/-- Of the findings with one key only the first is left, and none if the key has been seen. -/
theorem filter_dedupFrom (k : Key) : ∀ (fs : List Finding) (seen : List Key),
    (dedupFrom seen fs).filter (·.key = k) =
      if k ∈ seen then [] else (fs.find? (·.key = k)).toList
  | [], seen => by simp [dedupFrom]
  | f :: fs, seen => by
    unfold dedupFrom
    by_cases hf : f.key = k
    · by_cases hseen : k ∈ seen
      · simp [hf, hseen, filter_dedupFrom k fs seen]
      · simp [hf, hseen, filter_dedupFrom k fs (k :: seen)]
    · have hne : k ≠ f.key := fun h => hf h.symm
      split
      · simp [hf, filter_dedupFrom k fs seen]
      · simp [hf, hne, filter_dedupFrom k fs (f.key :: seen)]

/-- Of the findings with one key only the first is left. -/
theorem filter_dedup (fs : List Finding) (k : Key) :
    (dedup fs).filter (·.key = k) = (fs.find? (·.key = k)).toList := by
  rw [dedup, filter_dedupFrom, if_neg List.not_mem_nil]

/-- What is left of findings stands in their order. -/
theorem dedupFrom_sublist : ∀ (fs : List Finding) (seen : List Key), (dedupFrom seen fs).Sublist fs
  | [], _ => .slnil
  | f :: fs, seen => by
    unfold dedupFrom
    split
    · exact (dedupFrom_sublist fs seen).cons f
    · exact (dedupFrom_sublist fs _).cons_cons f

/-- Sorted findings without repetitions are strictly increasing. -/
theorem dedup_sort_strict (fs : List Finding) :
    (dedup (sort fs)).Pairwise fun a b => order a b = .lt := by
  have hle := (sort_pairwise fs).sublist (dedupFrom_sublist (sort fs) [])
  refine (hle.and (dedupFrom_pairwise (sort fs) [])).imp fun {a b} ⟨hle, hne⟩ => ?_
  cases hab : order a b with
  | lt => rfl
  | eq => exact absurd (order_eq_iff.1 hab) hne
  | gt => exact absurd hab hle

/-- A finding that comes before another does not come after it. -/
theorem lt_asymm : Std.Asymm fun a b : Finding => order a b = .lt :=
  ⟨fun a b hab hba => by
    have hswap : order b a = (order a b).swap := Std.OrientedCmp.eq_swap
    rw [hab, hba] at hswap
    cases hswap⟩

/-- Strictly increasing findings are known by the findings of each key. -/
theorem eq_of_filter_key {as bs : List Finding} (ha : as.Pairwise fun a b => order a b = .lt)
    (hb : bs.Pairwise fun a b => order a b = .lt)
    (h : ∀ k, as.filter (·.key = k) = bs.filter (·.key = k)) : as = bs := by
  have hmem (cs : List Finding) (f : Finding) : f ∈ cs ↔ f ∈ cs.filter (·.key = f.key) := by
    simp
  have := lt_asymm
  refine ha.eq_of_mem_iff hb fun {f} => ?_
  rw [hmem as, hmem bs, h]

/-- Removing repetitions before or after sorting comes to the same. -/
theorem dedup_sort (fs : List Finding) : dedup (sort fs) = sort (dedup fs) := by
  refine eq_of_filter_key (dedup_sort_strict fs) (sort_strict (dedupFrom_pairwise fs []))
    fun k => ?_
  rw [filter_dedup, filter_sort, filter_dedup, ← List.head?_filter, filter_sort,
    List.head?_filter]

/-! ## Part by part -/

/-- Repetitions that were removed early are not missed later, as long as all keys that had been seen
then have been seen later as well. -/
theorem dedupFrom_dedupFrom_append (gs : List Finding) :
    ∀ (fs : List Finding) {early late : List Key}, early ⊆ late →
      dedupFrom late (dedupFrom early fs ++ gs) = dedupFrom late (fs ++ gs)
  | [], _, _, _ => rfl
  | f :: fs, early, late, h => by
    rw [dedupFrom, List.cons_append]
    by_cases hearly : f.key ∈ early
    · rw [if_pos hearly, dedupFrom_dedupFrom_append gs fs h, dedupFrom, if_pos (h hearly)]
    · rw [if_neg hearly, List.cons_append, dedupFrom, dedupFrom]
      split
      · next hlate =>
        exact dedupFrom_dedupFrom_append gs fs (List.cons_subset.2 ⟨hlate, h⟩)
      · rw [dedupFrom_dedupFrom_append gs fs (List.cons_subset_cons _ h)]

/-- What follows may be changed as long as it leaves the same, whichever keys have been seen. -/
theorem dedupFrom_append_congr {gs hs : List Finding}
    (h : ∀ seen, dedupFrom seen gs = dedupFrom seen hs) :
    ∀ (fs : List Finding) (seen : List Key), dedupFrom seen (fs ++ gs) = dedupFrom seen (fs ++ hs)
  | [], seen => h seen
  | f :: fs, seen => by
    simp only [List.cons_append, dedupFrom, dedupFrom_append_congr h fs]

/-- Removing repetitions from the parts first changes nothing. -/
theorem dedupFrom_flatten : ∀ (parts : List (List Finding)) (seen : List Key),
    dedupFrom seen (parts.map dedup).flatten = dedupFrom seen parts.flatten
  | [], _ => rfl
  | p :: ps, seen => by
    rw [List.map_cons, List.flatten_cons, List.flatten_cons, dedup,
      dedupFrom_dedupFrom_append _ p (List.nil_subset seen)]
    exact dedupFrom_append_congr (dedupFrom_flatten ps) p seen

/-- Repetitions may be removed as findings are reported, before they are sorted or afterwards, and
from parts of them first: the same findings are left, strictly increasing, and of each key the first
that was found. -/
theorem dedup_early_eq_late (fs : List Finding) :
    let once := sort (dedup fs)
    sort (fs.foldl (fun s f => s.1.report s.2 f) (({} : Reporter), ([] : List Finding))).2 = once ∧
      dedup (sort fs) = once ∧
      once.Pairwise (fun a b => order a b = .lt) ∧
      (∀ k, once.filter (·.key = k) = (fs.find? (·.key = k)).toList) ∧
      ∀ parts : List (List Finding), parts.flatten = fs →
        sort (dedup (parts.map dedup).flatten) = once := by
  refine ⟨?_, dedup_sort fs, sort_strict (dedupFrom_pairwise fs []), fun k => ?_, ?_⟩
  · rw [reports_eq_dedupFrom]
    rfl
  · rw [filter_sort, filter_dedup]
  · rintro parts rfl
    rw [dedup, dedupFrom_flatten, dedup]

/-- Of two findings at line 2, in different parts, the first is left, behind the one at line 1. -/
theorem dedup_early_eq_late_parts :
    let found (line : Int) (context : String) : Finding := { code := "c", path := "a", line, context }
    let parts := [[found 2 "first", found 1 "other"], [found 2 "second"]]
    let once := [found 1 "other", found 2 "first"]
    parts.flatten = [found 2 "first", found 1 "other", found 2 "second"] ∧
      sort (dedup (parts.map dedup).flatten) = once ∧ dedup (sort parts.flatten) = once := by
  intro found parts once
  obtain ⟨-, hlate, hordered, -, hparts⟩ := dedup_early_eq_late parts.flatten
  have hdedup : dedup parts.flatten = [found 2 "first", found 1 "other"] := by decide +kernel
  have honce : sort (dedup parts.flatten) = once := by
    have := lt_asymm
    refine hordered.eq_of_mem_iff (by decide +kernel) fun {f} => ?_
    rw [(sort_perm _).mem_iff, hdedup]
    simp [once, or_comm]
  exact ⟨rfl, (hparts parts rfl).trans honce, hlate.trans honce⟩
end InfraSmells.Finding
