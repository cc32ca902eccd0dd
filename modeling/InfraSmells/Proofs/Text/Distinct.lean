import InfraSmells.Proofs.Finding.Order
import InfraSmells.Proofs.Text.Bytes
import Mathlib.Data.List.Sort

/-!
# Texts sorted and each once

`Text.sortDistinct` gives the texts of a list in strictly increasing order
(`Text.increasing_sortDistinct`), as long as they are carried: then no two of them stand for the same
bytes. Increasing lists are known by the texts in them (`Text.Increasing.eq_of_mem_iff`).
-/

namespace InfraSmells.Text

open Std (TransCmp OrientedCmp LawfulEqCmp)

/-- Texts are in strictly increasing order. -/
def Increasing (ss : List String) : Prop :=
  ss.Pairwise fun a b => compareText a b = .lt

instance : DecidablePred Increasing :=
  fun ss => inferInstanceAs (Decidable (ss.Pairwise fun a b => compareText a b = .lt))

/-- Texts are compared by their bytes. -/
theorem compareText_eq_compareOn : compareText = compareOn toBytes := by
  funext a b
  rw [compareText, compareBytes_eq]
  rfl

instance : TransCmp compareText := by
  rw [compareText_eq_compareOn]
  infer_instance

/-- Carried texts are equal in the order only if they are the same. -/
theorem IsCarried.eq_of_compareText {a b : String} (ha : IsCarried a) (hb : IsCarried b)
    (h : compareText a b = .eq) : a = b := by
  rw [compareText, compareBytes_eq] at h
  exact ha.eq_of_toBytes hb (LawfulEqCmp.compare_eq_iff_eq.1 h)

/-- The order of texts is transitive. -/
theorem le_trans (a b c : String) (hab : le a b = true) (hbc : le b c = true) : le a c = true := by
  simp only [le, bne_iff_ne, ne_eq, ← Ordering.isLE_iff_ne_gt] at *
  exact TransCmp.isLE_trans hab hbc

/-- Any two texts can be sorted. -/
theorem le_total (a b : String) : (le a b || le b a) = true := by
  have hswap : compareText b a = (compareText a b).swap := OrientedCmp.eq_swap
  rw [le, le, hswap]
  cases compareText a b <;> rfl

/-- Removing repetitions leaves none. -/
theorem nodup_eraseDups : ∀ ss : List String, ss.eraseDups.Nodup
  | [] => .nil
  | s :: ss => by
    rw [List.eraseDups_cons]
    refine List.nodup_cons.2 ⟨?_, nodup_eraseDups _⟩
    simp [List.mem_eraseDups]
termination_by ss => ss.length
decreasing_by exact Nat.lt_succ_of_le (List.length_filter_le _ _)

/-- Sorting keeps each text. -/
theorem mem_sortDistinct {s : String} {ss : List String} : s ∈ sortDistinct ss ↔ s ∈ ss := by
  rw [sortDistinct, (List.mergeSort_perm _ _).mem_iff, List.mem_eraseDups]

/-- Carried texts are strictly increasing once they are sorted. -/
theorem increasing_sortDistinct {ss : List String} (h : ∀ s ∈ ss, IsCarried s) :
    Increasing (sortDistinct ss) := by
  have hnodup : (sortDistinct ss).Nodup :=
    (List.mergeSort_perm ss.eraseDups le).nodup_iff.2 (nodup_eraseDups ss)
  have hsorted := List.pairwise_mergeSort le_trans le_total ss.eraseDups
  refine List.Pairwise.imp_of_mem (fun {a b} ha hb ⟨hle, hne⟩ => ?_) (hsorted.and hnodup)
  cases hab : compareText a b with
  | lt => rfl
  | eq =>
    exact absurd ((h a (mem_sortDistinct.1 ha)).eq_of_compareText (h b (mem_sortDistinct.1 hb)) hab)
      hne
  | gt =>
    rw [le, hab] at hle
    cases hle

/-- Increasing lists of the same texts are the same. -/
theorem Increasing.eq_of_mem_iff {as bs : List String} (ha : Increasing as) (hb : Increasing bs)
    (h : ∀ s, s ∈ as ↔ s ∈ bs) : as = bs := by
  have : Std.Asymm fun a b : String => compareText a b = .lt :=
    ⟨fun a b hab hba => by
      have hswap : compareText b a = (compareText a b).swap := OrientedCmp.eq_swap
      rw [hab, hba] at hswap
      cases hswap⟩
  exact List.Pairwise.eq_of_mem_iff ha hb h

/-- An increasing list of the same carried texts is the sorted list. -/
theorem sortDistinct_eq {ss ts : List String} (hss : ∀ s ∈ ss, IsCarried s) (hts : Increasing ts)
    (hsub : ss ⊆ ts) (hsub' : ts ⊆ ss) : sortDistinct ss = ts :=
  (increasing_sortDistinct hss).eq_of_mem_iff hts fun _ =>
    mem_sortDistinct.trans ⟨fun hs => hsub hs, fun hs => hsub' hs⟩

end InfraSmells.Text
