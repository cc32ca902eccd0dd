import InfraSmells.Design.Lines
import InfraSmells.Proofs.Failing
import Mathlib.Algebra.BigOperators.Fin
import Mathlib.Data.List.Induction

/-!
# Windows of characters and the starts that share a hash

The hash of a window is rolled on from the hash of the window before it. It is the one that is computed
from the characters of the window itself (`getElem?_windowHashes`), so windows of the same characters
have the same hash: the number that these characters spell in the base of the hash, the first of them
weighing most, as far as 64 bits hold it (`windowHash_windowAt`). Each start is filed once under the hash
of its window (`files_filedUnder`), and looking up by their places the characters that a step takes away and
adds never fails (`lookedUp?_eq`). A start is repeated if and only if another start has its hash
(`mem_repeatedStarts`); repeated starts come hash by hash, and increasing among those of one hash
(`repeatedStarts_pairwise`). Of these, `uncovered` keeps the ones that lie in no window kept before:
none is left without a window around it (`exists_uncovered`), and none lies in a window kept before it
(`uncovered_pairwise`).
-/

namespace InfraSmells.Design

/-- The window of `w` characters that begins at `s`. -/
def windowAt (w : Nat) (cs : List Char) (s : Nat) : List Char :=
  (cs.drop s).take w

/-! ## The rolling hash -/

/-- One more character behind a window. -/
theorem windowHash_concat (cs : List Char) (c : Char) :
    windowHash (cs ++ [c]) = windowHash cs * rollBase + charHash c := by
  simp [windowHash]

/-- The first character of a window weighs most. -/
theorem windowHash_cons (c : Char) (cs : List Char) :
    windowHash (c :: cs) = charHash c * rollBase ^ cs.length + windowHash cs := by
  induction cs using List.reverseRecOn with
  | nil => simp [windowHash]
  | append_singleton cs d ih =>
    rw [← List.cons_append, windowHash_concat, windowHash_concat, ih, List.length_append,
      List.length_singleton]
    -- What the base is does not matter, and is not to be computed with.
    generalize rollBase = base
    grind

/-- A step of the rolling hash takes the first character away and adds one at the end. -/
theorem windowHash_roll (c d : Char) (cs : List Char) :
    (windowHash (c :: cs) - charHash c * rollBase ^ cs.length) * rollBase + charHash d =
      windowHash (cs ++ [d]) := by
  rw [windowHash_cons, windowHash_concat]
  generalize rollBase = base
  grind

/-- The weight of the first character of a window. -/
theorem foldl_power (n : Nat) :
    (List.range n).foldl (fun p _ => p * rollBase) 1 = rollBase ^ n := by
  induction n with
  | zero => rfl
  | succ n ih =>
    rw [List.range_succ, List.foldl_append, ih]
    exact (UInt64.pow_succ rollBase n).symm

/-- The hashes that follow that of the first window are those of the windows that follow it. -/
theorem getElem?_rollFrom (v : Nat) : ∀ cs : List Char, v + 1 ≤ cs.length → ∀ s,
    (rollFrom (rollBase ^ v) (windowHash (cs.take (v + 1))) (cs.zip (cs.drop (v + 1))))[s]? =
      if s + 1 + (v + 1) ≤ cs.length then some (windowHash (windowAt (v + 1) cs (s + 1))) else none
  | [], h, _ => nomatch h
  | c :: cs, h, s => by
    rw [List.drop_succ_cons]
    rcases Nat.lt_or_ge v cs.length with hv | hv
    · -- The next character behind the first window is the one at `v`.
      have hnext : (windowHash ((c :: cs).take (v + 1)) - charHash c * rollBase ^ v) * rollBase +
          charHash cs[v] = windowHash (cs.take (v + 1)) := by
        have hlength : (cs.take v).length = v := List.length_take_of_le (Nat.le_of_lt hv)
        have hroll := windowHash_roll c cs[v] (cs.take v)
        rwa [hlength, List.take_append_getElem hv] at hroll
      rw [List.drop_eq_getElem_cons hv, List.zip_cons_cons, rollFrom, hnext]
      cases s with
      | zero =>
        rw [if_pos (by simp only [List.length_cons]; omega)]
        rfl
      | succ s =>
        rw [List.getElem?_cons_succ, getElem?_rollFrom v cs hv s]
        refine if_congr ?_ rfl rfl
        simp only [List.length_cons]
        omega
    · rw [List.drop_eq_nil_of_le hv, List.zip_nil_right, rollFrom, List.getElem?_nil, if_neg]
      simp only [List.length_cons]
      omega

/-- The hashes of a text are those of its windows, in the order of their starts. -/
theorem getElem?_windowHashes {w : Nat} {cs : List Char} (hw : 0 < w) (h : w ≤ cs.length) (s : Nat) :
    (windowHashes w cs)[s]? =
      if s + w ≤ cs.length then some (windowHash (windowAt w cs s)) else none := by
  obtain ⟨v, rfl⟩ := Nat.exists_eq_add_of_lt hw
  rw [Nat.zero_add] at h ⊢
  unfold windowHashes
  simp only [Nat.add_sub_cancel, foldl_power]
  cases s with
  | zero => simp [windowAt, h]
  | succ s => rw [List.getElem?_cons_succ, getElem?_rollFrom v cs h s]

/-! ## The number that a window spells -/

section
variable {w s : Nat} {code : List Char}

/-- The number that the characters of the window at `s` spell in the base of the hash. -/
def spelled (w : Nat) (code : List Char) (s : Nat) (h : s + w ≤ code.length) : Nat :=
  ∑ j : Fin w, (code.get ⟨s + j, by omega⟩).toNat * 1000003 ^ (w - 1 - j)

/-- The first character of a window weighs most in the number. -/
theorem spelled_succ (h : s + (w + 1) ≤ code.length) :
    spelled (w + 1) code s h =
      (code.get ⟨s, by omega⟩).toNat * 1000003 ^ w + spelled w code (s + 1) (by omega) := by
  rw [spelled, Fin.sum_univ_succ]
  congr 1
  refine Finset.sum_congr rfl fun j _ => ?_
  have hplace : s + (j.succ : Fin (w + 1)).val = s + 1 + j.val := by
    rw [Fin.val_succ]
    omega
  have hweight : w + 1 - 1 - (j.succ : Fin (w + 1)).val = w - 1 - j.val := by
    rw [Fin.val_succ]
    omega
  simp only [hplace, hweight]

/-- Weights wrap around as numbers do. -/
theorem rollBase_pow (n : Nat) : rollBase ^ n = UInt64.ofNat (1000003 ^ n) := by
  induction n with
  | zero => rfl
  | succ n ih =>
    rw [UInt64.pow_succ, ih, pow_succ, UInt64.ofNat_mul]
    rfl

/-- The hash of a window is the number that it spells. -/
theorem windowHash_windowAt (h : s + w ≤ code.length) :
    windowHash (windowAt w code s) = UInt64.ofNat (spelled w code s h) := by
  induction w generalizing s with
  | zero => rfl
  | succ w ih =>
    have hlt : s < code.length := by omega
    have hcons : windowAt (w + 1) code s = code[s] :: windowAt w code (s + 1) := by
      rw [windowAt, List.drop_eq_getElem_cons hlt, List.take_succ_cons]
      rfl
    have hlength : (windowAt w code (s + 1)).length = w := by
      rw [windowAt, List.length_take, List.length_drop]
      omega
    rw [hcons, windowHash_cons, hlength, ih (by omega), spelled_succ, UInt64.ofNat_add, UInt64.ofNat_mul,
      rollBase_pow]
    rfl

/-! ## Characters by their places -/

/-- The hashes of the windows from the start `s` on, where `h` is the hash of the window at `s` and every
character is looked up by its place: nothing if there is none. -/
def lookedUpFrom? (w : Nat) (power : UInt64) (code : List Char) (s : Nat) (h : UInt64) :
    Option (List UInt64) :=
  if s + w < code.length then do
    let old ← code[s]?
    let new ← code[s + w]?
    let later ← lookedUpFrom? w power code (s + 1) ((h - charHash old * power) * rollBase + charHash new)
    return h :: later
  else some [h]
termination_by code.length - s

/-- The hashes of all windows, where every character is looked up by its place. -/
def lookedUp? (w : Nat) (code : List Char) : Option (List UInt64) := do
  let first ← (List.range w).mapM fun j => code[j]?
  lookedUpFrom? w (rollBase ^ (w - 1)) code 0 (windowHash first)

/-- From each start on there is a character at each place that is looked up. -/
theorem lookedUpFrom?_eq (power : UInt64) (s : Nat) (h : UInt64) (hs : s + w ≤ code.length) :
    lookedUpFrom? w power code s h =
      some (h :: rollFrom power h ((code.drop s).zip (code.drop (s + w)))) := by
  fun_induction lookedUpFrom? w power code s h with
  | case1 s h hlt ih =>
    -- The window does not end the text, so there are a first character of it and one behind it.
    have hold : s < code.length := Nat.lt_of_le_of_lt (Nat.le_add_right s w) hlt
    have hnext : s + 1 + w = s + w + 1 := Nat.add_right_comm s 1 w
    have hlater := ih code[s] code[s + w] (hnext ▸ hlt)
    simp only [List.getElem?_eq_getElem hold, List.getElem?_eq_getElem hlt, Option.bind_eq_bind,
      Option.bind_some, hlater]
    rw [List.drop_eq_getElem_cons hold, List.drop_eq_getElem_cons hlt, List.zip_cons_cons, rollFrom, hnext]
    rfl
  | case2 s h hge =>
    rw [List.drop_eq_nil_of_le (Nat.le_of_not_lt hge), List.zip_nil_right, rollFrom]

/-- There is a character at each place that is looked up. -/
theorem lookedUp?_eq (h : w ≤ code.length) : lookedUp? w code = some (windowHashes w code) := by
  have hfirst : (List.range w).mapM (fun j => code[j]?) = some (code.take w) := by
    rw [mapM_eq_some_iff, List.forall₂_iff_get]
    refine ⟨by rw [List.length_range, List.length_take_of_le h], fun j hj _ => ?_⟩
    rw [List.length_range] at hj
    simp [Nat.lt_of_lt_of_le hj h]
  have hstart : 0 + w ≤ code.length := by rwa [Nat.zero_add]
  have hall := lookedUpFrom?_eq (rollBase ^ (w - 1)) 0 (windowHash (code.take w)) hstart
  rw [List.drop_zero, Nat.zero_add] at hall
  rw [lookedUp?, hfirst, windowHashes, foldl_power]
  exact hall

end

/-! ## The starts of a hash -/

/-- The places of a hash, in increasing order. -/
def startsOf (hashes : List UInt64) (h : UInt64) : List Nat :=
  (hashes.zipIdx.filter (·.1 = h)).map Prod.snd

/-- Starts are kept by their hash. -/
theorem getD_startsByHash (hashes : List UInt64) (h : UInt64) :
    (startsByHash hashes).getD h [] = startsOf hashes h := by
  unfold startsByHash startsOf
  induction hashes.zipIdx with
  | nil => simp
  | cons x rest ih =>
    obtain ⟨k, i⟩ := x
    rw [List.foldr_cons, Std.HashMap.getD_insert]
    by_cases hk : k = h
    · subst hk
      simp [ih]
    · simp [hk, ih]

/-- The places of a hash are where it stands. -/
theorem mem_startsOf {hashes : List UInt64} {h : UInt64} {s : Nat} :
    s ∈ startsOf hashes h ↔ hashes[s]? = some h := by
  simp only [startsOf, List.mem_map, List.mem_filter, decide_eq_true_eq, Prod.exists,
    exists_eq_right, List.mem_zipIdx_iff_getElem?]

/-- The places of a hash increase. -/
theorem startsOf_pairwise (hashes : List UInt64) (h : UInt64) :
    (startsOf hashes h).Pairwise (· < ·) := by
  have hall : (hashes.zipIdx.map Prod.snd).Pairwise (· < ·) := by
    rw [List.zipIdx_map_snd]
    exact List.pairwise_lt_range' 1
  exact hall.sublist (List.filter_sublist.map _)

/-- What is listed at a place of a hash: all starts of the hash if they are two or more and the place is the
first of them, and nothing elsewhere. -/
def groupOf (starts : List Nat) (i : Nat) : List Nat :=
  match starts with
  | first :: second :: rest => if first = i then first :: second :: rest else []
  | _ => []

/-- Repeated starts are listed hash by hash. -/
theorem repeatedStarts_eq (hashes : List UInt64) :
    repeatedStarts hashes = hashes.zipIdx.flatMap fun x => groupOf (startsOf hashes x.1) x.2 := by
  have hgroups : repeatedStarts hashes = hashes.zipIdx.flatMap fun x =>
      groupOf ((startsByHash hashes).getD x.1 []) x.2 := rfl
  simp only [hgroups, getD_startsByHash]

/-- Unless nothing is listed, all starts are, the place is the first of them, and there is another one. -/
theorem groupOf_cases (starts : List Nat) (i : Nat) :
    groupOf starts i = [] ∨
      (groupOf starts i = starts ∧ ∃ second rest, starts = i :: second :: rest) := by
  unfold groupOf
  split
  · next first second rest =>
    split
    · next hfirst => exact .inr ⟨rfl, second, rest, hfirst ▸ rfl⟩
    · exact .inl rfl
  · exact .inl rfl

/-- A start is repeated if and only if another start has its hash. -/
theorem mem_repeatedStarts {hashes : List UInt64} {s : Nat} :
    s ∈ repeatedStarts hashes ↔ ∃ h, hashes[s]? = some h ∧ ∃ t, t ≠ s ∧ hashes[t]? = some h := by
  simp only [repeatedStarts_eq, List.mem_flatMap, Prod.exists, List.mem_zipIdx_iff_getElem?]
  constructor
  · rintro ⟨h, i, -, hs⟩
    rcases groupOf_cases (startsOf hashes h) i with heq | ⟨heq, second, rest, hstarts⟩
    · rw [heq] at hs
      cases hs
    · rw [heq] at hs
      have hlt : i < second := by
        have hpairwise := startsOf_pairwise hashes h
        rw [hstarts] at hpairwise
        exact List.rel_of_pairwise_cons hpairwise (.head _)
      have hi : i ∈ startsOf hashes h := hstarts ▸ .head _
      have hsecond : second ∈ startsOf hashes h := hstarts ▸ .tail _ (.head _)
      refine ⟨h, mem_startsOf.1 hs, ?_⟩
      by_cases hsi : s = i
      · exact ⟨second, hsi ▸ Nat.ne_of_gt hlt, mem_startsOf.1 hsecond⟩
      · exact ⟨i, Ne.symm hsi, mem_startsOf.1 hi⟩
  · rintro ⟨h, hs, t, hne, ht⟩
    have hs' := mem_startsOf.2 hs
    have ht' := mem_startsOf.2 ht
    cases hstarts : startsOf hashes h with
    | nil =>
      rw [hstarts] at hs'
      cases hs'
    | cons first rest =>
      cases rest with
      | nil =>
        rw [hstarts, List.mem_singleton] at hs' ht'
        exact absurd (ht'.trans hs'.symm) hne
      | cons second rest =>
        have hfirst : first ∈ startsOf hashes h := hstarts ▸ .head _
        refine ⟨h, first, mem_startsOf.1 hfirst, ?_⟩
        unfold groupOf
        rw [hstarts] at hs' ⊢
        simpa using hs'

/-- Among the starts of one hash, the one listed first comes first. -/
theorem repeatedStarts_pairwise (hashes : List UInt64) :
    (repeatedStarts hashes).Pairwise fun s t => hashes[s]? = hashes[t]? → s < t := by
  rw [repeatedStarts_eq, List.pairwise_flatMap]
  constructor
  · rintro ⟨h, i⟩ -
    rcases groupOf_cases (startsOf hashes h) i with heq | ⟨heq, -⟩
    · rw [heq]
      exact .nil
    · rw [heq]
      refine List.Pairwise.imp ?_ (startsOf_pairwise hashes h)
      exact fun hlt _ => hlt
  · -- Groups at different places are of different hashes.
    have hplaces : hashes.zipIdx.Pairwise fun x y => x.2 < y.2 := by
      rw [← List.pairwise_map, List.zipIdx_map_snd]
      exact List.pairwise_lt_range' 1
    refine hplaces.imp ?_
    rintro ⟨h, i⟩ ⟨k, j⟩ hij s hs t ht hsame
    rcases groupOf_cases (startsOf hashes h) i with heq | ⟨heq, _, _, hstarts⟩
    · rw [heq] at hs
      cases hs
    rcases groupOf_cases (startsOf hashes k) j with heq' | ⟨heq', _, _, hstarts'⟩
    · rw [heq'] at ht
      cases ht
    rw [heq, mem_startsOf] at hs
    rw [heq', mem_startsOf] at ht
    rw [hs, ht, Option.some.injEq] at hsame
    subst hsame
    rw [hstarts, List.cons.injEq] at hstarts'
    exact absurd hstarts'.1 (Nat.ne_of_lt hij)

/-! ## Filing -/

section
variable {w s : Nat} {code : List Char}

/-- The starts that are filed under a hash. -/
def filedUnder (w : Nat) (code : List Char) (k : UInt64) : List Nat :=
  (startsByHash (windowHashes w code)).getD k []

/-- A start is filed under the hash of its window. -/
theorem mem_filedUnder (hw : 0 < w) (h : w ≤ code.length) {k : UInt64} :
    s ∈ filedUnder w code k ↔ s + w ≤ code.length ∧ windowHash (windowAt w code s) = k := by
  rw [filedUnder, getD_startsByHash, mem_startsOf, getElem?_windowHashes hw h,
    Option.ite_none_right_eq_some, Option.some.injEq]

/-- No start is filed twice under a hash. -/
theorem nodup_filedUnder (w : Nat) (code : List Char) (k : UInt64) : (filedUnder w code k).Nodup := by
  rw [filedUnder, getD_startsByHash]
  exact (startsOf_pairwise _ k).imp Nat.ne_of_lt

/-- The starts of the windows of a text are filed by numbers: each once under what its window spells modulo
2 ^ 64 and under no other number, and nothing else is filed. -/
structure Files (w : Nat) (code : List Char) (filed : UInt64 → List Nat) : Prop where
  once : ∀ (s : Nat) (h : s + w ≤ code.length) (k : UInt64),
    (filed k).count s = if k.toNat = spelled w code s h % 2 ^ 64 then 1 else 0
  fits : ∀ k, ∀ s ∈ filed k, s + w ≤ code.length
  shared : ∀ s t, s + w ≤ code.length → t + w ≤ code.length →
    windowAt w code s = windowAt w code t → ∃ k, s ∈ filed k ∧ t ∈ filed k

theorem files_filedUnder (hw : 0 < w) (h : w ≤ code.length) : Files w code (filedUnder w code) := by
  refine ⟨fun s hs k => ?_, fun k s hs => ((mem_filedUnder hw h).1 hs).1, fun s t hs ht hsame => ?_⟩
  · have hkey : k.toNat = spelled w code s hs % 2 ^ 64 ↔ s ∈ filedUnder w code k := by
      rw [mem_filedUnder hw h, windowHash_windowAt hs, ← UInt64.toNat_ofNat', UInt64.toNat_inj]
      exact ⟨fun heq => ⟨hs, heq.symm⟩, fun hmem => hmem.2.symm⟩
    split
    · next heq => exact List.count_eq_one_of_mem (nodup_filedUnder w code k) (hkey.1 heq)
    · next hne => exact List.count_eq_zero_of_not_mem (mt hkey.2 hne)
  · exact ⟨_, (mem_filedUnder hw h).2 ⟨hs, rfl⟩, (mem_filedUnder hw h).2 ⟨ht, hsame ▸ rfl⟩⟩

end

/-! ## Windows that are kept -/

/-- Starts are kept in their order. -/
theorem uncovered_sublist (w : Nat) (l kept : List Nat) : (uncovered w kept l).Sublist l := by
  induction l generalizing kept with
  | nil => exact .slnil
  | cons s l ih =>
    unfold uncovered
    split
    · exact (ih kept).cons s
    · exact (ih _).cons_cons s

/-- Every start lies in a window that is kept. -/
theorem exists_uncovered {w : Nat} (hw : 0 < w) {s : Nat} (l kept : List Nat) (hs : s ∈ l) :
    ∃ f, (f ∈ kept ∨ f ∈ uncovered w kept l) ∧ f ≤ s ∧ s < f + w := by
  induction l generalizing kept with
  | nil => cases hs
  | cons r l ih =>
    unfold uncovered
    split
    · next hcovered =>
      rcases List.mem_cons.1 hs with rfl | hs
      · simp only [List.any_eq_true, Bool.and_eq_true, decide_eq_true_eq] at hcovered
        obtain ⟨f, hf, hle, hlt⟩ := hcovered
        exact ⟨f, .inl hf, hle, hlt⟩
      · exact ih kept hs
    · rcases List.mem_cons.1 hs with rfl | hs
      · exact ⟨s, .inr (.head _), Nat.le_refl s, Nat.lt_add_of_pos_right hw⟩
      · obtain ⟨f, hf, hcovers⟩ := ih (r :: kept) hs
        refine ⟨f, ?_, hcovers⟩
        rcases hf with hf | hf
        · rcases List.mem_cons.1 hf with rfl | hf
          · exact .inr (.head _)
          · exact .inl hf
        · exact .inr (.tail _ hf)

/-- No start that is kept lies in a window kept before. -/
theorem uncovered_pairwise (w : Nat) (l kept : List Nat) :
    (uncovered w kept l).Pairwise (fun f g => ¬(f ≤ g ∧ g < f + w)) ∧
      ∀ g ∈ uncovered w kept l, ∀ f ∈ kept, ¬(f ≤ g ∧ g < f + w) := by
  induction l generalizing kept with
  | nil => exact ⟨.nil, fun g hg => nomatch hg⟩
  | cons s l ih =>
    unfold uncovered
    split
    · exact ih kept
    · next hfree =>
      obtain ⟨hpairwise, hkept⟩ := ih (s :: kept)
      refine ⟨.cons (fun g hg => hkept g hg s (.head _)) hpairwise, fun g hg f hf => ?_⟩
      rcases List.mem_cons.1 hg with rfl | hg
      · intro hcovers
        refine hfree (List.any_eq_true.2 ⟨f, hf, ?_⟩)
        simpa using hcovers
      · exact hkept g hg f (.tail _ hf)

end InfraSmells.Design
