import InfraSmells.Proofs.Text.Bytes
import InfraSmells.Source.File
import InfraSmells.Text.Encoded
import Mathlib.Data.List.Induction

/-!
# Newlines among bytes

A newline is one byte, and no other character has this byte among its own. So the newlines of a text
are counted by its bytes, however these are carried: cutting a text between bytes keeps the count
(`Text.bytesOf_splitBytes`), and the number of lines of a source file is the number of its newlines,
and one more for what follows the last (`Text.length_linesOf_dropReturns`).
-/

namespace InfraSmells.Text

/-- What follows a beginning makes the whole with it. -/
theorem eq_append_of_afterStart : ∀ {start cs rest : List Char},
    afterStart start cs = some rest → cs = start ++ rest
  | [], _, _, h => Option.some.inj h
  | _ :: _, [], _, h => nomatch h
  | s :: start, c :: cs, rest, h => by
    rw [afterStart] at h
    split at h
    · next hsame => rw [hsame, eq_append_of_afterStart h, List.cons_append]
    · cases h

/-- The bytes of characters. -/
def bytesOf (cs : List Char) : List UInt8 :=
  cs.flatMap charBytes

@[simp] theorem bytesOf_nil : bytesOf [] = [] := rfl

@[simp] theorem bytesOf_cons (c : Char) (cs : List Char) :
    bytesOf (c :: cs) = charBytes c ++ bytesOf cs := rfl

@[simp] theorem bytesOf_append (as bs : List Char) :
    bytesOf (as ++ bs) = bytesOf as ++ bytesOf bs :=
  List.flatMap_append

/-- Characters without bytes are none. -/
theorem bytesOf_ne_nil {cs : List Char} (h : cs ≠ []) : bytesOf cs ≠ [] :=
  mt eq_nil_of_bytes h

/-! ## The byte of a newline -/

/-- The byte of a newline. -/
abbrev lineFeed : UInt8 := 0x0A

/-- A newline is one byte. -/
theorem charBytes_newline : charBytes '\n' = [lineFeed] := by
  decide

/-- The bytes of a character outside ASCII are no ASCII bytes. -/
theorem high_of_mem_charBytes {c : Char} (hc : 0x80 ≤ c.toNat) {b : UInt8} (hb : b ∈ charBytes c) :
    0x80 ≤ b.toNat := by
  have ⟨hle, hs⟩ := toNat_char c
  have hv : c.val.toNat = c.toNat := rfl
  unfold charBytes at hb
  split at hb
  · next hstray =>
    simp only [isStray, Bool.and_eq_true, decide_eq_true_eq] at hstray
    rw [List.mem_singleton] at hb
    rw [hb, toNat_ofNat_byte (by omega)]
    omega
  · unfold String.utf8EncodeChar at hb
    simp only [hv] at hb
    split at hb
    · omega
    split at hb
    · simp only [List.mem_cons, List.not_mem_nil, or_false] at hb
      rcases hb with rfl | rfl <;> rw [toNat_ofNat_byte (by omega)] <;> omega
    split at hb
    · simp only [List.mem_cons, List.not_mem_nil, or_false] at hb
      rcases hb with rfl | rfl | rfl <;> rw [toNat_ofNat_byte (by omega)] <;> omega
    · simp only [List.mem_cons, List.not_mem_nil, or_false] at hb
      rcases hb with rfl | rfl | rfl | rfl <;> rw [toNat_ofNat_byte (by omega)] <;> omega

/-- The byte of a character of ASCII is in no other character. -/
theorem ascii_notMem_charBytes {c d : Char} (hd : d.toNat < 0x80) (hc : c ≠ d) :
    UInt8.ofNat d.toNat ∉ charBytes c := by
  have hbyte : (UInt8.ofNat d.toNat).toNat = d.toNat := toNat_ofNat_byte (by omega)
  intro hmem
  by_cases hhigh : 0x80 ≤ c.toNat
  · have hout := high_of_mem_charBytes hhigh hmem
    omega
  · have hstray : isStray c = false := by
      simp only [isStray, Bool.and_eq_false_iff, decide_eq_false_iff_not]
      omega
    have hv : c.val.toNat = c.toNat := rfl
    rw [charBytes, hstray, if_neg Bool.false_ne_true, String.utf8EncodeChar] at hmem
    simp only [hv] at hmem
    rw [if_pos (by omega), List.mem_singleton] at hmem
    refine hc (Char.toNat_inj.1 ?_)
    rw [← hbyte, hmem, toNat_ofNat_byte (by omega)]

/-- The byte of a newline is in no other character. -/
theorem lineFeed_notMem_charBytes {c : Char} (hc : c ≠ '\n') : lineFeed ∉ charBytes c :=
  ascii_notMem_charBytes (by decide) hc

/-- The newlines of characters are counted by their bytes. -/
theorem count_lineFeed (cs : List Char) : (bytesOf cs).count lineFeed = cs.count '\n' := by
  induction cs with
  | nil => rfl
  | cons c cs ih =>
    rw [bytesOf_cons, List.count_append, ih]
    by_cases hc : c = '\n'
    · rw [hc, charBytes_newline, List.count_singleton_self, List.count_cons_self, Nat.add_comm]
    · rw [List.count_eq_zero.2 (lineFeed_notMem_charBytes hc), List.count_cons_of_ne hc,
        Nat.zero_add]

/-- Characters end with a newline if their bytes do. -/
theorem getLast?_bytesOf (cs : List Char) :
    (bytesOf cs).getLast? = some lineFeed ↔ cs.getLast? = some '\n' := by
  induction cs using List.reverseRecOn with
  | nil => simp
  | append_singleton cs c =>
    have hlast : (bytesOf (cs ++ [c])).getLast? = (charBytes c).getLast? := by
      rw [bytesOf_append, bytesOf_cons, bytesOf_nil, List.append_nil, List.getLast?_append,
        List.getLast?_eq_some_getLast (charBytes_ne_nil c), Option.some_or]
    rw [hlast, List.getLast?_concat, Option.some_inj]
    refine ⟨fun h => ?_, fun h => by rw [h, charBytes_newline]; rfl⟩
    by_contra hc
    exact lineFeed_notMem_charBytes hc (List.mem_of_getLast? h)

/-! ## Cutting between bytes -/

/-- A character of several bytes is outside ASCII. -/
theorem high_of_length_charBytes {c : Char} (h : 1 < (charBytes c).length) : 0x80 ≤ c.toNat := by
  by_contra hlow
  have hv : c.val.toNat = c.toNat := rfl
  unfold charBytes at h
  split at h
  · exact Nat.lt_irrefl _ h
  · rw [String.utf8EncodeChar] at h
    simp only [hv] at h
    rw [if_pos (by omega)] at h
    exact Nat.lt_irrefl _ h

/-- Bytes outside ASCII that are carried one by one stand for themselves. -/
theorem bytesOf_map_stray {bs : List UInt8} (h : ∀ b ∈ bs, 0x80 ≤ b.toNat) :
    bytesOf (bs.map stray) = bs := by
  induction bs with
  | nil => rfl
  | cons b bs ih =>
    obtain ⟨hb, hbs⟩ := List.forall_mem_cons.1 h
    rw [List.map_cons, bytesOf_cons, (charBytes_stray hb).2, ih hbs]
    rfl

/-- A cut between bytes loses none. -/
theorem bytesOf_splitBytes : ∀ (n : Nat) (cs : List Char),
    bytesOf (splitBytes n cs).1 ++ bytesOf (splitBytes n cs).2 = bytesOf cs
  | 0, cs => by rw [splitBytes, bytesOf_nil, List.nil_append]
  | _ + 1, [] => rfl
  | n + 1, c :: cs => by
    rw [splitBytes]
    split
    · have ih := bytesOf_splitBytes (n + 1 - (charBytes c).length) cs
      simp only [bytesOf_cons, List.append_assoc, ih]
    · next hlong =>
      have hhigh : ∀ b ∈ charBytes c, 0x80 ≤ b.toNat := fun b hb =>
        high_of_mem_charBytes (high_of_length_charBytes (by omega)) hb
      have hfront := bytesOf_map_stray fun b hb => hhigh b (List.mem_of_mem_take (i := n + 1) hb)
      have hback := bytesOf_map_stray fun b hb => hhigh b (List.mem_of_mem_drop (i := n + 1) hb)
      rw [bytesOf_append, hfront, hback, ← List.append_assoc, List.take_append_drop, bytesOf_cons]

/-- A cut behind some bytes takes a character. -/
theorem splitBytes_ne_nil {n : Nat} {cs : List Char} (hn : 0 < n) (hcs : cs ≠ []) :
    (splitBytes n cs).1 ≠ [] := by
  obtain ⟨n, rfl⟩ := Nat.exists_eq_add_one_of_ne_zero (Nat.ne_of_gt hn)
  cases cs with
  | nil => exact absurd rfl hcs
  | cons c cs =>
    rw [splitBytes]
    split
    · exact List.cons_ne_nil _ _
    · simpa using charBytes_ne_nil c

/-! ## Lines -/

/-- Characters have a line. -/
theorem linesOf_ne_nil (c : Char) (cs : List Char) : linesOf (c :: cs) ≠ [] := by
  rw [linesOf]
  split
  · exact List.cons_ne_nil _ _
  · split <;> exact List.cons_ne_nil _ _

/-- There are as many lines as newlines, and one more if something follows the last. -/
theorem length_linesOf : ∀ cs : List Char, (linesOf cs).length =
    cs.count '\n' + if cs = [] ∨ cs.getLast? = some '\n' then 0 else 1
  | [] => rfl
  | c :: cs => by
    have ih := length_linesOf cs
    rw [linesOf]
    by_cases hc : c = '\n'
    · rw [if_pos hc, List.length_cons, ih, hc, List.count_cons_self]
      cases cs with
      | nil => rfl
      | cons d ds => simp only [List.cons_ne_nil, false_or, List.getLast?_cons_cons]; omega
    · rw [if_neg hc, List.count_cons_of_ne hc]
      cases cs with
      | nil => simp [linesOf, hc]
      | cons d ds =>
        simp only [List.cons_ne_nil, false_or, List.getLast?_cons_cons] at ih ⊢
        rw [← ih]
        split
        · next hnone => exact absurd hnone (linesOf_ne_nil d ds)
        · next hsome => rw [hsome]; rfl

/-- Dropping the carriage returns before newlines keeps the newlines. -/
theorem count_dropReturns (cs : List Char) :
    (SourceFile.dropReturns cs).count '\n' = cs.count '\n' := by
  fun_induction SourceFile.dropReturns cs with
  | case1 => rfl
  | case2 cs ih => simp [ih]
  | case3 c cs _ ih => simp [List.count_cons, ih]

/-- Dropping the carriage returns before newlines keeps the last character. -/
theorem getLast?_dropReturns (cs : List Char) :
    (SourceFile.dropReturns cs).getLast? = cs.getLast? := by
  fun_induction SourceFile.dropReturns cs with
  | case1 => rfl
  | case2 cs ih => simp [List.getLast?_cons, ih]
  | case3 c cs _ ih => simp [List.getLast?_cons, ih]

/-- The lines of a source file are counted by its bytes. -/
theorem length_linesOf_dropReturns {cs : List Char} (hcs : cs ≠ []) :
    (linesOf (SourceFile.dropReturns cs)).length = (bytesOf cs).count lineFeed +
      if (bytesOf cs).getLast? = some lineFeed then 0 else 1 := by
  have hne : SourceFile.dropReturns cs ≠ [] := by
    rw [← List.getLast?_isSome, getLast?_dropReturns, List.getLast?_isSome]
    exact hcs
  rw [length_linesOf, count_dropReturns, getLast?_dropReturns, count_lineFeed]
  simp only [hne, false_or, getLast?_bytesOf]

end InfraSmells.Text
