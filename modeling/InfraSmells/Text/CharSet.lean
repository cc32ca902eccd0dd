import InfraSmells.Text.Search

/-!
# Sets of characters given by ranges

A property of characters is data of a standard, written as a text of hexadecimal ranges such as
`"41-5A 61-7A AA"` in increasing order. `CharSet.ofText` reads such a text and `CharSet.contains`
finds a character by bisection. `CharMap` attaches a number to each range.
-/

namespace InfraSmells.Text

/-- The value of a hexadecimal digit; any other character counts as zero. -/
def hexDigitValue (c : Char) : Nat :=
  if '0' ≤ c && c ≤ '9' then c.toNat - '0'.toNat
  else if 'A' ≤ c && c ≤ 'F' then c.toNat - 'A'.toNat + 10
  else if 'a' ≤ c && c ≤ 'f' then c.toNat - 'a'.toNat + 10
  else 0

/-- The value of a hexadecimal numeral. -/
def hexValue (cs : List Char) : Nat :=
  cs.foldl (fun n c => 16 * n + hexDigitValue c) 0

/-- A range `lo-hi`, or a single character written once. -/
def parseRange (cs : List Char) : Nat × Nat :=
  match cutAt ['-'] cs with
  | some (lo, hi) => (hexValue lo, hexValue hi)
  | none => (hexValue cs, hexValue cs)

/-- A set of characters as increasing, disjoint ranges. -/
structure CharSet where
  ranges : Array (Nat × Nat)

namespace CharSet

/-- Reads ranges separated by blanks and newlines. -/
def ofText (s : String) : CharSet where
  ranges := ((words s.toList).map parseRange).toArray

/-- Bisection between the positions `lo` and `hi`. -/
def find (ranges : Array (Nat × Nat)) (n : Nat) : Nat → Nat → Nat → Option Nat
  | 0, _, _ => none
  | fuel + 1, lo, hi =>
    if lo < hi then
      let mid := (lo + hi) / 2
      match ranges[mid]? with
      | none => none
      | some (a, b) =>
        if n < a then find ranges n fuel lo mid
        else if b < n then find ranges n fuel (mid + 1) hi
        else some mid
    else none

/-- Is the character in the set? -/
def contains (s : CharSet) (c : Char) : Bool :=
  (find s.ranges c.toNat 32 0 s.ranges.size).isSome

end CharSet

/-- A number for each of some increasing, disjoint ranges of characters. -/
structure CharMap where
  keys : Array (Nat × Nat)
  values : Array Nat

namespace CharMap

/-- Reads entries `lo-hi:value` separated by blanks and newlines, the values in decimal. -/
def ofText (s : String) : CharMap :=
  let entries := (words s.toList).map fun entry =>
    match cutAt [':'] entry with
    | some (range, value) =>
      (parseRange range, value.foldl (fun n c => 10 * n + (c.toNat - '0'.toNat)) 0)
    | none => (parseRange entry, 0)
  { keys := (entries.map Prod.fst).toArray, values := (entries.map Prod.snd).toArray }

/-- The number of a character, zero when it is in no range. -/
def get (m : CharMap) (c : Char) : Nat :=
  match CharSet.find m.keys c.toNat 32 0 m.keys.size with
  | some i => m.values[i]?.getD 0
  | none => 0

end CharMap

end InfraSmells.Text
