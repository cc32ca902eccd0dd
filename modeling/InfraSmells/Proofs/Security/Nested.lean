import InfraSmells.Proofs.Tree.Literals
import InfraSmells.Security.Values
import Mathlib.Data.List.Shortlex

/-!
# Values in nested hashes

The values in a hash and in the hashes among them are known by their places, the indices of the entries
that lead down to them. They are looked at level by level: each place once, shorter ones first, and those
of one length in the order of the entries (`Security.exists_places`). A queue of hashes, which a hash leaves
when its entries are read and joins when it is found among them, runs empty after the same values
(`Security.ends_entryValues`). So the values that are reported are those with a matching literal in them,
and something is reported exactly if such a literal is not only in the keys of the outermost hash
(`Security.nested_values_reported`).
-/

namespace InfraSmells.Security

/-- The entries of a hash. -/
abbrev Entries := List (Expr × Expr)

/-- The entries of a value that is a hash. -/
def hashOf? : Expr → Option Entries
  | .hash _ inner => some inner
  | _ => none

/-- The entries of the hash to which indices lead: each is that of an entry whose value is a hash. -/
def hashAt? (entries : Entries) : List Nat → Option Entries
  | [] => some entries
  | i :: is => (entries[i]?.bind fun e => hashOf? e.2).bind (hashAt? · is)

/-- The value at a place: the last index is that of its entry, and those before lead to its hash. -/
def valueAt? (entries : Entries) : List Nat → Option Expr
  | [] => none
  | [i] => entries[i]?.map Prod.snd
  | i :: is => (entries[i]?.bind fun e => hashOf? e.2).bind (valueAt? · is)

/-! ## Places -/

theorem nestedHashes_eq :
    nestedHashes = fun entries : Entries => entries.filterMap fun e => hashOf? e.2 :=
  rfl

/-- One index more leads to a hash among the values of a hash. -/
theorem hashAt?_concat (i : Nat) : ∀ (entries : Entries) (path : List Nat),
    hashAt? entries (path ++ [i]) =
      (hashAt? entries path).bind fun es => es[i]?.bind fun e => hashOf? e.2
  | entries, [] => by simp [hashAt?]
  | entries, j :: path => by
    simp only [List.cons_append, hashAt?, Option.bind_assoc, hashAt?_concat i _ path]

/-- Behind the first index, a place leads to a value in the hash of this entry. -/
theorem valueAt?_cons {entries : Entries} {i : Nat} {is : List Nat} (h : is ≠ []) :
    valueAt? entries (i :: is) =
      (entries[i]?.bind fun e => hashOf? e.2).bind (valueAt? · is) := by
  cases is with
  | nil => exact absurd rfl h
  | cons => rfl

/-- The last index leads to a value of a hash. -/
theorem valueAt?_concat (i : Nat) : ∀ (entries : Entries) (path : List Nat),
    valueAt? entries (path ++ [i]) = (hashAt? entries path).bind fun es => es[i]?.map Prod.snd
  | entries, [] => rfl
  | entries, j :: path => by
    rw [List.cons_append, valueAt?_cons (by simp)]
    simp only [hashAt?, Option.bind_assoc, valueAt?_concat i _ path]

/-! ## Levels -/

/-- A hash, known by the indices that lead to it. -/
abbrev PlacedHash := List Nat × Entries

/-- Of paths of one length the earlier one stays so, whatever follows. -/
theorem append_lt_append {as bs : List Nat} (h : as < bs) (hlength : as.length = bs.length)
    (cs ds : List Nat) : as ++ cs < bs ++ ds := by
  induction h with
  | nil => cases hlength
  | cons _ ih => exact .cons (ih (Nat.succ.inj hlength))
  | rel hlt => exact .rel hlt

/-- What `f` gives for the values of hashes, in order, with the places of the values. -/
def expand {β : Type} (f : Expr → Option β) (level : List PlacedHash) : List (List Nat × β) :=
  level.flatMap fun h => h.2.zipIdx.filterMap fun e => (f e.1.2).map fun b => (h.1 ++ [e.2], b)

/-- The values of a level of hashes, then those of the hashes among them, down to `depth` levels, with
their places. -/
def placed : Nat → List PlacedHash → List (List Nat × Expr)
  | 0, _ => []
  | depth + 1, level => expand some level ++ placed depth (expand hashOf? level)

section
variable {β : Type} {f : Expr → Option β} {level : List PlacedHash}

/-- What is given for values, without their places. -/
theorem map_expand : (expand f level).map Prod.snd =
    (level.map Prod.snd).flatMap fun es => es.filterMap fun e => f e.2 := by
  have hentries (init : List Nat) (es : Entries) :
      (es.zipIdx.filterMap fun e => (f e.1.2).map fun b => (init ++ [e.2], b)).map Prod.snd =
        es.filterMap fun e => f e.2 := by
    have hfst : es.filterMap (fun e => f e.2) = (es.zipIdx.map Prod.fst).filterMap fun e => f e.2 := by
      rw [List.zipIdx_map_fst]
    rw [hfst, List.map_filterMap, List.filterMap_map]
    refine List.filterMap_congr fun e _ => ?_
    simp only [Option.map_map, Function.comp_def, Option.map_id']
  rw [expand, List.map_flatMap, List.flatMap_map]
  simp only [hentries]

/-- Each place of a value has one index more than leads to its hash. -/
theorem mem_expand {place : List Nat} {b : β} : (place, b) ∈ expand f level ↔
    ∃ path i, place = path ++ [i] ∧
      ∃ es, (path, es) ∈ level ∧ (es[i]?.bind fun e => f e.2) = some b := by
  simp only [expand, List.mem_flatMap, List.mem_filterMap, Option.map_eq_some_iff, Prod.mk.injEq,
    Option.bind_eq_some_iff]
  constructor
  · rintro ⟨⟨path, es⟩, hlevel, ⟨e, i⟩, he, b', hb, rfl, rfl⟩
    exact ⟨path, i, rfl, es, hlevel, e, List.mem_zipIdx_iff_getElem?.1 he, hb⟩
  · rintro ⟨path, i, rfl, es, hlevel, e, he, hb⟩
    exact ⟨(path, es), hlevel, (e, i), List.mem_zipIdx_iff_getElem?.2 he, b, hb, rfl, rfl⟩

/-- The places of values increase if those of the hashes do. -/
theorem expand_increasing {n : Nat} (hlength : ∀ h ∈ level, h.1.length = n)
    (hlevel : level.Pairwise fun h h' => h.1 < h'.1) :
    (expand f level).Pairwise fun v v' => v.1 < v'.1 := by
  refine List.pairwise_flatMap.2 ⟨fun h _ => ?_, ?_⟩
  · have hindices : h.2.zipIdx.Pairwise fun e e' => e.2 < e'.2 := by
      rw [← List.pairwise_map, List.zipIdx_map_snd]
      exact List.pairwise_lt_range'
    refine hindices.filterMap _ fun e e' hlt v hv v' hv' => ?_
    obtain ⟨b, -, rfl⟩ := Option.map_eq_some_iff.1 hv
    obtain ⟨b', -, rfl⟩ := Option.map_eq_some_iff.1 hv'
    exact List.append_left_lt (.rel hlt)
  · refine hlevel.imp_of_mem fun {h h'} hh hh' hlt v hv v' hv' => ?_
    obtain ⟨e, -, hb⟩ := List.mem_filterMap.1 hv
    obtain ⟨e', -, hb'⟩ := List.mem_filterMap.1 hv'
    obtain ⟨b, -, rfl⟩ := Option.map_eq_some_iff.1 hb
    obtain ⟨b', -, rfl⟩ := Option.map_eq_some_iff.1 hb'
    exact append_lt_append hlt ((hlength h hh).trans (hlength h' hh').symm) _ _

end

section
variable {entries : Entries} {n depth : Nat} {level : List PlacedHash} {place : List Nat} {v : Expr}

/-- The level holds the hashes to which `n` indices lead, in the order of these. -/
structure IsLevel (entries : Entries) (n : Nat) (level : List PlacedHash) : Prop where
  increasing : level.Pairwise fun h h' => h.1 < h'.1
  mem_iff : ∀ path es, (path, es) ∈ level ↔ path.length = n ∧ hashAt? entries path = some es

theorem isLevel_zero (entries : Entries) : IsLevel entries 0 [([], entries)] := by
  refine ⟨.cons nofun .nil, fun path es => ?_⟩
  rw [List.mem_singleton, Prod.mk.injEq, List.length_eq_zero_iff]
  refine and_congr_right ?_
  rintro rfl
  rw [hashAt?, Option.some.injEq, eq_comm]

theorem IsLevel.length_eq (h : IsLevel entries n level) : ∀ l ∈ level, l.1.length = n :=
  fun l hl => ((h.mem_iff l.1 l.2).1 hl).1

/-- The hashes among the values of a level are the next level. -/
theorem IsLevel.next (h : IsLevel entries n level) :
    IsLevel entries (n + 1) (expand hashOf? level) := by
  refine ⟨expand_increasing h.length_eq h.increasing, fun path es => ?_⟩
  rw [mem_expand]
  constructor
  · rintro ⟨path, i, rfl, es', hlevel, hes⟩
    obtain ⟨hlength, hpath⟩ := (h.mem_iff path es').1 hlevel
    exact ⟨by simp [hlength], by rw [hashAt?_concat, hpath, Option.bind_some, hes]⟩
  · rintro ⟨hlength, hpath⟩
    rcases List.eq_nil_or_concat' path with rfl | ⟨path, i, rfl⟩
    · cases hlength
    · rw [hashAt?_concat] at hpath
      obtain ⟨es', hes', hes⟩ := Option.bind_eq_some_iff.1 hpath
      exact ⟨path, i, rfl, es', (h.mem_iff path es').2 ⟨by simpa using hlength, hes'⟩, hes⟩

/-- The values of a level are those to whose places one index more leads. -/
theorem IsLevel.mem_values (h : IsLevel entries n level) :
    (place, v) ∈ expand some level ↔ place.length = n + 1 ∧ valueAt? entries place = some v := by
  rw [mem_expand]
  constructor
  · rintro ⟨path, i, rfl, es, hlevel, hv⟩
    obtain ⟨hlength, hpath⟩ := (h.mem_iff path es).1 hlevel
    refine ⟨by simp [hlength], ?_⟩
    rw [valueAt?_concat, hpath, Option.bind_some, ← hv, Option.map_eq_bind]
    rfl
  · rintro ⟨hlength, hv⟩
    rcases List.eq_nil_or_concat' place with rfl | ⟨path, i, rfl⟩
    · cases hlength
    · rw [valueAt?_concat] at hv
      obtain ⟨es, hes, hv⟩ := Option.bind_eq_some_iff.1 hv
      refine ⟨path, i, rfl, es, (h.mem_iff path es).2 ⟨by simpa using hlength, hes⟩, ?_⟩
      rw [← hv, Option.map_eq_bind]
      rfl

/-! ## All levels -/

/-- The places below a level are longer than its paths and lead to the values they are listed with. -/
theorem IsLevel.of_mem_placed (h : IsLevel entries n level) (hv : (place, v) ∈ placed depth level) :
    n < place.length ∧ valueAt? entries place = some v := by
  induction depth generalizing n level with
  | zero => cases hv
  | succ depth ih =>
    rcases List.mem_append.1 hv with hv | hv
    · obtain ⟨hlength, hvalue⟩ := h.mem_values.1 hv
      exact ⟨by omega, hvalue⟩
    · obtain ⟨hlength, hvalue⟩ := ih h.next hv
      exact ⟨by omega, hvalue⟩

/-- Shorter places come first, and those of one length in the order of the entries. -/
theorem IsLevel.placed_increasing (h : IsLevel entries n level) :
    (placed depth level).Pairwise fun v v' => List.Shortlex (· < ·) v.1 v'.1 := by
  induction depth generalizing n level with
  | zero => exact .nil
  | succ depth ih =>
    refine List.pairwise_append.2 ⟨?_, ih h.next, ?_⟩
    · refine (expand_increasing h.length_eq h.increasing).imp_of_mem fun {v v'} hv hv' hlt => ?_
      have hlength := (h.mem_values.1 hv).1.trans (h.mem_values.1 hv').1.symm
      exact .of_lex hlength hlt
    · rintro ⟨place, v⟩ hv ⟨place', v'⟩ hv'
      have hlength := (h.mem_values.1 hv).1
      have hlength' := (h.next.of_mem_placed hv').1
      refine .of_length_lt (show place.length < place'.length from ?_)
      omega

/-- What leads to a value leads to hashes before. -/
theorem exists_hashAt? {rest : List Nat} (hrest : rest ≠ []) : ∀ {entries : Entries} {path : List Nat},
    valueAt? entries (path ++ rest) = some v → ∃ es, hashAt? entries path = some es
  | entries, [], _ => ⟨entries, rfl⟩
  | entries, i :: path, h => by
    rw [List.cons_append, valueAt?_cons (List.append_ne_nil_of_right_ne_nil path hrest)] at h
    obtain ⟨inner, hinner, hv⟩ := Option.bind_eq_some_iff.1 h
    obtain ⟨es, hes⟩ := exists_hashAt? hrest hv
    exact ⟨es, by rw [hashAt?, hinner, Option.bind_some, hes]⟩

/-- A hash is deeper than the values in it. -/
theorem hashDepth_le : ∀ {entries : Entries} {e : Expr × Expr}, e ∈ entries →
    hashDepth e.2 ≤ hashDepth.depthOf entries
  | (k, v) :: rest, e, h => by
    rw [hashDepth.depthOf]
    rcases List.mem_cons.1 h with rfl | h
    · exact Nat.le_max_left _ _
    · exact (hashDepth_le h).trans (Nat.le_max_right _ _)

/-- A hash among values is less deep than they are together. -/
theorem depthOf_lt {entries inner : Entries} {e : Expr × Expr} (he : e ∈ entries)
    (hinner : hashOf? e.2 = some inner) : hashDepth.depthOf inner < hashDepth.depthOf entries := by
  have hle := hashDepth_le he
  unfold hashOf? at hinner
  split at hinner
  · next heq =>
    cases hinner
    rw [heq, hashDepth] at hle
    omega
  · cases hinner

/-- Below a level every value is listed that is no deeper than asked for. -/
theorem IsLevel.mem_placed (h : IsLevel entries n level)
    (hdepth : ∀ l ∈ level, hashDepth.depthOf l.2 < depth) (hn : n < place.length)
    (hv : valueAt? entries place = some v) : (place, v) ∈ placed depth level := by
  induction depth generalizing n level with
  | zero =>
    have hrest : place.drop n ≠ [] := by simpa using hn
    rw [← List.take_append_drop n place] at hv
    obtain ⟨es, hes⟩ := exists_hashAt? hrest hv
    have hlevel := (h.mem_iff (place.take n) es).2 ⟨by simp; omega, hes⟩
    exact absurd (hdepth _ hlevel) (Nat.not_lt_zero _)
  | succ depth ih =>
    rcases Nat.lt_or_ge (n + 1) place.length with hlonger | hlast
    · refine List.mem_append_right _ (ih h.next ?_ hlonger)
      rintro ⟨path, inner⟩ hinner
      obtain ⟨path, i, rfl, es, hlevel, hi⟩ := mem_expand.1 hinner
      obtain ⟨e, he, hinner⟩ := Option.bind_eq_some_iff.1 hi
      have hless := depthOf_lt (List.mem_of_getElem? he) hinner
      have hes := hdepth _ hlevel
      dsimp only at hes ⊢
      omega
    · exact List.mem_append_left _ (h.mem_values.2 ⟨by omega, hv⟩)

/-- Without their places, the values are those of the entries. -/
theorem map_placed : ∀ (depth : Nat) (level : List PlacedHash),
    (placed depth level).map Prod.snd = entryValues depth (level.map Prod.snd)
  | 0, _ => rfl
  | depth + 1, level => by
    rw [placed, entryValues, List.map_append, map_expand, map_placed depth, map_expand]
    simp only [List.filterMap_eq_map', nestedHashes_eq]

end

/-! ## The queue of hashes -/

/-- The hashes that wait, the first of them in front, and the values seen so far. -/
structure Visit where
  waiting : List Entries
  seen : List Expr

/-- The first hash is left for its values, and the hashes among these join the others at the end. -/
def Visit.next? : Visit → Option Visit
  | ⟨[], _⟩ => none
  | ⟨entries :: waiting, seen⟩ => some ⟨waiting ++ nestedHashes entries, seen ++ entries.map Prod.snd⟩

/-- The visit comes to its end, with these values seen. -/
inductive Visit.Ends : Visit → List Expr → Prop
  | done {v : Visit} : v.next? = none → Ends v v.seen
  | step {v v' : Visit} {values : List Expr} : v.next? = some v' → Ends v' values → Ends v values

/-- A visit has one end. -/
theorem Visit.Ends.unique {v : Visit} {values values' : List Expr} (h : Ends v values)
    (h' : Ends v values') : values = values' := by
  induction h with
  | done hnone =>
    cases h' with
    | done => rfl
    | step hsome => cases hnone.symm.trans hsome
  | step hsome _ ih =>
    cases h' with
    | done hnone => cases hnone.symm.trans hsome
    | step hsome' hends =>
      cases hsome.symm.trans hsome'
      exact ih hends

/-- A level of hashes is left for its values, and the next level waits behind the others. -/
theorem Visit.Ends.of_level {values : List Expr} : ∀ {level later : List Entries} {seen : List Expr},
    Ends ⟨later ++ level.flatMap nestedHashes, seen ++ level.flatMap (·.map Prod.snd)⟩ values →
      Ends ⟨level ++ later, seen⟩ values
  | [], later, seen, h => by simpa using h
  | entries :: level, later, seen, h => by
    have hnext : Visit.next? ⟨entries :: level ++ later, seen⟩ =
        some ⟨level ++ (later ++ nestedHashes entries), seen ++ entries.map Prod.snd⟩ := by
      simp [Visit.next?]
    refine .step hnext (of_level ?_)
    simpa only [List.flatMap_cons, List.append_assoc] using h

/-- The visit of a level ends with the values below it. -/
theorem ends_entryValues {depth : Nat} : ∀ {level : List Entries} {seen : List Expr},
    (∀ entries ∈ level, hashDepth.depthOf entries < depth) →
      Visit.Ends ⟨level, seen⟩ (seen ++ entryValues depth level) := by
  induction depth with
  | zero =>
    intro level seen hdepth
    cases level with
    | nil =>
      rw [entryValues, List.append_nil]
      exact .done rfl
    | cons entries level => exact absurd (hdepth entries (by simp)) (Nat.not_lt_zero _)
  | succ depth ih =>
    intro level seen hdepth
    rw [entryValues, ← List.append_assoc, ← List.append_nil level]
    refine Visit.Ends.of_level ?_
    rw [List.nil_append, List.append_nil]
    refine ih fun inner hinner => ?_
    obtain ⟨entries, hentries, hinner⟩ := List.mem_flatMap.1 hinner
    rw [nestedHashes_eq] at hinner
    obtain ⟨e, he, hinner⟩ := List.mem_filterMap.1 hinner
    have hless := depthOf_lt he hinner
    have hes := hdepth entries hentries
    omega

/-! ## Reports -/

section
variable {path code : String} {pred : String → Bool}

/-- Something in a value is reported for itself if a string literal in it matches. -/
def matchFinding? (path code : String) (pred : String → Bool) (e : Expr) : Option Finding :=
  if e.strings.any pred then some (Finding.of code (.expr e) path) else none

/-- The string literals on which it depends whether something is reported: all but those in the keys of
the outermost hash. -/
def decisiveStrings : Expr → List String
  | .hash _ entries => entries.flatMap fun e => e.2.strings
  | e => e.strings

/-- The string literals of a value are among those of its hash. -/
theorem strings_subset : ∀ {entries : Entries} {e : Expr × Expr}, e ∈ entries →
    e.2.strings ⊆ Expr.stringsEntries entries
  | (k, v) :: rest, e, h => by
    rw [Expr.stringsEntries]
    rcases List.mem_cons.1 h with rfl | h
    · exact fun s hs => List.mem_append_left _ (List.mem_append_right _ hs)
    · exact fun s hs => List.mem_append_right _ (strings_subset h hs)

/-- The string literals of values at any depth are among those of the values of the first level. -/
theorem strings_entryValues {s : String} : ∀ {depth : Nat} {level : List Entries} {v : Expr},
    v ∈ entryValues depth level → s ∈ v.strings → ∃ entries ∈ level, ∃ e ∈ entries, s ∈ e.2.strings
  | depth + 1, level, v, hv, hs => by
    rw [entryValues, List.mem_append] at hv
    rcases hv with hv | hv
    · obtain ⟨entries, hentries, hv⟩ := List.mem_flatMap.1 hv
      obtain ⟨e, he, rfl⟩ := List.mem_map.1 hv
      exact ⟨entries, hentries, e, he, hs⟩
    · obtain ⟨inner, hinner, e, he, hs⟩ := strings_entryValues hv hs
      obtain ⟨entries, hentries, hinner⟩ := List.mem_flatMap.1 hinner
      rw [nestedHashes_eq] at hinner
      obtain ⟨outer, houter, hhash⟩ := List.mem_filterMap.1 hinner
      refine ⟨entries, hentries, outer, houter, ?_⟩
      unfold hashOf? at hhash
      split at hhash
      · next heq =>
        cases hhash
        rw [heq, Expr.strings]
        exact strings_subset he hs
      · cases hhash

/-- The values in a hash and in the hashes among them stand at places in increasing order, which are all
that lead to values. -/
theorem exists_places (entries : Entries) : ∃ places : List (List Nat),
    places.Pairwise (List.Shortlex (· < ·)) ∧
    (∀ place, place ∈ places ↔ (valueAt? entries place).isSome = true) ∧
    places.filterMap (valueAt? entries) =
      entryValues (hashDepth.depthOf entries + 1) [entries] := by
  have hlevel := isLevel_zero entries
  refine ⟨(placed (hashDepth.depthOf entries + 1) [([], entries)]).map Prod.fst,
    List.pairwise_map.2 hlevel.placed_increasing, fun place => ?_, ?_⟩
  · rw [List.mem_map, Option.isSome_iff_exists]
    constructor
    · rintro ⟨⟨place, v⟩, hv, rfl⟩
      exact ⟨v, (hlevel.of_mem_placed hv).2⟩
    · rintro ⟨v, hv⟩
      have hplace : 0 < place.length := by
        cases place with
        | nil => cases hv
        | cons => exact Nat.succ_pos _
      exact ⟨(place, v), hlevel.mem_placed (by simp) hplace hv, rfl⟩
  · have hvalues := map_placed (hashDepth.depthOf entries + 1) [([], entries)]
    rw [List.map_singleton] at hvalues
    rw [← hvalues, List.filterMap_map, ← List.filterMap_eq_map]
    exact List.filterMap_congr fun v hv => (hlevel.of_mem_placed hv).2

/-- What is reported about a hash. -/
theorem matchingValues_hash {p : Pair} {s : Span} {entries : Entries} (h : p.value = .hash s entries) :
    matchingValues p path code pred =
      (entryValues (hashDepth.depthOf entries + 1) [entries]).filterMap
        (matchFinding? path code pred) := by
  simp only [matchingValues, h, hashDepth, Expr.matchesString_eq_any]
  rfl

/-- What is reported about an array. -/
theorem matchingValues_array {p : Pair} {s : Span} {items : List Expr} (h : p.value = .array s items) :
    matchingValues p path code pred = items.filterMap (matchFinding? path code pred) := by
  simp only [matchingValues, h, Expr.matchesString_eq_any]
  rfl

/-- Something is reported for itself if a literal in some value matches. -/
theorem filterMap_matchFinding?_ne_nil {vs : List Expr} :
    vs.filterMap (matchFinding? path code pred) ≠ [] ↔ ∃ v ∈ vs, ∃ s ∈ v.strings, pred s = true := by
  rw [ne_eq, List.filterMap_eq_nil_iff]
  simp [matchFinding?]

/-- Whether a value matches at any depth is decided by the values of the first level. -/
theorem exists_entryValues_iff {entries : Entries} {depth : Nat} :
    (∃ v ∈ entryValues (depth + 1) [entries], ∃ s ∈ v.strings, pred s = true) ↔
      ∃ s ∈ entries.flatMap fun e => e.2.strings, pred s = true := by
  constructor
  · rintro ⟨v, hv, s, hs, hpred⟩
    obtain ⟨entries', hentries, e, he, hs⟩ := strings_entryValues hv hs
    cases List.mem_singleton.1 hentries
    exact ⟨s, List.mem_flatMap.2 ⟨e, he, hs⟩, hpred⟩
  · rintro ⟨s, hs, hpred⟩
    obtain ⟨e, he, hs⟩ := List.mem_flatMap.1 hs
    have hv : e.2 ∈ entryValues (depth + 1) [entries] := by
      rw [entryValues, List.flatMap_singleton]
      exact List.mem_append_left _ (List.mem_map_of_mem he)
    exact ⟨e.2, hv, s, hs, hpred⟩

/-- Something is reported through its pair if a literal in its value matches. -/
theorem ite_finding_ne_nil {e : Expr} {f : Finding} :
    (if e.strings.any pred then [f] else []) ≠ [] ↔ ∃ s ∈ e.strings, pred s = true := by
  rw [ite_ne_right_iff, List.any_eq_true]
  simp

/-- What is reported about a value. The values in a hash and in the hashes among them are looked at in the
order of their places, each once, which is how a queue of hashes meets them; those with a matching string
literal are reported, as are the items of an array. Any other value is reported through its pair. Something
is reported if and only if a literal matches that is not only in the keys of the outermost hash. -/
theorem nested_values_reported (p : Pair) (path code : String) (pred : String → Bool) :
    (match p.value with
      | .hash _ entries => ∃ places : List (List Nat),
          places.Pairwise (List.Shortlex (· < ·)) ∧
          (∀ place, place ∈ places ↔ (valueAt? entries place).isSome = true) ∧
          (∀ values, Visit.Ends ⟨[entries], []⟩ values ↔
            values = places.filterMap (valueAt? entries)) ∧
          matchingValues p path code pred =
            (places.filterMap (valueAt? entries)).filterMap (matchFinding? path code pred)
      | .array _ items =>
          matchingValues p path code pred = items.filterMap (matchFinding? path code pred)
      | e => matchingValues p path code pred =
          if e.strings.any pred then [Finding.of code (.pair p) path] else []) ∧
    (matchingValues p path code pred ≠ [] ↔ ∃ s ∈ decisiveStrings p.value, pred s = true) := by
  obtain ⟨span, kind, name, value, hasVariable, children⟩ := p
  cases value with
  | hash s entries =>
    obtain ⟨places, hplaces, hmem, hvalues⟩ := exists_places entries
    have hends : Visit.Ends ⟨[entries], []⟩ (places.filterMap (valueAt? entries)) := by
      rw [hvalues, ← List.nil_append (entryValues _ _)]
      exact ends_entryValues (by simp)
    refine ⟨⟨places, hplaces, hmem, fun values => ⟨fun h => h.unique hends, ?_⟩, ?_⟩, ?_⟩
    · rintro rfl
      exact hends
    · rw [hvalues]
      exact matchingValues_hash rfl
    · rw [matchingValues_hash rfl, filterMap_matchFinding?_ne_nil]
      exact exists_entryValues_iff
  | array s items =>
    refine ⟨matchingValues_array rfl, ?_⟩
    rw [matchingValues_array rfl, filterMap_matchFinding?_ne_nil]
    simp only [decisiveStrings, Expr.strings, Expr.stringsAll_eq_flatMap, List.mem_flatMap]
    constructor
    · rintro ⟨v, hv, s, hs, hpred⟩
      exact ⟨s, ⟨v, hv, hs⟩, hpred⟩
    · rintro ⟨s, ⟨v, hv, hs⟩, hpred⟩
      exact ⟨v, hv, s, hs, hpred⟩
  | absent | string _ _ | number _ _ | boolean _ _ | null _ | reference _ _ | call _ _ _
  | methodCall _ _ _ _ | unary _ _ _ | binary _ _ _ _ | conditional _ _ =>
    simp only [matchingValues, Expr.matchesString_eq_any, decisiveStrings, ite_finding_ne_nil,
      and_self]

end

end InfraSmells.Security
