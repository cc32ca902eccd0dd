import InfraSmells.Policy.Lookup
import Mathlib.Data.List.Basic

/-!
# Places of attributes

Two attributes of a resource may look the same, so an attribute is known by its place: the indices
that lead down to it. In the order of places an attribute stands before those in it, and these before
the attributes behind it. All attributes of a resource, depth first, are those at its places in this
order (`Policy.attributesOf_eq`, `Policy.places_increasing`), and the first attribute that is found
below a path of blocks stands at the first place that is found (`Policy.located_firstIn`).
-/

namespace InfraSmells.Policy

/-- The indices that lead to an attribute: its own among the attributes around it, then those of the
attributes in it. -/
abbrev Place := List Nat

/-- The attribute that indices lead to from another one, with the name of the block around it. -/
def pairAt? (parent : String) (p : Pair) : Place → Option (Pair × String)
  | [] => some (p, parent)
  | i :: is => p.children[i]?.bind fun q => pairAt? p.name q is

/-- The attribute at a place among others, with the name of the block around it. -/
def at? (parent : String) (ps : List Pair) : Place → Option (Pair × String)
  | [] => none
  | i :: is => ps[i]?.bind fun p => pairAt? parent p is

/-- The attribute of a resource at a place, with the name of the block around it. -/
def attributeAt? (r : Resource) (place : Place) : Option (Pair × String) :=
  at? "" r.attributes place

mutual

/-- What leads from an attribute to itself and to those in it, depth first. -/
def pairPlaces : Pair → List Place
  | ⟨_, _, _, _, _, children⟩ => [] :: placesFrom 0 children

/-- The places of attributes whose indices begin with the given one, depth first. -/
def placesFrom (i : Nat) : List Pair → List Place
  | [] => []
  | p :: ps => (pairPlaces p).map (i :: ·) ++ placesFrom (i + 1) ps

end

/-- The places of the attributes of a resource, depth first. -/
def places (r : Resource) : List Place :=
  placesFrom 0 r.attributes

/-! ## All attributes by their places -/

/-- The places of attributes are not empty, and they begin with the index of one of them. -/
theorem exists_cons_of_mem {place : Place} : ∀ {ps : List Pair} {i : Nat},
    place ∈ placesFrom i ps → ∃ j is, place = j :: is ∧ i ≤ j
  | p :: ps, i, h => by
    rw [placesFrom, List.mem_append] at h
    rcases h with h | h
    · obtain ⟨is, -, rfl⟩ := List.mem_map.1 h
      exact ⟨i, is, rfl, Nat.le_refl i⟩
    · obtain ⟨j, is, rfl, hj⟩ := exists_cons_of_mem h
      exact ⟨j, is, rfl, Nat.le_of_succ_le hj⟩

/-- Behind an attribute, indices lead to the attributes in it. -/
theorem pairAt?_eq {parent : String} {p : Pair} {place : Place} (h : place ≠ []) :
    pairAt? parent p place = at? p.name p.children place := by
  cases place with
  | nil => exact absurd rfl h
  | cons => rfl

mutual

/-- The attributes that places lead to from another one are those in it, depth first. -/
theorem map_pairAt? (parent : String) : ∀ p : Pair,
    (pairPlaces p).map (pairAt? parent p) = (pairWithin parent p).map some
  | ⟨span, kind, name, value, hasVariable, children⟩ => by
    rw [pairPlaces, pairWithin, List.map_cons, List.map_cons, ← map_at? name [] children]
    refine congrArg _ (List.map_congr_left fun place hplace => ?_)
    obtain ⟨j, is, rfl, -⟩ := exists_cons_of_mem hplace
    exact pairAt?_eq (List.cons_ne_nil j is)

/-- The attributes at places are all attributes, depth first. -/
theorem map_at? (parent : String) (before : List Pair) : ∀ ps : List Pair,
    (placesFrom before.length ps).map (at? parent (before ++ ps)) = (within parent ps).map some
  | [] => rfl
  | p :: ps => by
    have hhere : (fun is => at? parent (before ++ p :: ps) (before.length :: is)) =
        pairAt? parent p := by
      funext is
      simp [at?]
    have hbehind := map_at? parent (before ++ [p]) ps
    rw [List.length_append, List.append_assoc] at hbehind
    rw [placesFrom, within, List.map_append, List.map_append, List.map_map, ← map_pairAt? parent p,
      ← hbehind, ← hhere]
    rfl

end

/-- The attributes of a resource are those at its places. -/
theorem attributesOf_eq (r : Resource) :
    attributesOf r = (places r).filterMap (attributeAt? r) := by
  have hall := map_at? "" [] r.attributes
  have hmap : (places r).filterMap (attributeAt? r) =
      ((places r).map (attributeAt? r)).filterMap id := by
    rw [List.filterMap_map]
    rfl
  rw [hmap]
  show _ = ((placesFrom 0 r.attributes).map (at? "" r.attributes)).filterMap id
  rw [show (placesFrom 0 r.attributes).map (at? "" r.attributes) = _ from hall,
    List.filterMap_map]
  simp [attributesOf]

mutual

/-- What leads from an attribute to others is listed in increasing order. -/
theorem pairPlaces_increasing : ∀ p : Pair, (pairPlaces p).Pairwise (· < ·)
  | ⟨_, _, _, _, _, children⟩ => by
    rw [pairPlaces]
    refine .cons (fun place hplace => ?_) (placesFrom_increasing 0 children)
    obtain ⟨j, is, rfl, -⟩ := exists_cons_of_mem hplace
    exact List.nil_lt_cons j is

/-- Places are listed in increasing order. -/
theorem placesFrom_increasing (i : Nat) : ∀ ps : List Pair, (placesFrom i ps).Pairwise (· < ·)
  | [] => .nil
  | p :: ps => by
    rw [placesFrom, List.pairwise_append]
    refine ⟨?_, placesFrom_increasing (i + 1) ps, ?_⟩
    · refine List.pairwise_map.2 ((pairPlaces_increasing p).imp fun h => ?_)
      exact List.cons_lt_cons_iff.2 (.inr ⟨rfl, h⟩)
    · intro a ha b hb
      obtain ⟨is, -, rfl⟩ := List.mem_map.1 ha
      obtain ⟨j, js, rfl, hj⟩ := exists_cons_of_mem hb
      exact List.cons_lt_cons_iff.2 (.inl hj)

end

/-- The places of a resource are listed in increasing order. -/
theorem places_increasing (r : Resource) : (places r).Pairwise (· < ·) :=
  placesFrom_increasing 0 r.attributes

/-- A place is listed if its index is one of an attribute and the rest leads on from there. -/
theorem mem_placesFrom {is : Place} : ∀ {ps : List Pair} {i j : Nat},
    (i + j) :: is ∈ placesFrom i ps ↔ ∃ p, ps[j]? = some p ∧ is ∈ pairPlaces p
  | [], i, j => by simp [placesFrom]
  | p :: ps, i, j => by
    rw [placesFrom, List.mem_append]
    cases j with
    | zero =>
      have hbehind : (i + 0) :: is ∉ placesFrom (i + 1) ps := by
        intro h
        obtain ⟨j, js, heq, hj⟩ := exists_cons_of_mem h
        cases heq
        omega
      rw [or_iff_left hbehind]
      simp
    | succ j =>
      have hhere : (i + (j + 1)) :: is ∉ (pairPlaces p).map (i :: ·) := by
        simp
      have hnext : i + (j + 1) = i + 1 + j := by omega
      rw [or_iff_right hhere, hnext, mem_placesFrom]
      rfl

/-- Exactly the places that lead to an attribute are listed. -/
theorem mem_pairPlaces {parent : String} : ∀ {place : Place} {p : Pair},
    place ∈ pairPlaces p ↔ (pairAt? parent p place).isSome
  | [], ⟨_, _, _, _, _, _⟩ => by simp [pairPlaces, pairAt?]
  | j :: is, ⟨_, _, name, _, _, children⟩ => by
    have hmem : (0 + j) :: is ∈ placesFrom 0 children ↔ _ := mem_placesFrom
    rw [Nat.zero_add] at hmem
    rw [pairPlaces, List.mem_cons, or_iff_right (List.cons_ne_nil j is), hmem, pairAt?]
    cases children[j]? with
    | none => simp
    | some q =>
      have hq : is ∈ pairPlaces q ↔ (pairAt? name q is).isSome := mem_pairPlaces
      simp [hq]

/-- Exactly the places that lead to an attribute of the resource are listed. -/
theorem mem_places {r : Resource} {place : Place} :
    place ∈ places r ↔ (attributeAt? r place).isSome := by
  unfold places attributeAt?
  cases place with
  | nil =>
    refine ⟨fun h => ?_, fun h => nomatch h⟩
    obtain ⟨j, is, heq, -⟩ := exists_cons_of_mem h
    cases heq
  | cons j is =>
    have hmem : (0 + j) :: is ∈ placesFrom 0 r.attributes ↔ _ := mem_placesFrom
    rw [Nat.zero_add] at hmem
    rw [hmem, at?]
    cases r.attributes[j]? with
    | none => simp
    | some p =>
      have hp : is ∈ pairPlaces p ↔ (pairAt? "" p is).isSome := mem_pairPlaces
      simp [hp]

/-! ## The first attribute below a path of blocks -/

/-- The place of the first attribute from which a search leads on, and on from there. -/
def firstPlaceOf (search : Pair → Option Place) (ps : List Pair) : Option Place :=
  ps.zipIdx.findSome? fun (p, i) => (search p).map (i :: ·)

/-- The place of the first attribute of a name below a path of blocks. -/
def firstPlace? (name : String) : List String → List Pair → Option Place
  | [], attributes => firstPlaceOf (fun p => if p.name == name then some [] else none) attributes
  | block :: path, attributes =>
    firstPlaceOf (fun p => if blockName p == block then firstPlace? name path p.children else none)
      attributes

/-- The attribute is the one at the place, or there is neither. -/
inductive Located (look : Place → Option (Pair × String)) : Option Place → Option Pair → Prop
  | none : Located look none none
  | some {place : Place} {p : Pair} {parent : String} (h : look place = some (p, parent)) :
      Located look (some place) (some p)

/-- Behind other attributes, the first one that a search leads to stands at the first place. -/
theorem Located.behind {parent : String} {search : Pair → Option Place}
    {found : Pair → Option Pair} (h : ∀ p, Located (pairAt? parent p) (search p) (found p)) :
    ∀ ps before : List Pair, Located (at? parent (before ++ ps))
      ((ps.zipIdx before.length).findSome? fun (p, i) => (search p).map (i :: ·))
      (ps.findSome? found)
  | [], before => .none
  | p :: ps, before => by
    rw [List.zipIdx_cons, List.findSome?_cons, List.findSome?_cons]
    dsimp only
    have hp := h p
    generalize search p = place at hp
    generalize found p = result at hp
    cases hp with
    | none =>
      have hbehind := Located.behind h ps (before ++ [p])
      rwa [List.length_append, List.append_assoc] at hbehind
    | @some place q around hlook =>
      have hfound : at? parent (before ++ p :: ps) (before.length :: place) =
          Option.some (q, around) := by
        simpa [at?] using hlook
      exact .some hfound

/-- The first attribute that a search leads to stands at the first place. -/
theorem Located.firstPlaceOf {parent : String} {search : Pair → Option Place}
    {found : Pair → Option Pair} (h : ∀ p, Located (pairAt? parent p) (search p) (found p))
    (ps : List Pair) : Located (at? parent ps) (firstPlaceOf search ps) (ps.findSome? found) :=
  .behind h ps []

/-- The first attribute of a name below a path of blocks stands at its place. -/
theorem located_firstIn (name : String) : ∀ (path : List String) (parent : String) (ps : List Pair),
    Located (at? parent ps) (firstPlace? name path ps) (firstIn name path ps)
  | [], parent, ps => by
    rw [firstIn, firstPlace?, List.find?_eq_findSome?_guard]
    refine .firstPlaceOf (fun p => ?_) ps
    unfold Option.guard
    split
    · exact .some rfl
    · exact .none
  | block :: path, parent, ps => by
    rw [firstIn, firstPlace?]
    refine .firstPlaceOf (fun p => ?_) ps
    split
    · have hinner := located_firstIn name path p.name p.children
      generalize firstPlace? name path p.children = place? at hinner ⊢
      generalize firstIn name path p.children = found at hinner ⊢
      cases hinner with
      | none => exact .none
      | @some place q around h =>
        have hne : place ≠ [] := by
          rintro rfl
          cases h
        exact .some ((pairAt?_eq hne).trans h)
    · exact .none

end InfraSmells.Policy
