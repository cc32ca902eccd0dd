/-!
# Types of constant values

The type of a value tells how it may be used: a text, a number, a truth value, a list or map of values
of one type, or a tuple or object whose parts have types of their own. A value about which nothing is
known yet is of the dynamic type.

`unify?` finds a type to which values of several types can be brought, and `canConvert` tells whether
values of one type can be brought to another at all.
-/

namespace InfraSmells.Terraform

/-- The type of a value. The members of an object stand in the order of their names. -/
inductive ValueType where
  | dynamic
  | text
  | number
  | boolean
  | list (item : ValueType)
  | map (item : ValueType)
  | tuple (items : List ValueType)
  | object (members : List (String × ValueType))
  deriving BEq, Repr, Inhabited

namespace ValueType

mutual

/-- The number of types nested in a type. -/
def depth : ValueType → Nat
  | .list t | .map t => t.depth + 1
  | .tuple ts => depthOfItems ts + 1
  | .object ms => depthOfMembers ms + 1
  | _ => 1

/-- The greatest depth of some types. -/
def depthOfItems : List ValueType → Nat
  | [] => 0
  | t :: ts => max t.depth (depthOfItems ts)

/-- The greatest depth of the types of members. -/
def depthOfMembers : List (String × ValueType) → Nat
  | [] => 0
  | (_, t) :: ms => max t.depth (depthOfMembers ms)

end

mutual

/-- Is the type, or one nested in it, dynamic? -/
def hasDynamic : ValueType → Bool
  | .dynamic => true
  | .list t | .map t => t.hasDynamic
  | .tuple ts => hasDynamicItem ts
  | .object ms => hasDynamicMember ms
  | _ => false

/-- Is one of some types dynamic? -/
def hasDynamicItem : List ValueType → Bool
  | [] => false
  | t :: ts => t.hasDynamic || hasDynamicItem ts

/-- Is the type of a member dynamic? -/
def hasDynamicMember : List (String × ValueType) → Bool
  | [] => false
  | (_, t) :: ms => t.hasDynamic || hasDynamicMember ms

end

/-- A type of lists. -/
def isList : ValueType → Bool
  | .list _ => true
  | _ => false

/-- A type of maps. -/
def isMap : ValueType → Bool
  | .map _ => true
  | _ => false

/-- A type of tuples. -/
def isTuple : ValueType → Bool
  | .tuple _ => true
  | _ => false

/-- A type of objects. -/
def isObject : ValueType → Bool
  | .object _ => true
  | _ => false

/-- The types of the parts of a type. -/
def parts : ValueType → List ValueType
  | .list t | .map t => [t]
  | .tuple ts => ts
  | .object ms => ms.map Prod.snd
  | _ => []

/-- The names of the members of a type of objects. -/
def names : ValueType → List String
  | .object ms => ms.map Prod.fst
  | _ => []

/-- How readily a type is taken for several: texts and collections first, the dynamic type last. -/
def rank : ValueType → Nat
  | .text | .list _ | .map _ => 0
  | .dynamic => 2
  | _ => 1

/-- The parts of several types by their places: all first parts, all second parts, and so on. -/
def partsAcross (ts : List ValueType) : List (List ValueType) :=
  match ts with
  | [] => []
  | t :: _ => (List.range t.parts.length).map fun i => ts.filterMap (·.parts[i]?)

mutual

/-- A type for values of all given types, if there is one. Collections of one kind unify part by part;
tuples of different lengths become lists and objects of different names maps. Of other types the first
is taken to which all can be converted. -/
def unifyWithin : Nat → List ValueType → Option ValueType
  | 0, _ => none
  | _, [] => none
  | fuel + 1, types =>
    let known := types.filter (· != .dynamic)
    let parts := known.flatMap ValueType.parts
    let preferred : Option ValueType :=
      (types.mergeSort fun a b => a.rank ≤ b.rank).find? fun want =>
        types.all fun t => t == want || canConvertWithin fuel t want
    let uniform : Bool := known.length = types.length
    if known.isEmpty then some .dynamic
    else if known.all isMap then
      if uniform then (unifyWithin fuel parts).map .map else some .dynamic
    else if known.all isList then
      if uniform then (unifyWithin fuel parts).map .list else some .dynamic
    else if known.all isObject then
      if !uniform then some .dynamic
      else
        match known with
        | .object ms :: _ =>
          let names := ms.map Prod.fst
          if known.all fun t => t.names == names then
            ((partsAcross known).mapM (unifyWithin fuel)).map fun ts => .object (names.zip ts)
          else (unifyWithin fuel parts).map .map
        | _ => none
    else if known.all isTuple then
      if !uniform then some .dynamic
      else
        match known with
        | .tuple ts :: _ =>
          if known.all fun t => t.parts.length = ts.length then
            ((partsAcross known).mapM (unifyWithin fuel)).map .tuple
          else (unifyWithin fuel parts).map .list
        | _ => none
    else if known.all fun t => t.isMap || t.isObject then
      let objects := known.filter isObject
      let joint := (unifyWithin fuel (objects.flatMap ValueType.parts)).bind fun item =>
        unifyWithin fuel (types.map fun t => if t.isObject then .map item else t)
      match joint with
      | some (.map item) => some (.map item)
      | _ => preferred
    else if known.all fun t => t.isList || t.isTuple then
      let tuples := known.filter isTuple
      let joint := (unifyWithin fuel (tuples.flatMap ValueType.parts)).bind fun item =>
        unifyWithin fuel (types.map fun t => if t.isTuple then .list item else t)
      match joint with
      | some (.list item) => some (.list item)
      | _ => preferred
    else if known.any isObject && known.any isTuple then none
    else preferred

/-- Is there a conversion from one type to another? It may still fail for single values. -/
def canConvertWithin : Nat → ValueType → ValueType → Bool
  | 0, _, _ => false
  | fuel + 1, source, target =>
    let fits (s t : ValueType) : Bool := s == t || canConvertWithin fuel s t
    let collects (ss : List ValueType) (t : ValueType) : Bool :=
      if t != .dynamic then ss.all fun s => fits s t
      else
        match unifyWithin fuel ss with
        | some u => (u != .dynamic || hasDynamicItem ss) && ss.all fun s => fits s u
        | none => ss.isEmpty
    match source, target with
    | _, .dynamic | .dynamic, _ => true
    | .number, .text | .boolean, .text | .text, .number | .text, .boolean => true
    | .object ss, .object ts =>
      ts.all fun (name, t) => ss.any fun (other, s) => other == name && fits s t
    | .tuple ss, .tuple ts =>
      ss.length = ts.length && (ss.zip ts).all fun (s, t) => fits s t
    | .list s, .list t | .map s, .map t => fits s t
    | .tuple ss, .list t => collects ss t
    | .object ss, .map t => collects (ss.map Prod.snd) t
    | _, _ => false

end

/-- A type for values of all given types, if there is one. -/
def unify? (types : List ValueType) : Option ValueType :=
  unifyWithin (4 * depthOfItems types + 8) types

/-- Is there a conversion from one type to another, or are they the same? -/
def canConvert (source target : ValueType) : Bool :=
  source == target || canConvertWithin (4 * max source.depth target.depth + 8) source target

/-- The type of an unknown or missing value of type `actual` where type `wanted` is asked for: what is
wanted, with its dynamic parts settled by what is there. -/
def settle : ValueType → ValueType → ValueType
  | actual, .dynamic => actual
  | .list s, .list t => .list (settle s t)
  | .map s, .map t => .map (settle s t)
  | _, wanted => wanted

end ValueType

end InfraSmells.Terraform
