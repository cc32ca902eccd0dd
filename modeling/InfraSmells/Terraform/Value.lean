import InfraSmells.Decimal.Binary
import InfraSmells.Terraform.ValueType
import InfraSmells.Text.Bytes
import InfraSmells.Text.Compose

/-!
# Values of constant terms

A value is known, missing or unknown, and in each case has a type. `convert?` brings a value to another
type; `same` compares known values, which are only the same if their types are.
-/

namespace InfraSmells.Terraform

/-- A value. The members of maps and objects stand in the order of their names. -/
inductive Value where
  | unknown (type : ValueType)
  | null (type : ValueType)
  | boolean (b : Bool)
  | number (x : Binary)
  | text (s : String)
  | list (item : ValueType) (items : List Value)
  | map (item : ValueType) (members : List (String × Value))
  | tuple (items : List Value)
  | object (members : List (String × Value))
  deriving Inhabited

namespace Value

mutual

/-- The type of a value. -/
def type : Value → ValueType
  | .unknown t | .null t => t
  | .boolean _ => .boolean
  | .number _ => .number
  | .text _ => .text
  | .list t _ => .list t
  | .map t _ => .map t
  | .tuple vs => .tuple (types vs)
  | .object ms => .object (memberTypes ms)

/-- The types of values. -/
def types : List Value → List ValueType
  | [] => []
  | v :: vs => v.type :: types vs

/-- The types of members. -/
def memberTypes : List (String × Value) → List (String × ValueType)
  | [] => []
  | (name, v) :: ms => (name, v.type) :: memberTypes ms

end

/-- Is the value missing? -/
def isNull : Value → Bool
  | .null _ => true
  | _ => false

/-- Is the value itself known? Its parts may not be. -/
def isKnown : Value → Bool
  | .unknown _ => false
  | _ => true

mutual

/-- Is the value or a part of it unknown? -/
def hasUnknown : Value → Bool
  | .unknown _ => true
  | .list _ vs | .tuple vs => hasUnknownItem vs
  | .map _ ms | .object ms => hasUnknownMember ms
  | _ => false

/-- Is one of some values unknown? -/
def hasUnknownItem : List Value → Bool
  | [] => false
  | v :: vs => v.hasUnknown || hasUnknownItem vs

/-- Is the value of a member unknown? -/
def hasUnknownMember : List (String × Value) → Bool
  | [] => false
  | (_, v) :: ms => v.hasUnknown || hasUnknownMember ms

end

mutual

/-- Are two known values the same? Missing values are, whatever their types. -/
def same : Value → Value → Bool
  | .null _, .null _ => true
  | .boolean a, .boolean b => a == b
  | .number a, .number b => a.same b
  | .text a, .text b => a == b
  | .list s as, .list t bs => s == t && sameItems as bs
  | .map s as, .map t bs => s == t && sameMembers as bs
  | .tuple as, .tuple bs => types as == types bs && sameItems as bs
  | .object as, .object bs => memberTypes as == memberTypes bs && sameMembers as bs
  | _, _ => false

/-- Are the values of two lists the same? -/
def sameItems : List Value → List Value → Bool
  | [], [] => true
  | a :: as, b :: bs => same a b && sameItems as bs
  | _, _ => false

/-- Are the members of two values the same? -/
def sameMembers : List (String × Value) → List (String × Value) → Bool
  | [], [] => true
  | (k, a) :: as, (l, b) :: bs => k == l && same a b && sameMembers as bs
  | _, _ => false

end

/-- The members with one more set, in the order of names. -/
def setMember (name : String) (v : Value) : List (String × Value) → List (String × Value)
  | [] => [(name, v)]
  | (other, w) :: ms =>
    match Text.compareText name other with
    | .lt => (name, v) :: (other, w) :: ms
    | .eq => (name, v) :: ms
    | .gt => (other, w) :: setMember name v ms

/-- The value of a member. -/
def member? (name : String) (ms : List (String × Value)) : Option Value :=
  (ms.find? (·.1 == name)).map Prod.snd

/-- The truth value of a text. -/
def truth? : String → Option Bool
  | "true" | "1" => some true
  | "false" | "0" => some false
  | _ => none

/-- The one type of values that are to form a list or map; dynamic ones do not count. -/
def commonType? (vs : List Value) : Option ValueType :=
  match (types vs).filter (· != .dynamic) with
  | [] => some .dynamic
  | t :: ts => if ts.all (· == t) then some t else none

/-- Brings a value to a type, if it can be. `fuel` bounds the depth of the type. -/
def convertWithin : Nat → Value → ValueType → Option Value
  | 0, _, _ => none
  | fuel + 1, v, want =>
    let collected (vs : List Value) (t : ValueType) : Option (List Value) :=
      if t != .dynamic then vs.mapM fun v => convertWithin fuel v t
      else do
        let u ← ValueType.unify? (types vs)
        if u == .dynamic && !ValueType.hasDynamicItem (types vs) then none
        let vs ← vs.mapM fun v => convertWithin fuel v u
        let u ← ValueType.unify? (types vs)
        vs.mapM fun v => convertWithin fuel v u
    if v.type == want then some v
    else if !ValueType.canConvert v.type want then none
    else
      match v, want with
      | v, .dynamic => some v
      | .unknown t, want => some (.unknown (t.settle want))
      | .null t, want => some (.null (t.settle want))
      | .number x, .text => some (.text x.text)
      | .boolean b, .text => some (.text (if b then "true" else "false"))
      | .text s, .number => (Binary.ofText? s).map .number
      | .text s, .boolean => (truth? s).map .boolean
      | .tuple vs, .tuple ts => ((vs.zip ts).mapM fun (v, t) => convertWithin fuel v t).map .tuple
      | .object ms, .object ts => do
        let ms ← ts.mapM fun (name, t) => do
          let v ← member? name ms
          let v ← convertWithin fuel v t
          some (name, v)
        some (.object ms)
      | .list _ [], .list t | .tuple [], .list t => some (.list t [])
      | .map _ [], .map t | .object [], .map t => some (.map t [])
      | .list _ vs, .list t | .tuple vs, .list t => do
        let vs ← collected vs t
        let item ← commonType? vs
        some (.list item vs)
      | .map _ ms, .map t | .object ms, .map t => do
        let vs ← collected (ms.map Prod.snd) t
        let item ← commonType? vs
        some (.map item ((ms.map Prod.fst).zip vs))
      | _, _ => none

/-- Brings a value to a type, if it can be. -/
def convert? (v : Value) (want : ValueType) : Option Value :=
  convertWithin (max v.type.depth want.depth + 1) v want

end Value

end InfraSmells.Terraform
