import InfraSmells.Terraform.Grammar
import InfraSmells.Terraform.Value

/-!
# Evaluation of constant terms

A term is evaluated without the variables and functions of a run. `evaluate` gives its value, as far as
there is one, and whether something in it failed: a variable that no repetition declares, a call, parts
that do not fit together. Where a part fails the others are evaluated all the same, because the type of
the result may be clear nonetheless; a conditional needs the type of the branch it does not take.
-/

namespace InfraSmells.Terraform

/-- What evaluation gives: a value, and whether something failed on the way to it. -/
structure Outcome where
  value : Value
  failed : Bool
  deriving Inhabited

namespace Outcome

/-- A value without failure. -/
def ok (v : Value) : Outcome :=
  ⟨v, false⟩

/-- A failure that leaves only the type of the result. -/
def fail (t : ValueType) : Outcome :=
  ⟨.unknown t, true⟩

/-- The outcome with an earlier failure. -/
def after (o : Outcome) (failed : Bool) : Outcome :=
  ⟨o.value, failed || o.failed⟩

end Outcome

/-- What names stand for: the values that repetitions declare, the innermost first, and the item of the
innermost splat. -/
structure Scope where
  bindings : List (String × Value)
  item : Option Value
  deriving Inhabited

namespace Scope

/-- Nothing is declared. -/
def empty : Scope := ⟨[], none⟩

/-- The scope of one turn of a repetition. -/
def bind (s : Scope) (names : LoopNames) (key value : Value) : Scope :=
  let keys := match names.key with
    | some name => [(name, key)]
    | none => []
  { s with bindings := (names.value, value) :: (keys ++ s.bindings) }

/-- What a name stands for. -/
def find? (s : Scope) (name : String) : Option Value :=
  Value.member? name s.bindings

end Scope

namespace Value

/-- The attribute of a value. -/
def access (v : Value) (name : String) : Outcome :=
  let name := Text.compose name
  match v with
  | .null _ => .fail .dynamic
  | .unknown .dynamic => .ok v
  | .unknown (.object ts) =>
    match ts.find? (·.1 == name) with
    | some (_, t) => .ok (.unknown t)
    | none => .fail .dynamic
  | .unknown (.map t) => .ok (.unknown t)
  | .object ms | .map _ ms =>
    match member? name ms with
    | some v => .ok v
    | none => .fail .dynamic
  | _ => .fail .dynamic

/-- The item at a place. -/
def itemAt (vs : List Value) (place : Option Nat) : Outcome :=
  match place.bind fun i => vs[i]? with
  | some v => .ok v
  | none => .fail .dynamic

/-- The item of a value under a key. Tuples and lists have whole numbers as keys, maps and objects
texts; other keys are converted. -/
def index (v key : Value) : Outcome :=
  if v.isNull || key.isNull then .fail .dynamic
  else if v.type == .dynamic || key.type == .dynamic then .ok (.unknown .dynamic)
  else
    match v.type with
    | .tuple ts =>
      match key.convert? .number, v with
      | some (.number x), .tuple vs => itemAt vs x.toNat?
      | some (.number x), _ => itemAt (ts.map .unknown) x.toNat?
      | some _, _ => .ok (.unknown .dynamic)
      | none, _ => .fail .dynamic
    | .list t =>
      match key.convert? .number, v with
      | some (.number x), .list _ vs => itemAt vs x.toNat?
      | some (.number x), _ => if x.toNat?.isSome then .ok (.unknown t) else .fail .dynamic
      | some _, _ => .ok (.unknown t)
      | none, _ => .fail .dynamic
    | .map t =>
      match key.convert? .text, v with
      | some (.text name), .map _ _ => v.access name
      | some _, _ => .ok (.unknown t)
      | none, _ => .fail .dynamic
    | .object _ =>
      match key.convert? .text, v with
      | some (.text name), .object _ => v.access name
      | some _, _ => .ok (.unknown .dynamic)
      | none, _ => .fail .dynamic
    | _ => .fail .dynamic

/-- The keys and values of a known value that has items. -/
def entries? : Value → Option (List (Value × Value))
  | .list _ vs | .tuple vs =>
    some (vs.zipIdx.map fun (v, i) => (.number (Binary.ofNat 64 i), v))
  | .map _ ms | .object ms => some (ms.map fun (name, v) => (.text name, v))
  | _ => none

end Value

/-- The type of the result of an operator. -/
def BinaryOp.resultType : BinaryOp → ValueType
  | .sum | .subtract | .multiply | .divide | .modulo => .number
  | _ => .boolean

/-- The result of an operator on two numbers, if it has one. -/
def BinaryOp.onNumbers? (op : BinaryOp) (x y : Binary) : Option Value :=
  match op with
  | .sum => (x.add? y).map .number
  | .subtract => (x.subtract? y).map .number
  | .multiply => (x.multiply? y).map .number
  | .divide => (x.divide? y).map .number
  | .modulo => (x.modulo? y).map .number
  | .greater => some (.boolean (x.order y == .gt))
  | .greaterEqual => some (.boolean (x.order y == .gt || x.same y))
  | .less => some (.boolean (x.order y == .lt))
  | .lessEqual => some (.boolean (x.order y == .lt || x.same y))
  | _ => none

/-- The result of an operator on two truth values, if it has one. -/
def BinaryOp.onTruth? (op : BinaryOp) (a b : Bool) : Option Value :=
  match op with
  | .or => some (.boolean (a || b))
  | .and => some (.boolean (a && b))
  | _ => none

/-- Are two values equal? Nothing can be said if something in them is unknown. -/
def equality (negated : Bool) (a b : Value) : Value :=
  if a.hasUnknown || b.hasUnknown then .unknown .boolean
  else .boolean (a.same b != negated)

/-- The result of an operator on two values. -/
def BinaryOp.apply (op : BinaryOp) (left right : Outcome) : Outcome :=
  let failed := left.failed || right.failed
  let result := match op with
    | .equal => some (equality false left.value right.value)
    | .notEqual => some (equality true left.value right.value)
    | _ =>
      let operand : ValueType := match op with
        | .or | .and => .boolean
        | _ => .number
      match left.value.convert? operand, right.value.convert? operand with
      | some (.number x), some (.number y) => op.onNumbers? x y
      | some (.boolean a), some (.boolean b) => op.onTruth? a b
      | some a, some b => if a.isNull || b.isNull then none else some (.unknown op.resultType)
      | _, _ => none
  match failed, result with
  | false, some v => .ok v
  | _, _ => .fail op.resultType

/-- The result of an operator on one value. -/
def UnaryOp.apply (op : UnaryOp) (operand : Outcome) : Outcome :=
  let type : ValueType := match op with
    | .minus => .number
    | .not => .boolean
  match operand.failed, operand.value.convert? type with
  | false, some (.number x) => .ok (.number x.negate)
  | false, some (.boolean b) => .ok (.boolean !b)
  | false, some (.unknown _) => .ok (.unknown type)
  | _, _ => .fail type

/-- One of two outcomes. Both are brought to a common type; one that is only missing takes the type of
the other. What fails in the outcome that is not taken does not count. -/
def choose (condition yes no : Outcome) : Outcome :=
  let isBare (v : Value) : Bool := v.isNull && v.type == .dynamic
  let common : Option ValueType :=
    if isBare yes.value then some no.value.type
    else if isBare no.value then some yes.value.type
    else if yes.value.type == .dynamic || no.value.type == .dynamic then some .dynamic
    else ValueType.unify? [yes.value.type, no.value.type]
  match common with
  | none => .fail .dynamic
  | some type =>
    if condition.value.isNull then .fail type
    else if !condition.value.isKnown then
      let undecided : Value := match yes.value, no.value with
        | .null _, .null _ => .null type
        | .number x, .number y => if x.same y then .number x else .unknown type
        | _, _ => .unknown type
      ⟨undecided, condition.failed⟩
    else
      match condition.value.convert? .boolean with
      | some (.boolean b) =>
        let chosen := if b then yes else no
        match chosen.value.convert? type with
        | some v => ⟨v, condition.failed || chosen.failed⟩
        | none => .fail type
      | _ => .fail type

/-- Joins the parts of a template. A missing part fails, an unknown one leaves the text unknown; behind
a failure nothing is added. -/
def joinParts (failed : Bool) (known : Bool) (text : String) : List Outcome → Outcome
  | [] => ⟨if known then .text (Text.compose text) else .unknown .text, failed⟩
  | o :: os =>
    let failed := failed || o.failed
    if o.value.isNull then joinParts true known text os
    else if !o.value.isKnown then joinParts failed false text os
    else
      match o.value.convert? .text with
      | some (.text s) => joinParts failed known (if known && !failed then text ++ s else text) os
      | _ => joinParts true known text os

/-- The object of keys and values. A key that fails or is unknown leaves the whole object unknown. -/
def objectOf (failed : Bool) (known : Bool) (members : List (String × Value)) :
    List (Outcome × Outcome) → Outcome
  | [] => ⟨if known then .object members else .unknown .dynamic, failed⟩
  | (key, value) :: items =>
    let failed := failed || key.failed || value.failed
    if key.failed then objectOf failed false members items
    else if key.value.isNull then objectOf true false members items
    else
      match key.value.convert? .text with
      | some (.text name) => objectOf failed known (Value.setMember name value.value members) items
      | some _ => objectOf failed false members items
      | none => objectOf true false members items

/-- What is accessed in every item of a value. A single value counts as a tuple of one, a missing one
as an empty tuple. -/
def splatOf (source : Outcome) (each : Value → Outcome) : Outcome :=
  let type := source.value.type
  let isSequence := type.isList || type.isTuple
  let resultType : ValueType := match type with
    | .list t => .list (each (.unknown t)).value.type
    | .tuple ts => .tuple (ts.map fun t => (each (.unknown t)).value.type)
    | t => .tuple [(each (.unknown t)).value.type]
  let typeFailed : Bool := match type with
    | .list t => (each (.unknown t)).failed
    | .tuple ts => ts.any fun t => (each (.unknown t)).failed
    | _ => false
  if source.failed then .fail .dynamic
  else if source.value.isNull then
    if isSequence then .fail .dynamic else .ok (.tuple [])
  else if type == .dynamic then .ok (.unknown .dynamic)
  else if !source.value.isKnown then
    if isSequence then ⟨.unknown resultType, typeFailed⟩
    else ⟨.unknown .dynamic, (each source.value).failed⟩
  else
    let items := match source.value with
      | .list _ vs | .tuple vs => vs
      | v => [v]
    let outcomes := items.map each
    let values := outcomes.map (·.value)
    if outcomes.any (·.failed) then .fail resultType
    else
      match type with
      | .list t =>
        if items.isEmpty then ⟨.list (each (.unknown t)).value.type [], typeFailed⟩
        else
          match Value.commonType? values with
          | some t => .ok (.list t values)
          | none => .fail .dynamic
      | _ => .ok (.tuple values)

/-- One turn of a repetition: the condition and the key, if there are any, and the value. -/
structure Turn where
  condition : Option Outcome
  key : Option Outcome
  value : Outcome

/-- What a repetition has gathered so far. `known` if every turn so far could be decided. -/
structure Gathered where
  failed : Bool
  known : Bool
  items : List Value
  members : List (String × List Value)

namespace Gathered

/-- Nothing yet. -/
def start (failed : Bool) : Gathered := ⟨failed, true, [], []⟩

/-- A turn that cannot be decided. -/
def undecided (g : Gathered) : Gathered :=
  { g with known := false }

/-- A turn that is at fault; only the first such turn counts. -/
def atFault (g : Gathered) : Gathered :=
  { g with failed := g.failed || g.known, known := false }

/-- Adds a value under a key. Without grouping a key may come only once. -/
def addMember (grouped : Bool) (name : String) (v : Value) (g : Gathered) : Gathered :=
  if g.members.any (·.1 == name) then
    if grouped then
      { g with members := g.members.map fun (other, vs) =>
          if other == name then (other, vs ++ [v]) else (other, vs) }
    else { g with failed := true }
  else { g with members := g.members ++ [(name, [v])] }

/-- Adds the result of a turn whose condition is met. -/
def add (grouped : Bool) (turn : Turn) (g : Gathered) : Gathered :=
  match turn.key with
  | none =>
    { g with failed := g.failed || turn.value.failed, items := g.items ++ [turn.value.value] }
  | some key =>
    let g := { g with failed := g.failed || key.failed }
    if key.value.isNull then g.atFault
    else if !key.value.isKnown then g.undecided
    else
      match key.value.convert? .text with
      | some (.text name) =>
        addMember grouped name turn.value.value { g with failed := g.failed || turn.value.failed }
      | _ => g.atFault

/-- Takes one turn. -/
def take (grouped : Bool) (g : Gathered) (turn : Turn) : Gathered :=
  match turn.condition with
  | none => g.add grouped turn
  | some condition =>
    let g := { g with failed := g.failed || condition.failed }
    if condition.value.isNull then g.atFault
    else
      match condition.value.convert? .boolean with
      | some (.boolean true) => g.add grouped turn
      | some (.boolean false) => g
      | some _ => g.undecided
      | none => if condition.value.isKnown || turn.key.isSome then g.atFault else g.undecided

/-- The tuple or object that was gathered. -/
def result (isObject grouped : Bool) (g : Gathered) : Outcome :=
  let members := g.members.foldl
    (fun ms (name, vs) =>
      Value.setMember name (if grouped then .tuple vs else vs.headD (.null .dynamic)) ms) []
  let value : Value :=
    if !g.known then .unknown .dynamic
    else if isObject then .object members
    else .tuple g.items
  ⟨value, g.failed⟩

end Gathered

/-- A repetition over the items of a source. `check` is the outcome of the condition before anything is
known of the items: one that cannot be a truth value stops the repetition. -/
def repetition (isObject grouped : Bool) (source : Outcome) (check : Option Outcome)
    (turn : Value → Value → Turn) : Outcome :=
  let iterable (t : ValueType) : Bool := t.isList || t.isMap || t.isTuple || t.isObject
  if source.value.isNull then .fail .dynamic
  else if source.value.type == .dynamic then ⟨.unknown .dynamic, source.failed⟩
  else if !iterable source.value.type then .fail .dynamic
  else
    match source.value.entries? with
    | none => ⟨.unknown .dynamic, source.failed⟩
    | some entries =>
      let refused := match check with
        | some c => c.failed || c.value.isNull || (c.value.convert? .boolean).isNone
        | none => false
      if refused then .fail .dynamic
      else
        let turns := entries.map fun (k, v) => turn k v
        (turns.foldl (Gathered.take grouped) (.start source.failed)).result isObject grouped

/-- The text of a tuple of texts. -/
def joinTuple (tuple : Outcome) : Outcome :=
  match tuple.value with
  | .tuple vs =>
    if vs.any fun v => !v.isKnown then ⟨.unknown .text, tuple.failed⟩
    else joinParts tuple.failed true "" (vs.map .ok)
  | _ => ⟨.unknown .text, tuple.failed⟩

/-- The bare name that a term is. -/
def keyword? : Term → Option String
  | .bare _ name => some name
  | .boolean _ b => some (if b then "true" else "false")
  | .null _ => some "null"
  | _ => none

/-- Is the term a literal key of an index? -/
def isLiteralKey : Term → Bool
  | .number _ _ | .boolean _ _ | .null _ => true
  | .template _ [.text _ _] => true
  | _ => false

/-- Is the term a name followed by attributes and literal keys? -/
def isPath : Term → Bool
  | .bare _ _ => true
  | .access _ source _ => isPath source
  | .index _ source key => isLiteralKey key && isPath source
  | _ => false

mutual

/-- The outcome of a term. -/
def evaluate (scope : Scope) : Term → Outcome
  | .null _ => .ok (.null .dynamic)
  | .boolean _ b => .ok (.boolean b)
  | .number _ x => .ok (.number x)
  | .text _ s => .ok (.text s)
  | .template _ parts => joinParts false true "" (evaluateAll scope parts)
  | .wrapped _ t | .parens _ t => evaluate scope t
  | .bare _ name =>
    match scope.find? name with
    | some v => .ok v
    | none => .fail .dynamic
  | .access _ source name =>
    let s := evaluate scope source
    (s.value.access name).after s.failed
  | .index _ source key =>
    let s := evaluate scope source
    let k := evaluate scope key
    (s.value.index k.value).after (s.failed || k.failed)
  | .splat _ source each =>
    splatOf (evaluate scope source) fun v => evaluate { scope with item := some v } each
  | .item _ => .ok (scope.item.getD (.unknown .dynamic))
  | .call _ _ _ => .fail .dynamic
  | .unary _ op t => op.apply (evaluate scope t)
  | .binary _ op left right => op.apply (evaluate scope left) (evaluate scope right)
  | .conditional _ condition yes no =>
    choose (evaluate scope condition) (evaluate scope yes) (evaluate scope no)
  | .tuple _ items =>
    let outcomes := evaluateAll scope items
    ⟨.tuple (outcomes.map (·.value)), outcomes.any (·.failed)⟩
  | .object _ items => objectOf false true [] (evaluateItems scope items)
  | .comprehension _ names source key value condition grouped =>
    let unread := scope.bind names (.unknown .dynamic) (.unknown .dynamic)
    repetition key.isSome grouped (evaluate scope source) (evaluateOption unread condition) fun k v =>
      let inner := scope.bind names k v
      ⟨evaluateOption inner condition, evaluateOption inner key, evaluate inner value⟩
  | .repeated _ names source content =>
    joinTuple (repetition false false (evaluate scope source) none fun k v =>
      ⟨none, none, evaluate (scope.bind names k v) content⟩)

/-- The outcomes of terms. -/
def evaluateAll (scope : Scope) : List Term → List Outcome
  | [] => []
  | t :: ts => evaluate scope t :: evaluateAll scope ts

/-- The outcome of a term that may be left out. -/
def evaluateOption (scope : Scope) : Option Term → Option Outcome
  | none => none
  | some t => some (evaluate scope t)

/-- The outcomes of the keys and values of an object. A bare name is a key by itself; a longer path is
refused, because it might be meant either way. -/
def evaluateItems (scope : Scope) : List ObjectItem → List (Outcome × Outcome)
  | [] => []
  | ⟨key, inParens, value⟩ :: items =>
    let k := match inParens, keyword? key with
      | false, some name => .ok (.text (Text.compose name))
      | false, none => if isPath key then .fail .dynamic else evaluate scope key
      | true, _ => evaluate scope key
    (k, evaluate scope value) :: evaluateItems scope items

end

/-- The text of a constant term, if it has one. -/
def constantText? (t : Term) : Option String :=
  match evaluate .empty t with
  | ⟨.text s, false⟩ => some s
  | _ => none

end InfraSmells.Terraform
