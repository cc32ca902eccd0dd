import InfraSmells.Policy.Rules
import InfraSmells.Terraform.Tree

/-!
# Dynamic values

A term is dynamic where it accesses a name, an item or all items of something, or runs through a
source. A dynamic part of a term shows in the expression of the term
(`Terraform.Script.containsReference_exprOf`), except where it stands in the key of an object, which
is a name in the tree, or in a result of a conditional, which is a statement there. An attribute
with a dynamic value is therefore marked, and no rule compares it with the values it lists
(`Terraform.dynamic_is_recognised`).
-/

namespace InfraSmells.Terraform

mutual

/-- Is some part of the term dynamic? With `hidden`, parts in the keys of objects and in the results
of conditionals count too. -/
def Term.isDynamic (hidden : Bool) : Term → Bool
  | .null _ | .boolean _ _ | .number _ _ | .text _ _ => false
  | .bare _ _ | .access _ _ _ | .index _ _ _ | .splat _ _ _ | .item _
  | .comprehension _ _ _ _ _ _ _ | .repeated _ _ _ _ => true
  | .wrapped _ t | .parens _ t | .unary _ _ t => t.isDynamic hidden
  | .template _ parts => anyDynamic hidden parts
  | .call _ _ args => anyDynamic hidden args
  | .tuple _ items => anyDynamic hidden items
  | .binary _ _ left right => left.isDynamic hidden || right.isDynamic hidden
  | .conditional _ condition yes no =>
    condition.isDynamic hidden || hidden && (yes.isDynamic hidden || no.isDynamic hidden)
  | .object _ items => anyItemDynamic hidden items

/-- `Term.isDynamic` of some term of a list. -/
def anyDynamic (hidden : Bool) : List Term → Bool
  | [] => false
  | t :: ts => t.isDynamic hidden || anyDynamic hidden ts

/-- `Term.isDynamic` of the value of some item or, with `hidden`, of its key. -/
def anyItemDynamic (hidden : Bool) : List ObjectItem → Bool
  | [] => false
  | ⟨key, _, value⟩ :: items =>
    hidden && key.isDynamic hidden || value.isDynamic hidden || anyItemDynamic hidden items

end

/-- Is the term an object? -/
def Term.isObject : Term → Bool
  | .object _ _ => true
  | _ => false

/-- Literal terms are not dynamic. -/
theorem anyDynamic_of_all_isLiteral {hidden : Bool} : ∀ {ts : List Term}, ts.all isLiteral = true →
    anyDynamic hidden ts = false
  | [], _ => rfl
  | t :: ts, h => by
    rw [List.all_cons, Bool.and_eq_true] at h
    rw [anyDynamic, anyDynamic_of_all_isLiteral h.2, Bool.or_false]
    cases t with
    | null | boolean | number | text => rfl
    | _ => cases h.1

/-- A template with a dynamic part is no literal text. -/
theorem literalTemplate?_eq_none {hidden : Bool} {range : Range} {parts : List Term}
    (h : anyDynamic hidden parts = true) : literalTemplate? range parts = none := by
  rw [literalTemplate?, if_neg]
  intro hliteral
  rw [anyDynamic_of_all_isLiteral hliteral] at h
  cases h

/-- A sum of parts refers to a variable if some part does. -/
theorem containsReference_sumOf {span : Span} {es : List Expr} (h : Expr.anyReference es = true) :
    (sumOf span es).containsReference = true := by
  cases es with
  | nil => cases h
  | cons e es =>
    rw [sumOf]
    induction es generalizing e with
    | nil => simpa [Expr.anyReference] using h
    | cons e' es ih =>
      refine ih (.binary span "sum" e e') ?_
      simpa only [Expr.anyReference, Expr.containsReference, Bool.or_assoc] using h

namespace Script

mutual

/-- The expression of a term with a dynamic part in view refers to a variable. -/
theorem containsReference_exprOf (s : Script) : ∀ {t : Term}, t.isDynamic false = true →
    (s.exprOf t).containsReference = true
  | .bare _ _, _ | .access _ _ _, _ | .index _ _ _, _ | .splat _ _ _, _ | .item _, _
  | .comprehension _ _ _ _ _ _ _, _ | .repeated _ _ _ _, _ => rfl
  | .wrapped _ t, h | .parens _ t, h | .unary _ _ t, h => containsReference_exprOf s (t := t) h
  | .template r parts, h => by
    rw [exprOf, literalTemplate?_eq_none h]
    exact containsReference_sumOf (anyReference_exprsOf s h)
  | .call _ _ args, h => @anyReference_exprsOf s args h
  | .tuple _ items, h => @anyReference_exprsOf s items h
  | .binary _ _ left right, h => by
    rw [exprOf, Expr.containsReference, Bool.or_eq_true]
    rw [Term.isDynamic, Bool.or_eq_true] at h
    exact h.imp (containsReference_exprOf s) (containsReference_exprOf s)
  | .conditional _ condition yes no, h => by
    rw [Term.isDynamic, Bool.false_and, Bool.or_false] at h
    rw [exprOf, Expr.containsReference, Expr.branchReference, containsReference_exprOf s h,
      Bool.true_or]
  | .object _ items, h => @entriesReference_entriesOf s items h

/-- Of the expressions of terms one refers to a variable if one of the terms is dynamic. -/
theorem anyReference_exprsOf (s : Script) : ∀ {ts : List Term}, anyDynamic false ts = true →
    Expr.anyReference (s.exprsOf ts) = true
  | t :: ts, h => by
    rw [exprsOf, Expr.anyReference, Bool.or_eq_true]
    rw [anyDynamic, Bool.or_eq_true] at h
    exact h.imp (containsReference_exprOf s) (anyReference_exprsOf s)

/-- The entries of an object with a dynamic value refer to a variable. -/
theorem entriesReference_entriesOf (s : Script) : ∀ {items : List ObjectItem},
    anyItemDynamic false items = true → Expr.entriesReference (s.entriesOf items) = true
  | ⟨key, inParens, value⟩ :: items, h => by
    rw [anyItemDynamic, Bool.false_and, Bool.false_or, Bool.or_eq_true] at h
    rw [entriesOf, Expr.entriesReference, Bool.or_eq_true, Bool.or_eq_true]
    exact h.imp (fun hvalue => .inr (containsReference_exprOf s hvalue))
      (entriesReference_entriesOf s)

end

/-- A value that is no object becomes the value of its attribute. -/
theorem pairOf_eq (s : Script) (kind : PairKind) (name : String) (range : Range) {t : Term}
    (h : t.isObject = false) :
    s.pairOf kind name range t = Pair.ofValue kind name (s.exprOf t) (s.lineSpan range) := by
  cases t with
  | object => cases h
  | _ => rfl

end Script

open Policy in
/-- A dynamic attribute is not compared with the values of a rule: the rule accepts what is not
empty, and the attribute is. -/
theorem blank_of_violates {rule : PolicyRule} {r : Resource} {p : Pair} {parent : String}
    (hdynamic : p.hasVariable = true) (h : violates rule r p parent = true) :
    rule.values.contains anyNotEmpty = true ∧ Text.trim p.value.literal = "" := by
  rw [violates, Bool.and_eq_true] at h
  have hjudged := h.2
  split at hjudged
  · next hany => exact ⟨hany, eq_of_beq hjudged⟩
  · rw [hdynamic] at hjudged
    cases hjudged

open Policy in
/-- The expression of a term refers to a variable if a part of the term is dynamic that stands
neither in the key of an object nor in a result of a conditional. An attribute with such a value is
marked as dynamic unless the value is an object, whose members are attributes of their own; and no
rule reports it for being none of the values the rule lists, or one of them, or out of bounds. -/
theorem dynamic_is_recognised (s : Script) {t : Term} (h : t.isDynamic false = true) :
    (s.exprOf t).containsReference = true ∧
    (t.isObject = false → ∀ kind name range,
      let p := s.pairOf kind name range t
      p.value = s.exprOf t ∧ p.hasVariable = true ∧
      ∀ rule r parent, violates rule r p parent = true →
        rule.values.contains anyNotEmpty = true ∧ Text.trim p.value.literal = "") := by
  have href := s.containsReference_exprOf h
  refine ⟨href, fun hobject kind name range => ?_⟩
  have hmarked : (s.pairOf kind name range t).hasVariable = true := by
    rw [s.pairOf_eq kind name range hobject]
    exact href
  have hvalue : (s.pairOf kind name range t).value = s.exprOf t := by
    rw [s.pairOf_eq kind name range hobject]
    rfl
  exact ⟨hvalue, hmarked, fun rule r parent hviolates => blank_of_violates hmarked hviolates⟩

/-- The term `var.x`, at no particular place. -/
def variableTerm : Term :=
  .access default (.bare default "var") "x"

/-- A text with the value of a variable in the argument of a call is recognised. -/
theorem dynamic_is_recognised_template :
    let t := Term.call default "upper" [.template default [.text default "a-", variableTerm]]
    t.isDynamic false = true ∧ t.isObject = false ∧
      ((Script.ofText "").exprOf t).containsReference = true ∧
      ((Script.ofText "").pairOf .attr "name" default t).hasVariable = true := by
  intro t
  have hdynamic : t.isDynamic false = true := rfl
  have ⟨href, hpair⟩ := dynamic_is_recognised (Script.ofText "") hdynamic
  exact ⟨hdynamic, rfl, href, (hpair rfl .attr "name" default).2.1⟩

open Policy in
/-- A variable in a result of a conditional and one in a key go unnoticed; the attribute with the
conditional is reported for not being the value that a rule lists. -/
theorem hidden_dynamic_goes_unnoticed :
    let s := Script.ofText ""
    let choice := Term.conditional default (.boolean default true) variableTerm (.null default)
    let table := Term.tuple default
      [.object default [⟨.parens default variableTerm, true, .boolean default true⟩]]
    let rule : PolicyRule := { types := ["bucket"], attr := "encrypted", values := ["true"] }
    let r : Resource := ⟨.nowhere, .absent, "bucket", [], []⟩
    choice.isDynamic true = true ∧ (s.exprOf choice).containsReference = false ∧
      violates rule r (s.pairOf .attr "encrypted" default choice) "" = true ∧
      table.isDynamic true = true ∧ (s.exprOf table).containsReference = false := by
  decide +kernel

end InfraSmells.Terraform
