import InfraSmells.Document.Basic
import InfraSmells.Proofs.Document.Record

/-!
# What a record becomes

`Record.Builds` lists what a record may become, one case for each kind of element, with all that
its members must become for it. `Record.builds_of_toElement` shows that nothing else happens;
later proofs go through these cases and never through the names of the kinds.
-/

namespace InfraSmells.Record

/-- The span of a record. -/
def span (r : Record) : Span :=
  ⟨r.line, r.column, r.endLine, r.endColumn, r.code⟩

/-- What a record becomes. Where only an expression may stand, nothing but expressions is made. -/
inductive Builds (exprOnly : Bool) (r : Record) : Element → Prop
  | project {ms bs : List Element} (honly : exprOnly = false)
      (hmodules : toElements (·.module?.isSome) r.modules = .ok ms)
      (hblocks : toElements (·.block?.isSome) r.blocks = .ok bs) :
      Builds exprOnly r (.project ⟨r.name, ms.filterMap (·.module?), bs.filterMap (·.block?)⟩)
  | module {bs ms : List Element} (honly : exprOnly = false)
      (hblocks : toElements (·.block?.isSome) r.blocks = .ok bs)
      (hmodules : toElements (·.module?.isSome) r.modules = .ok ms) :
      Builds exprOnly r
        (.module ⟨r.name, r.path, bs.filterMap (·.block?), ms.filterMap (·.module?)⟩)
  | block {rs vs as ds ss cs bs : List Element} (honly : exprOnly = false)
      (hresources : toElements (·.resource?.isSome) r.resources = .ok rs)
      (hvars : toElements (·.pair?.isSome) r.vars = .ok vs)
      (hattributes : toElements (·.pair?.isSome) r.attributes = .ok as)
      (hdependencies : toElements (·.dependency?.isSome) r.dependencies = .ok ds)
      (hstatements : toElements (fun _ => true) r.statements = .ok ss)
      (hcomments : toElements (·.comment?.isSome) r.comments = .ok cs)
      (hblocks : toElements (·.block?.isSome) r.unitBlocks = .ok bs) :
      Builds exprOnly r (.block
        { span := r.span, name := r.name, type := .ofName r.type, path := r.path, statements := ss
          resources := rs.filterMap (·.resource?), vars := vs.filterMap (·.pair?)
          attributes := as.filterMap (·.pair?), dependencies := ds.filterMap (·.dependency?)
          comments := cs.filterMap (·.comment?), blocks := bs.filterMap (·.block?) })
  | resource {name : Expr} {as ss : List Element} (honly : exprOnly = false)
      (hname : linkExpr r.nameExpr = .ok name)
      (hattributes : toElements (·.pair?.isSome) r.attributes = .ok as)
      (hstatements : toElements (fun _ => true) r.statements = .ok ss) :
      Builds exprOnly r (.resource ⟨r.span, name, r.type, as.filterMap (·.pair?), ss⟩)
  | pair {value : Expr} {cs : List Element} (kind : PairKind) (honly : exprOnly = false)
      (hvalue : linkExpr r.expr = .ok value)
      (hchildren : toElements (·.pair?.isSome) r.pairs = .ok cs) :
      Builds exprOnly r (.pair ⟨r.span, kind, r.name, value,
        r.hasVariable || value.containsReference, cs.filterMap (·.pair?)⟩)
  | dependency (honly : exprOnly = false) : Builds exprOnly r (.dependency ⟨r.span, r.names⟩)
  | comment (honly : exprOnly = false) : Builds exprOnly r (.comment ⟨r.span, r.content⟩)
  | conditional {condition : Expr} {ss : List Element} {rest : List Branch}
      (hcondition : linkExpr r.condition = .ok condition)
      (hstatements : toElements (fun _ => true) r.statements = .ok ss)
      (hrest : elseChain r.otherwise = .ok rest) :
      Builds exprOnly r (.expr
        (.conditional ⟨r.span, condition, conditionKind r.type, r.isDefault, ss⟩ rest))
  | string : Builds exprOnly r (.expr (.string r.span (valueText r.value)))
  | reference : Builds exprOnly r (.expr (.reference r.span (valueText r.value)))
  | number {x : Binary64} (hvalue : valueNumber? r.value = some x) :
      Builds exprOnly r (.expr (.number r.span x))
  | boolean : Builds exprOnly r (.expr (.boolean r.span (valueFlag r.value)))
  | null : Builds exprOnly r (.expr (.null r.span))
  | array {es : List Expr} (hitems : toExprs r.items = .ok es) :
      Builds exprOnly r (.expr (.array r.span es))
  | hash {es : List (Expr × Expr)} (hentries : toEntries r.entries = .ok es) :
      Builds exprOnly r (.expr (.hash r.span es))
  | call {es : List Expr} (hargs : toExprs r.args = .ok es) :
      Builds exprOnly r (.expr (.call r.span r.name es))
  | methodCall {receiver : Expr} {es : List Expr} (hreceiver : linkExpr r.receiver = .ok receiver)
      (hargs : toExprs r.args = .ok es) :
      Builds exprOnly r (.expr (.methodCall r.span receiver r.method es))
  | unary {operand : Expr} (hoperand : linkExpr r.operand = .ok operand) :
      Builds exprOnly r (.expr (.unary r.span r.type operand))
  | binary {left right : Expr} (hleft : linkExpr r.left = .ok left)
      (hright : linkExpr r.right = .ok right) :
      Builds exprOnly r (.expr (.binary r.span r.type left right))

/-- An element that is no expression is only made where one may stand. -/
theorem not_exprOnly {exprOnly : Bool} {kind : String} (hkind : elementKinds.contains kind = true)
    (h : ¬(exprOnly && elementKinds.contains kind) = true) : exprOnly = false := by
  rw [hkind, Bool.and_true] at h
  exact Bool.not_eq_true _ ▸ h

/-- A record becomes nothing else. -/
theorem builds_of_toElement {exprOnly : Bool} {r : Record} {e : Element}
    (h : toElement exprOnly r = .ok e) : Builds exprOnly r e := by
  cases r with
  | mk kind line column endLine endColumn code name path type value expr nameExpr content
      names hasVariable isDefault items entries args receiver method operand left right
      condition otherwise pairs resources vars attributes dependencies statements
      comments unitBlocks modules blocks =>
    -- First the kinds, then for each of them whether it may stand here.
    unfold toElement at h
    split at h
    all_goals
      dsimp only at h
      split at h
    all_goals try (next => cases h)
    · next hkind =>
      obtain ⟨ms, hmodules, h⟩ := bind_eq_ok.1 h
      obtain ⟨bs, hblocks, h⟩ := bind_eq_ok.1 h
      cases h
      exact .project (not_exprOnly rfl hkind) hmodules hblocks
    · next hkind =>
      obtain ⟨bs, hblocks, h⟩ := bind_eq_ok.1 h
      obtain ⟨ms, hmodules, h⟩ := bind_eq_ok.1 h
      cases h
      exact .module (not_exprOnly rfl hkind) hblocks hmodules
    · next hkind =>
      obtain ⟨rs, hresources, h⟩ := bind_eq_ok.1 h
      obtain ⟨vs, hvars, h⟩ := bind_eq_ok.1 h
      obtain ⟨as, hattributes, h⟩ := bind_eq_ok.1 h
      obtain ⟨ds, hdependencies, h⟩ := bind_eq_ok.1 h
      obtain ⟨ss, hstatements, h⟩ := bind_eq_ok.1 h
      obtain ⟨cs, hcomments, h⟩ := bind_eq_ok.1 h
      obtain ⟨bs, hblocks, h⟩ := bind_eq_ok.1 h
      cases h
      exact .block (not_exprOnly rfl hkind) hresources hvars hattributes hdependencies hstatements
        hcomments hblocks
    · next hkind =>
      obtain ⟨name, hname, h⟩ := bind_eq_ok.1 h
      obtain ⟨as, hattributes, h⟩ := bind_eq_ok.1 h
      obtain ⟨ss, hstatements, h⟩ := bind_eq_ok.1 h
      cases h
      exact .resource (not_exprOnly rfl hkind) hname hattributes hstatements
    · next hkind =>
      obtain ⟨value, hvalue, h⟩ := bind_eq_ok.1 h
      obtain ⟨cs, hchildren, h⟩ := bind_eq_ok.1 h
      cases h
      exact .pair .attr (not_exprOnly rfl hkind) hvalue hchildren
    · next hkind =>
      obtain ⟨value, hvalue, h⟩ := bind_eq_ok.1 h
      obtain ⟨cs, hchildren, h⟩ := bind_eq_ok.1 h
      cases h
      exact .pair .var (not_exprOnly rfl hkind) hvalue hchildren
    · next hkind =>
      cases h
      exact .dependency (not_exprOnly rfl hkind)
    · next hkind =>
      cases h
      exact .comment (not_exprOnly rfl hkind)
    · obtain ⟨condition, hcondition, h⟩ := bind_eq_ok.1 h
      obtain ⟨ss, hstatements, h⟩ := bind_eq_ok.1 h
      obtain ⟨rest, hrest, h⟩ := bind_eq_ok.1 h
      cases h
      exact .conditional hcondition hstatements hrest
    · cases h
      exact .string
    · cases h
      exact .reference
    · split at h
      · next hvalue =>
        cases h
        exact .number hvalue
      · cases h
    · split at h
      · next hvalue =>
        cases h
        exact .number hvalue
      · cases h
    · split at h
      · next hvalue =>
        cases h
        exact .number hvalue
      · cases h
    · cases h
      exact .boolean
    · cases h
      exact .null
    · obtain ⟨es, hitems, h⟩ := bind_eq_ok.1 h
      cases h
      exact .array hitems
    · obtain ⟨es, hentries, h⟩ := bind_eq_ok.1 h
      cases h
      exact .hash hentries
    · obtain ⟨es, hargs, h⟩ := bind_eq_ok.1 h
      cases h
      exact .call hargs
    · obtain ⟨receiver, hreceiver, h⟩ := bind_eq_ok.1 h
      obtain ⟨es, hargs, h⟩ := bind_eq_ok.1 h
      cases h
      exact .methodCall hreceiver hargs
    · obtain ⟨operand, hoperand, h⟩ := bind_eq_ok.1 h
      cases h
      exact .unary hoperand
    · obtain ⟨left, hleft, h⟩ := bind_eq_ok.1 h
      obtain ⟨right, hright, h⟩ := bind_eq_ok.1 h
      cases h
      exact .binary hleft hright

/-- An else chain begins with the branch of its record. -/
theorem elseChain_eq (r : Record) :
    elseChain (some r) = (do
      let condition ← linkExpr r.condition
      let statements ← toElements (fun _ => true) r.statements
      let rest ← elseChain r.otherwise
      return ⟨r.span, condition, conditionKind r.type, r.isDefault, statements⟩ :: rest) := by
  cases r
  rfl

end InfraSmells.Record
