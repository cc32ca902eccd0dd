import InfraSmells.Proofs.Datum.Json
import InfraSmells.Proofs.Datum.Pack
import InfraSmells.Proofs.Document.Elements
import InfraSmells.Proofs.Document.Written
import InfraSmells.Proofs.Tree.Numbers

/-!
# Documents that are written and read again

`Document.decode_encode`: a tree that was read from a JSON document is read back from its own
documents. From JSON it comes back as it was. From MessagePack, which leaves out a value that is
zero, it comes back if no number in it is zero, and else the document is refused for a number
without a value.

The tree of a record is written as a record of its own, and the two need not be the same; what is
shown of the second one is `Record.ElementSurvives`, by induction over the first.
-/

namespace InfraSmells.Record

/-! ## Numbers that are lost -/

/-- The values come back with what elements take from them, but for the numbers that are `lost`:
nothing comes back of these. -/
structure Carries (g : Datum → Datum) (lost : Binary64 → Bool) : Prop where
  text : ∀ s, valueText (g (.text s)) = s
  flag : ∀ b, valueFlag (g (.flag b)) = b
  kept : ∀ x : Binary64, x.isFinite = true → lost x = false →
    valueNumber? (g (.number (.float x))) = some x
  dropped : ∀ x : Binary64, lost x = true → g (.number (.float x)) = .null

/-- What is made of records again, `ns` being the numbers in it: the same if no number is lost,
else the error for one that is. -/
def Comes {α : Type} (lost : Binary64 → Bool) (ns : List (Span × Binary64)) (a : α)
    (x : Except DocumentError α) : Prop :=
  ((∀ n ∈ ns, lost n.2 = false) ∧ x = .ok a) ∨
    ∃ n ∈ ns, lost n.2 = true ∧ x = .error (.notNumeric "<nil>" n.1.line)

section
variable {α β : Type} {lost : Binary64 → Bool} {ns ms : List (Span × Binary64)} {a : α}

/-- What holds no number comes back. -/
theorem Comes.ok (a : α) : Comes lost [] a (.ok a) :=
  .inl ⟨fun n hn => (by cases hn), rfl⟩

/-- One after the other comes back if both do. -/
theorem Comes.bind {x : Except DocumentError α} {f : α → Except DocumentError β} {b : β}
    (h : Comes lost ns a x) (hf : Comes lost ms b (f a)) :
    Comes lost (ns ++ ms) b (x >>= f) := by
  rcases h with ⟨hns, rfl⟩ | ⟨n, hn, hlost, rfl⟩
  · rcases hf with ⟨hms, hb⟩ | ⟨m, hm, hlost, hb⟩
    · refine .inl ⟨fun n hn => ?_, hb⟩
      rcases List.mem_append.1 hn with hn | hn
      · exact hns n hn
      · exact hms n hn
    · exact .inr ⟨m, List.mem_append_right _ hm, hlost, hb⟩
  · exact .inr ⟨n, List.mem_append_left _ hn, hlost, rfl⟩

/-- What is made of something that comes back, comes back. -/
theorem Comes.map {x : Except DocumentError α} (h : Comes lost ns a x) (f : α → β) :
    Comes lost ns (f a) (x >>= fun a => pure (f a)) := by
  have := h.bind (f := fun a => pure (f a)) (Comes.ok (f a))
  rwa [List.append_nil] at this

/-- The same computation comes to the same. -/
theorem Comes.cast {x y : Except DocumentError α} (h : Comes lost ns a x) (hns : ms = ns)
    (hx : y = x) : Comes lost ms a y := by
  rw [hns, hx]
  exact h

end

/-! ## What survives -/

/-- The element has a record that can be written and comes back as the element. -/
def ElementSurvives (exprOnly : Bool) (e : Element) : Prop :=
  ∃ r, e.toRecord? = some r ∧ Fits IsWrittenValue r ∧ ∀ g lost, Carries g lost →
    Comes lost e.numbers e (toElement exprOnly (r.mapValue g))

/-- The expression has a record that can be written, if it has one, and comes back. -/
def ExprSurvives (e : Expr) : Prop :=
  LinkFits IsWrittenValue e.toRecord? ∧ ∀ g lost, Carries g lost →
    Comes lost e.numbers e (linkExpr (mapLink g e.toRecord?))

/-- The expressions have records that can be written and come back. -/
def ExprsSurvive (es : List Expr) : Prop :=
  ListFits IsWrittenValue (exprRecords es) ∧ ∀ g lost, Carries g lost →
    Comes lost (exprsNumbers es) es (toExprs (mapList g (exprRecords es)))

/-- The entries of a hash have records that can be written and come back. -/
def EntriesSurvive (es : List (Expr × Expr)) : Prop :=
  EntriesFit IsWrittenValue (entryRecords es) ∧ ∀ g lost, Carries g lost →
    Comes lost (entriesNumbers es) es (toEntries (mapEntries g (entryRecords es)))

/-- The branches of an else chain have records that can be written and come back. -/
def ChainSurvives (bs : List Branch) : Prop :=
  LinkFits IsWrittenValue (chainRecord bs) ∧ ∀ g lost, Carries g lost →
    Comes lost (chainNumbers bs) bs (elseChain (mapLink g (chainRecord bs)))

/-- The elements, all of them acceptable, have records that can be written and come back. -/
def ElementsSurvive (accepts : Element → Bool) (es : List Element) : Prop :=
  (∀ e ∈ es, accepts e = true) ∧ ListFits IsWrittenValue (elementRecords es) ∧
    ∀ g lost, Carries g lost →
      Comes lost (elementsNumbers es) es (toElements accepts (mapList g (elementRecords es)))

/-- Whatever a record becomes, survives. -/
def Survives (r : Record) : Prop :=
  (∀ exprOnly e, toElement exprOnly r = .ok e → ElementSurvives exprOnly e) ∧
    ∀ bs, elseChain (some r) = .ok bs → ChainSurvives bs

/-- Where only an expression may stand, a record becomes one. -/
theorem Builds.expr {r : Record} {e : Element} (h : Builds true r e) : ∃ x, e = .expr x := by
  cases h
  case project h _ _ => cases h
  case module h _ _ => cases h
  case block h _ _ _ _ _ _ _ => cases h
  case resource h _ _ _ => cases h
  case pair h _ _ => cases h
  case dependency h => cases h
  case comment h => cases h
  all_goals exact ⟨_, rfl⟩

/-- The expression in a member survives. -/
theorem exprSurvives_linkExpr {x : Option Record} (h : ∀ c, x = some c → Survives c) {e : Expr}
    (he : linkExpr x = .ok e) : ExprSurvives e := by
  cases x with
  | none =>
    rw [linkExpr] at he
    cases he
    exact ⟨fun c hc => (by cases hc), fun g lost _ => .ok _⟩
  | some c =>
    rw [linkExpr] at he
    cases hc : toElement true c with
    | error err =>
      rw [hc] at he
      cases he
    | ok el =>
      rw [hc] at he
      cases he
      obtain ⟨y, rfl⟩ := (builds_of_toElement hc).expr
      obtain ⟨r, hr, hfits, hcomes⟩ := (h c rfl).1 true _ hc
      have hr : y.toRecord? = some r := hr
      show ExprSurvives y
      refine ⟨fun c hc => ?_, fun g lost hg => ?_⟩
      · rw [hr] at hc
        cases hc
        exact hfits
      · rw [hr]
        refine ((hcomes g lost hg).map (·.toExpr)).cast rfl ?_
        rw [mapLink, linkExpr]
        cases toElement true (mapValue g r) <;> rfl

/-- The expressions in a member survive. -/
theorem exprsSurvive_toExprs {xs : List (Option Record)} (h : ∀ c, some c ∈ xs → Survives c) :
    ∀ {es : List Expr}, toExprs xs = .ok es → ExprsSurvive es := by
  induction xs with
  | nil =>
    intro es hes
    rw [toExprs] at hes
    cases hes
    exact ⟨fun x hx => (by cases hx), fun g lost _ => .ok _⟩
  | cons x xs ih =>
    intro es hes
    rw [toExprs] at hes
    obtain ⟨e, he, hes⟩ := bind_eq_ok.1 hes
    obtain ⟨es', hes', heq⟩ := bind_eq_ok.1 hes
    cases heq
    have ⟨hfit, hcome⟩ := exprSurvives_linkExpr (fun c hc => h c (hc ▸ .head _)) he
    have ⟨hfits, hcomes⟩ := ih (fun c hc => h c (.tail _ hc)) hes'
    refine ⟨fun y hy => ?_, fun g lost hg => ?_⟩
    · rcases List.mem_cons.1 hy with rfl | hy
      · exact hfit
      · exact hfits y hy
    · rw [exprRecords, mapList_cons, toExprs, exprsNumbers]
      exact (hcome g lost hg).bind ((hcomes g lost hg).map (e :: ·))

/-- The entries of a hash survive. -/
theorem entriesSurvive_toEntries {xs : List (Option Record × Option Record)}
    (h : ∀ x ∈ xs, ∀ c, x.1 = some c ∨ x.2 = some c → Survives c) :
    ∀ {es : List (Expr × Expr)}, toEntries xs = .ok es → EntriesSurvive es := by
  induction xs with
  | nil =>
    intro es hes
    rw [toEntries] at hes
    cases hes
    exact ⟨fun x hx => (by cases hx), fun g lost _ => .ok _⟩
  | cons x xs ih =>
    intro es hes
    rw [toEntries] at hes
    obtain ⟨k, hk, hes⟩ := bind_eq_ok.1 hes
    obtain ⟨v, hv, hes⟩ := bind_eq_ok.1 hes
    obtain ⟨es', hes', heq⟩ := bind_eq_ok.1 hes
    cases heq
    have ⟨hkfit, hkcome⟩ := exprSurvives_linkExpr (fun c hc => h x (.head _) c (.inl hc)) hk
    have ⟨hvfit, hvcome⟩ := exprSurvives_linkExpr (fun c hc => h x (.head _) c (.inr hc)) hv
    have ⟨hfits, hcomes⟩ := ih (fun y hy => h y (.tail _ hy)) hes'
    refine ⟨fun y hy => ?_, fun g lost hg => ?_⟩
    · rcases List.mem_cons.1 hy with rfl | hy
      · exact ⟨hkfit, hvfit⟩
      · exact hfits y hy
    · rw [entryRecords, mapEntries, toEntries, entriesNumbers, List.append_assoc]
      exact (hkcome g lost hg).bind ((hvcome g lost hg).bind
        ((hcomes g lost hg).map ((k, v) :: ·)))

/-- The elements in a member survive. -/
theorem elementsSurvive_toElements {accepts : Element → Bool} {xs : List (Option Record)}
    (h : ∀ c, some c ∈ xs → Survives c) :
    ∀ {es : List Element}, toElements accepts xs = .ok es → ElementsSurvive accepts es := by
  induction xs with
  | nil =>
    intro es hes
    rw [toElements] at hes
    cases hes
    exact ⟨fun x hx => (by cases hx), fun x hx => (by cases hx), fun g lost _ => .ok _⟩
  | cons x xs ih =>
    intro es hes
    cases x with
    | none =>
      rw [toElements] at hes
      cases hes
    | some c =>
      rw [toElements] at hes
      obtain ⟨e, he, hes⟩ := bind_eq_ok.1 hes
      split at hes
      · cases hes
      next haccepts =>
      obtain ⟨es', hes', heq⟩ := bind_eq_ok.1 hes
      cases heq
      have haccepts : accepts e = true := by simpa using haccepts
      obtain ⟨r, hr, hfit, hcome⟩ := (h c (.head _)).1 false e he
      have ⟨hall, hfits, hcomes⟩ := ih (fun c hc => h c (.tail _ hc)) hes'
      refine ⟨fun y hy => ?_, fun y hy => ?_, fun g lost hg => ?_⟩
      · rcases List.mem_cons.1 hy with rfl | hy
        · exact haccepts
        · exact hall y hy
      · rw [elementRecords, hr] at hy
        rcases List.mem_cons.1 hy with rfl | hy
        · rintro c ⟨⟩
          exact hfit
        · exact hfits y hy
      · rw [elementRecords, hr, mapList, toElements, elementsNumbers]
        refine (hcome g lost hg).bind ?_
        simp only [haccepts]
        exact (hcomes g lost hg).map (e :: ·)

/-! ## Lists of one kind of element -/

/-- The records and the numbers of lists of what `proj` takes from elements are those of the
elements. -/
structure Listed {α : Type} (proj : Element → Option α) (records : List α → List (Option Record))
    (numbers : List α → List (Span × Binary64)) : Prop where
  nil : records [] = [] ∧ numbers [] = []
  cons : ∀ {e a as}, proj e = some a →
    records (a :: as) = e.toRecord? :: records as ∧ numbers (a :: as) = e.numbers ++ numbers as

/-- Elements of one kind survive as a list of this kind. -/
theorem Listed.survive {α : Type} {proj : Element → Option α}
    {records : List α → List (Option Record)} {numbers : List α → List (Span × Binary64)}
    (h : Listed proj records numbers) {es : List Element}
    (hes : ElementsSurvive (fun e => (proj e).isSome) es) :
    ListFits IsWrittenValue (records (es.filterMap proj)) ∧ ∀ g lost, Carries g lost →
      Comes lost (numbers (es.filterMap proj)) es
        (toElements (fun e => (proj e).isSome) (mapList g (records (es.filterMap proj)))) := by
  have ⟨hall, hfits, hcomes⟩ := hes
  have hsame : records (es.filterMap proj) = elementRecords es ∧
      numbers (es.filterMap proj) = elementsNumbers es := by
    clear hes hfits hcomes
    induction es with
    | nil => exact h.nil
    | cons e es ih =>
      obtain ⟨a, ha⟩ := Option.isSome_iff_exists.1 (hall e (.head _))
      have ⟨hrecords, hnumbers⟩ := ih fun e' he' => hall e' (.tail _ he')
      rw [List.filterMap_cons_some ha, (h.cons ha).1, (h.cons ha).2, hrecords, hnumbers,
        elementRecords, elementsNumbers]
      exact ⟨rfl, rfl⟩
  rw [hsame.1, hsame.2]
  exact ⟨hfits, hcomes⟩

theorem listed_modules : Listed (·.module?) moduleRecords modulesNumbers :=
  ⟨⟨rfl, rfl⟩, fun {e a as} h => by cases e <;> cases h; exact ⟨rfl, rfl⟩⟩

theorem listed_blocks : Listed (·.block?) blockRecords blocksNumbers :=
  ⟨⟨rfl, rfl⟩, fun {e a as} h => by cases e <;> cases h; exact ⟨rfl, rfl⟩⟩

theorem listed_resources : Listed (·.resource?) resourceRecords resourcesNumbers :=
  ⟨⟨rfl, rfl⟩, fun {e a as} h => by cases e <;> cases h; exact ⟨rfl, rfl⟩⟩

theorem listed_pairs : Listed (·.pair?) pairRecords pairsNumbers :=
  ⟨⟨rfl, rfl⟩, fun {e a as} h => by cases e <;> cases h; exact ⟨rfl, rfl⟩⟩

theorem listed_dependencies :
    Listed (·.dependency?) (·.map (some ·.toRecord)) (fun _ => []) :=
  ⟨⟨rfl, rfl⟩, fun {e a as} h => by cases e <;> cases h; exact ⟨rfl, rfl⟩⟩

theorem listed_comments : Listed (·.comment?) (·.map (some ·.toRecord)) (fun _ => []) :=
  ⟨⟨rfl, rfl⟩, fun {e a as} h => by cases e <;> cases h; exact ⟨rfl, rfl⟩⟩

/-! ## Each kind of element -/

/-- The text of a value that was read is plain. -/
theorem isPlain_valueText {d : Datum} (h : IsReadValue d) : Text.IsPlain (valueText d) := by
  obtain ⟨e, he, rfl⟩ := h
  cases e
  case text => exact he
  all_goals exact ⟨[], rfl⟩

/-- The number of a value that was read is finite. -/
theorem isFinite_valueNumber? {d : Datum} (h : IsReadValue d) {x : Binary64}
    (hx : valueNumber? d = some x) : x.isFinite = true := by
  obtain ⟨e, he, rfl⟩ := h
  cases e
  case number n =>
    cases n
    case decimal =>
      obtain ⟨hfinite, heq⟩ := Option.ite_none_right_eq_some.1 hx
      cases heq
      exact hfinite
    all_goals cases he
  all_goals cases hx

/-- The kind of a conditional is read back. -/
theorem conditionKind_written (k : ConditionKind) :
    Text.IsPlain k.written ∧ conditionKind k.written = k := by
  refine ⟨?_, by cases k <;> decide⟩
  cases k <;> exact Text.isPlain_ascii rfl

/-- The type of a block is read back. -/
theorem ofName_name (t : BlockType) : Text.IsPlain t.name ∧ BlockType.ofName t.name = t := by
  refine ⟨?_, by cases t <;> decide⟩
  cases t <;> exact Text.isPlain_ascii rfl

section
variable {r : Record} (hown : OwnFits IsReadValue r)
include hown

/-- A record with the span of another one fits. -/
theorem OwnFits.at (kind : String) (hkind : Text.isAscii kind = true) :
    OwnFits IsWrittenValue (Record.at r.span kind) where
  kind := Text.isPlain_ascii hkind
  line := hown.line
  column := hown.column
  endLine := hown.endLine
  endColumn := hown.endColumn
  code := hown.code
  name := ⟨[], rfl⟩
  path := ⟨[], rfl⟩
  type := ⟨[], rfl⟩
  value := .null
  content := ⟨[], rfl⟩
  names := fun s hs => by cases hs
  method := ⟨[], rfl⟩

variable {exprOnly : Bool}

/-- A string survives. -/
theorem survives_string :
    ElementSurvives exprOnly (.expr (.string r.span (valueText r.value))) := by
  have hown' : OwnFits IsWrittenValue
      { Record.at r.span "String" with value := .text (valueText r.value) } :=
    { hown.at "String" rfl with value := .text (isPlain_valueText hown.value) }
  refine ⟨_, rfl, .of_own hown' rfl, fun g lost hg => ?_⟩
  refine Comes.cast
    (x := .ok (.expr (.string r.span (valueText (g (.text (valueText r.value)))))))
    ?_ rfl (by cases exprOnly <;> rfl)
  rw [hg.text]
  exact .ok _

/-- A reference survives. -/
theorem survives_reference :
    ElementSurvives exprOnly (.expr (.reference r.span (valueText r.value))) := by
  have hown' : OwnFits IsWrittenValue
      { Record.at r.span "VariableReference" with value := .text (valueText r.value) } :=
    { hown.at "VariableReference" rfl with value := .text (isPlain_valueText hown.value) }
  refine ⟨_, rfl, .of_own hown' rfl, fun g lost hg => ?_⟩
  refine Comes.cast
    (x := .ok (.expr (.reference r.span (valueText (g (.text (valueText r.value)))))))
    ?_ rfl (by cases exprOnly <;> rfl)
  rw [hg.text]
  exact .ok _

/-- A truth value survives. -/
theorem survives_boolean :
    ElementSurvives exprOnly (.expr (.boolean r.span (valueFlag r.value))) := by
  have hown' : OwnFits IsWrittenValue
      { Record.at r.span "Boolean" with value := .flag (valueFlag r.value) } :=
    { hown.at "Boolean" rfl with value := .flag _ }
  refine ⟨_, rfl, .of_own hown' rfl, fun g lost hg => ?_⟩
  refine Comes.cast (x := .ok (.expr (.boolean r.span (valueFlag (g (.flag (valueFlag r.value)))))))
    ?_ rfl (by cases exprOnly <;> rfl)
  rw [hg.flag]
  exact .ok _

/-- A null survives. -/
theorem survives_null : ElementSurvives exprOnly (.expr (.null r.span)) :=
  ⟨_, rfl, .of_own (hown.at "Null" rfl) rfl,
    fun _ _ _ => (Comes.ok _).cast rfl (by cases exprOnly <;> rfl)⟩

/-- A number survives, unless it is lost. -/
theorem survives_number {x : Binary64} (hx : valueNumber? r.value = some x) :
    ElementSurvives exprOnly (.expr (.number r.span x)) := by
  have hfinite := isFinite_valueNumber? hown.value hx
  have hown' : OwnFits IsWrittenValue
      { Record.at r.span "Number" with value := .number (.float x) } :=
    { hown.at "Number" rfl with value := .number hfinite }
  refine ⟨_, rfl, .of_own hown' rfl, fun g lost hg => ?_⟩
  -- Whether it is read as a number or refused hangs on what `g` makes of it.
  cases hlost : lost x with
  | false =>
    refine Comes.cast (x := .ok (.expr (.number r.span x))) (.inl ⟨fun n hn => ?_, rfl⟩) rfl ?_
    · rw [List.mem_singleton.1 hn]
      exact hlost
    · cases exprOnly <;> (conv => lhs; whnf) <;> rw [hg.kept x hfinite hlost] <;> rfl
  | true =>
    refine Comes.cast (x := .error (.notNumeric "<nil>" r.span.line))
      (.inr ⟨_, .head _, hlost, rfl⟩) rfl ?_
    cases exprOnly <;> (conv => lhs; whnf) <;> rw [hg.dropped x hlost] <;> rfl

/-- A list survives. -/
theorem survives_array {es : List Expr} (hes : ExprsSurvive es) :
    ElementSurvives exprOnly (.expr (.array r.span es)) := by
  have hfits := (Fits.of_own (hown.at "Array" rfl) rfl).setList hes.1 .items
  refine ⟨_, rfl, hfits, fun g lost hg => ?_⟩
  exact ((hes.2 g lost hg).map fun es => Element.expr (.array r.span es)).cast rfl
    (by cases exprOnly <;> rfl)

/-- A hash survives. -/
theorem survives_hash {es : List (Expr × Expr)} (hes : EntriesSurvive es) :
    ElementSurvives exprOnly (.expr (.hash r.span es)) := by
  have hfits := (Fits.of_own (hown.at "Hash" rfl) rfl).setEntries hes.1
  refine ⟨_, rfl, hfits, fun g lost hg => ?_⟩
  exact ((hes.2 g lost hg).map fun es => Element.expr (.hash r.span es)).cast rfl
    (by cases exprOnly <;> rfl)

/-- A call survives. -/
theorem survives_call {es : List Expr} (hes : ExprsSurvive es) :
    ElementSurvives exprOnly (.expr (.call r.span r.name es)) := by
  have hown' : OwnFits IsWrittenValue { Record.at r.span "FunctionCall" with name := r.name } :=
    { hown.at "FunctionCall" rfl with name := hown.name }
  have hfits := (Fits.of_own hown' rfl).setList hes.1 .args
  refine ⟨_, rfl, hfits, fun g lost hg => ?_⟩
  exact ((hes.2 g lost hg).map fun es => Element.expr (.call r.span r.name es)).cast rfl
    (by cases exprOnly <;> rfl)

/-- A method call survives. -/
theorem survives_methodCall {receiver : Expr} (hreceiver : ExprSurvives receiver) {es : List Expr}
    (hes : ExprsSurvive es) :
    ElementSurvives exprOnly (.expr (.methodCall r.span receiver r.method es)) := by
  have hown' : OwnFits IsWrittenValue { Record.at r.span "MethodCall" with method := r.method } :=
    { hown.at "MethodCall" rfl with method := hown.method }
  have hfits := ((Fits.of_own hown' rfl).setLink hreceiver.1 .receiver).setList hes.1 .args
  refine ⟨_, rfl, hfits, fun g lost hg => ?_⟩
  refine Comes.cast
    (x := do
      let receiver ← linkExpr (mapLink g receiver.toRecord?)
      let es ← toExprs (mapList g (exprRecords es))
      return .expr (.methodCall r.span receiver r.method es))
    ?_ rfl (by cases exprOnly <;> rfl)
  exact (hreceiver.2 g lost hg).bind ((hes.2 g lost hg).map _)

/-- An operation on one operand survives. -/
theorem survives_unary {operand : Expr} (hoperand : ExprSurvives operand) :
    ElementSurvives exprOnly (.expr (.unary r.span r.type operand)) := by
  have hown' : OwnFits IsWrittenValue { Record.at r.span "UnaryOperation" with type := r.type } :=
    { hown.at "UnaryOperation" rfl with type := hown.type }
  have hfits := (Fits.of_own hown' rfl).setLink hoperand.1 .operand
  refine ⟨_, rfl, hfits, fun g lost hg => ?_⟩
  exact ((hoperand.2 g lost hg).map fun e => Element.expr (.unary r.span r.type e)).cast rfl
    (by cases exprOnly <;> rfl)

/-- An operation on two operands survives. -/
theorem survives_binary {left right : Expr} (hleft : ExprSurvives left)
    (hright : ExprSurvives right) :
    ElementSurvives exprOnly (.expr (.binary r.span r.type left right)) := by
  have hown' : OwnFits IsWrittenValue { Record.at r.span "BinaryOperation" with type := r.type } :=
    { hown.at "BinaryOperation" rfl with type := hown.type }
  have hfits := ((Fits.of_own hown' rfl).setLink hleft.1 .left).setLink hright.1 .right
  refine ⟨_, rfl, hfits, fun g lost hg => ?_⟩
  refine Comes.cast
    (x := do
      let left ← linkExpr (mapLink g left.toRecord?)
      let right ← linkExpr (mapLink g right.toRecord?)
      return .expr (.binary r.span r.type left right))
    ?_ rfl (by cases exprOnly <;> rfl)
  exact (hleft.2 g lost hg).bind ((hright.2 g lost hg).map _)

/-- A branch and what follows it have a record that can be written and come back. -/
theorem chainSurvives_cons {condition : Expr} (hcondition : ExprSurvives condition)
    {ss : List Element} (hss : ElementsSurvive (fun _ => true) ss) {rest : List Branch}
    (hrest : ChainSurvives rest) (kind : ConditionKind) :
    ChainSurvives (⟨r.span, condition, kind, r.isDefault, ss⟩ :: rest) := by
  have hown' : OwnFits IsWrittenValue { Record.at r.span "ConditionalStatement" with
      type := kind.written, isDefault := r.isDefault } :=
    { hown.at "ConditionalStatement" rfl with type := (conditionKind_written kind).1 }
  have hfits := (((Fits.of_own hown' rfl).setLink hcondition.1 .condition).setList hss.2.1
    .statements).setLink hrest.1 .otherwise
  refine ⟨fun c hc => ?_, fun g lost hg => ?_⟩
  · cases hc
    exact hfits
  · refine Comes.cast
      (x := do
        let condition ← linkExpr (mapLink g condition.toRecord?)
        let ss ← toElements (fun _ => true) (mapList g (elementRecords ss))
        let rest ← elseChain (mapLink g (chainRecord rest))
        return ⟨r.span, condition, conditionKind kind.written, r.isDefault, ss⟩ :: rest)
      ?_ rfl rfl
    rw [(conditionKind_written kind).2, chainNumbers, Branch.numbers, List.append_assoc]
    exact (hcondition.2 g lost hg).bind ((hss.2.2 g lost hg).bind ((hrest.2 g lost hg).map _))

/-- A conditional survives. -/
theorem survives_conditional {condition : Expr} (hcondition : ExprSurvives condition)
    {ss : List Element} (hss : ElementsSurvive (fun _ => true) ss) {rest : List Branch}
    (hrest : ChainSurvives rest) (kind : ConditionKind) :
    ElementSurvives exprOnly
      (.expr (.conditional ⟨r.span, condition, kind, r.isDefault, ss⟩ rest)) := by
  have hfits := (chainSurvives_cons hown hcondition hss hrest kind).1 _ rfl
  refine ⟨_, rfl, hfits, fun g lost hg => ?_⟩
  refine Comes.cast
    (x := do
      let condition ← linkExpr (mapLink g condition.toRecord?)
      let ss ← toElements (fun _ => true) (mapList g (elementRecords ss))
      let rest ← elseChain (mapLink g (chainRecord rest))
      return .expr
        (.conditional ⟨r.span, condition, conditionKind kind.written, r.isDefault, ss⟩ rest))
    ?_ rfl (by cases exprOnly <;> rfl)
  rw [(conditionKind_written kind).2, Element.numbers, Expr.numbers, Branch.numbers,
    List.append_assoc]
  exact (hcondition.2 g lost hg).bind ((hss.2.2 g lost hg).bind ((hrest.2 g lost hg).map _))

/-- A dependency survives. -/
theorem survives_dependency : ElementSurvives false (.dependency ⟨r.span, r.names⟩) := by
  have hown' : OwnFits IsWrittenValue { Record.at r.span "Dependency" with names := r.names } :=
    { hown.at "Dependency" rfl with names := hown.names }
  exact ⟨_, rfl, .of_own hown' rfl, fun _ _ _ => (Comes.ok _).cast rfl rfl⟩

/-- A comment survives. -/
theorem survives_comment : ElementSurvives false (.comment ⟨r.span, r.content⟩) := by
  have hown' : OwnFits IsWrittenValue { Record.at r.span "Comment" with content := r.content } :=
    { hown.at "Comment" rfl with content := hown.content }
  exact ⟨_, rfl, .of_own hown' rfl, fun _ _ _ => (Comes.ok _).cast rfl rfl⟩

/-- A pair survives; its value still has the references that it had. -/
theorem survives_pair {value : Expr} (hvalue : ExprSurvives value) {cs : List Element}
    (hcs : ElementsSurvive (fun e => e.pair?.isSome) cs) (kind : PairKind) :
    ElementSurvives false (.pair ⟨r.span, kind, r.name, value,
      r.hasVariable || value.containsReference, cs.filterMap (·.pair?)⟩) := by
  have hown' : OwnFits IsWrittenValue { Record.at r.span kind.written with
      name := r.name, hasVariable := r.hasVariable || value.containsReference } := by
    cases kind
    case attr => exact { hown.at "Attribute" rfl with name := hown.name }
    case var => exact { hown.at "Variable" rfl with name := hown.name }
  have ⟨hchildren, hcomes⟩ := listed_pairs.survive hcs
  have hfits := ((Fits.of_own hown' rfl).setLink hvalue.1 .expr).setList hchildren .pairs
  refine ⟨_, rfl, hfits, fun g lost hg => ?_⟩
  refine Comes.cast
    (x := do
      let value' ← linkExpr (mapLink g value.toRecord?)
      let cs' ← toElements (·.pair?.isSome) (mapList g (pairRecords (cs.filterMap (·.pair?))))
      return .pair ⟨r.span, kind, r.name, value', (r.hasVariable || value.containsReference) ||
        value'.containsReference, cs'.filterMap (·.pair?)⟩)
    ?_ rfl (by cases kind <;> rfl)
  have hflag : (r.hasVariable || value.containsReference) =
      ((r.hasVariable || value.containsReference) || value.containsReference) := by
    rw [Bool.or_assoc, Bool.or_self]
  conv => enter [3]; rw [hflag]
  exact (hvalue.2 g lost hg).bind ((hcomes g lost hg).map _)

/-- A resource survives. -/
theorem survives_resource {name : Expr} (hname : ExprSurvives name) {as ss : List Element}
    (has : ElementsSurvive (fun e => e.pair?.isSome) as)
    (hss : ElementsSurvive (fun _ => true) ss) :
    ElementSurvives false (.resource ⟨r.span, name, r.type, as.filterMap (·.pair?), ss⟩) := by
  have hown' : OwnFits IsWrittenValue { Record.at r.span "AtomicUnit" with type := r.type } :=
    { hown.at "AtomicUnit" rfl with type := hown.type }
  have ⟨hattributes, hcomes⟩ := listed_pairs.survive has
  have hfits := (((Fits.of_own hown' rfl).setLink hname.1 .nameExpr).setList hattributes
    .attributes).setList hss.2.1 .statements
  refine ⟨_, rfl, hfits, fun g lost hg => ?_⟩
  refine Comes.cast
    (x := do
      let name ← linkExpr (mapLink g name.toRecord?)
      let as ← toElements (·.pair?.isSome) (mapList g (pairRecords (as.filterMap (·.pair?))))
      let ss ← toElements (fun _ => true) (mapList g (elementRecords ss))
      return .resource ⟨r.span, name, r.type, as.filterMap (·.pair?), ss⟩)
    ?_ rfl rfl
  rw [Element.numbers, Resource.numbers, List.append_assoc]
  exact (hname.2 g lost hg).bind ((hcomes g lost hg).bind ((hss.2.2 g lost hg).map _))

/-- A block survives. -/
theorem survives_block {rs vs as ds ss cs bs : List Element}
    (hrs : ElementsSurvive (fun e => e.resource?.isSome) rs)
    (hvs : ElementsSurvive (fun e => e.pair?.isSome) vs)
    (has : ElementsSurvive (fun e => e.pair?.isSome) as)
    (hds : ElementsSurvive (fun e => e.dependency?.isSome) ds)
    (hss : ElementsSurvive (fun _ => true) ss)
    (hcs : ElementsSurvive (fun e => e.comment?.isSome) cs)
    (hbs : ElementsSurvive (fun e => e.block?.isSome) bs) (type : BlockType) :
    ElementSurvives false (.block
      { span := r.span, name := r.name, type := type, path := r.path, statements := ss
        resources := rs.filterMap (·.resource?), vars := vs.filterMap (·.pair?)
        attributes := as.filterMap (·.pair?), dependencies := ds.filterMap (·.dependency?)
        comments := cs.filterMap (·.comment?), blocks := bs.filterMap (·.block?) }) := by
  have hown' : OwnFits IsWrittenValue { Record.at r.span "UnitBlock" with
      name := r.name, type := type.name, path := r.path } :=
    { hown.at "UnitBlock" rfl with
      name := hown.name, type := (ofName_name type).1, path := hown.path }
  have ⟨hresources, hrcomes⟩ := listed_resources.survive hrs
  have ⟨hvars, hvcomes⟩ := listed_pairs.survive hvs
  have ⟨hattributes, hacomes⟩ := listed_pairs.survive has
  have ⟨hdependencies, hdcomes⟩ := listed_dependencies.survive hds
  have ⟨hcomments, hccomes⟩ := listed_comments.survive hcs
  have ⟨hblocks, hbcomes⟩ := listed_blocks.survive hbs
  have hfits := (((((((Fits.of_own hown' rfl).setList hresources .resources).setList hvars
    .vars).setList hattributes .attributes).setList hdependencies .dependencies).setList hss.2.1
    .statements).setList hcomments .comments).setList hblocks .unitBlocks
  refine ⟨_, rfl, hfits, fun g lost hg => ?_⟩
  refine Comes.cast
    (x := do
      let rs ← toElements (·.resource?.isSome)
        (mapList g (resourceRecords (rs.filterMap (·.resource?))))
      let vs ← toElements (·.pair?.isSome) (mapList g (pairRecords (vs.filterMap (·.pair?))))
      let as ← toElements (·.pair?.isSome) (mapList g (pairRecords (as.filterMap (·.pair?))))
      let ds ← toElements (·.dependency?.isSome)
        (mapList g ((ds.filterMap (·.dependency?)).map (some ·.toRecord)))
      let ss ← toElements (fun _ => true) (mapList g (elementRecords ss))
      let cs ← toElements (·.comment?.isSome)
        (mapList g ((cs.filterMap (·.comment?)).map (some ·.toRecord)))
      let bs ← toElements (·.block?.isSome) (mapList g (blockRecords (bs.filterMap (·.block?))))
      return .block
        { span := r.span, name := r.name, type := .ofName type.name, path := r.path
          statements := ss
          resources := rs.filterMap (·.resource?), vars := vs.filterMap (·.pair?)
          attributes := as.filterMap (·.pair?), dependencies := ds.filterMap (·.dependency?)
          comments := cs.filterMap (·.comment?), blocks := bs.filterMap (·.block?) })
    ?_ rfl rfl
  rw [(ofName_name type).2, Element.numbers, Block.numbers]
  simp only [List.append_assoc]
  exact (hrcomes g lost hg).bind ((hvcomes g lost hg).bind ((hacomes g lost hg).bind
    ((hdcomes g lost hg).bind ((hss.2.2 g lost hg).bind ((hccomes g lost hg).bind
    ((hbcomes g lost hg).map _))))))

/-- A module survives. -/
theorem survives_module {bs ms : List Element}
    (hbs : ElementsSurvive (fun e => e.block?.isSome) bs)
    (hms : ElementsSurvive (fun e => e.module?.isSome) ms) :
    ElementSurvives false
      (.module ⟨r.name, r.path, bs.filterMap (·.block?), ms.filterMap (·.module?)⟩) := by
  have hkind : Text.IsPlain "Module" := Text.isPlain_ascii rfl
  have hown' : OwnFits IsWrittenValue { kind := "Module", name := r.name, path := r.path } :=
    { (fits_empty .null).own with kind := hkind, name := hown.name, path := hown.path }
  have ⟨hblocks, hbcomes⟩ := listed_blocks.survive hbs
  have ⟨hmodules, hmcomes⟩ := listed_modules.survive hms
  have hfits := ((Fits.of_own hown' rfl).setList hblocks .blocks).setList hmodules .modules
  refine ⟨_, rfl, hfits, fun g lost hg => ?_⟩
  refine Comes.cast
    (x := do
      let bs ← toElements (·.block?.isSome) (mapList g (blockRecords (bs.filterMap (·.block?))))
      let ms ← toElements (·.module?.isSome) (mapList g (moduleRecords (ms.filterMap (·.module?))))
      return .module ⟨r.name, r.path, bs.filterMap (·.block?), ms.filterMap (·.module?)⟩)
    ?_ rfl rfl
  exact (hbcomes g lost hg).bind ((hmcomes g lost hg).map _)

/-- A project survives. -/
theorem survives_project {ms bs : List Element}
    (hms : ElementsSurvive (fun e => e.module?.isSome) ms)
    (hbs : ElementsSurvive (fun e => e.block?.isSome) bs) :
    ElementSurvives false
      (.project ⟨r.name, ms.filterMap (·.module?), bs.filterMap (·.block?)⟩) := by
  have hkind : Text.IsPlain "Project" := Text.isPlain_ascii rfl
  have hown' : OwnFits IsWrittenValue { kind := "Project", name := r.name } :=
    { (fits_empty .null).own with kind := hkind, name := hown.name }
  have ⟨hmodules, hmcomes⟩ := listed_modules.survive hms
  have ⟨hblocks, hbcomes⟩ := listed_blocks.survive hbs
  have hfits := ((Fits.of_own hown' rfl).setList hmodules .modules).setList hblocks .blocks
  refine ⟨_, rfl, hfits, fun g lost hg => ?_⟩
  refine Comes.cast
    (x := do
      let ms ← toElements (·.module?.isSome) (mapList g (moduleRecords (ms.filterMap (·.module?))))
      let bs ← toElements (·.block?.isSome) (mapList g (blockRecords (bs.filterMap (·.block?))))
      return .project ⟨r.name, ms.filterMap (·.module?), bs.filterMap (·.block?)⟩)
    ?_ rfl rfl
  exact (hmcomes g lost hg).bind ((hbcomes g lost hg).map _)

end

/-! ## Every record -/

/-- The branches of an else chain survive. -/
theorem chainSurvives_elseChain {x : Option Record} (h : ∀ c, x = some c → Survives c)
    {bs : List Branch} (hbs : elseChain x = .ok bs) : ChainSurvives bs := by
  cases x with
  | none =>
    rw [elseChain] at hbs
    cases hbs
    exact ⟨fun c hc => (by cases hc), fun g lost _ => .ok _⟩
  | some c => exact (h c rfl).2 bs hbs

/-- Whatever a record that was read becomes, survives. -/
theorem survives_of_fits {r : Record} (h : Fits IsReadValue r) : Survives r := by
  induction r using Record.induction with
  | step r ih =>
    have hown := h.own
    have hparts (c : Record) (hc : IsPart c r) : Survives c := ih c hc (h.parts c hc)
    have hlink (f : LinkField) {e : Expr} (he : linkExpr (r.link f) = .ok e) : ExprSurvives e :=
      exprSurvives_linkExpr (fun c hc => hparts c (.link f hc)) he
    have hexprs (f : ListField) {es : List Expr} (hes : toExprs (r.list f) = .ok es) :
        ExprsSurvive es :=
      exprsSurvive_toExprs (fun c hc => hparts c (.list f hc)) hes
    have hlist (f : ListField) {accepts : Element → Bool} {es : List Element}
        (hes : toElements accepts (r.list f) = .ok es) : ElementsSurvive accepts es :=
      elementsSurvive_toElements (fun c hc => hparts c (.list f hc)) hes
    have hchain {bs : List Branch} (hbs : elseChain r.otherwise = .ok bs) : ChainSurvives bs :=
      chainSurvives_elseChain (fun c hc => hparts c (.link .otherwise hc)) hbs
    refine ⟨fun exprOnly e he => ?_, fun bs hbs => ?_⟩
    · cases builds_of_toElement he with
      | project honly hmodules hblocks =>
        subst honly
        exact survives_project hown (hlist .modules hmodules) (hlist .blocks hblocks)
      | module honly hblocks hmodules =>
        subst honly
        exact survives_module hown (hlist .blocks hblocks) (hlist .modules hmodules)
      | block honly hresources hvars hattributes hdependencies hstatements hcomments hblocks =>
        subst honly
        exact survives_block hown (hlist .resources hresources) (hlist .vars hvars)
          (hlist .attributes hattributes) (hlist .dependencies hdependencies)
          (hlist .statements hstatements) (hlist .comments hcomments) (hlist .unitBlocks hblocks) _
      | resource honly hname hattributes hstatements =>
        subst honly
        exact survives_resource hown (hlink .nameExpr hname) (hlist .attributes hattributes)
          (hlist .statements hstatements)
      | pair kind honly hvalue hchildren =>
        subst honly
        exact survives_pair hown (hlink .expr hvalue) (hlist .pairs hchildren) kind
      | dependency honly =>
        subst honly
        exact survives_dependency hown
      | comment honly =>
        subst honly
        exact survives_comment hown
      | conditional hcondition hstatements hrest =>
        exact survives_conditional hown (hlink .condition hcondition)
          (hlist .statements hstatements) (hchain hrest) _
      | string => exact survives_string hown
      | reference => exact survives_reference hown
      | number hvalue => exact survives_number hown hvalue
      | boolean => exact survives_boolean hown
      | null => exact survives_null hown
      | array hitems => exact survives_array hown (hexprs .items hitems)
      | hash hentries =>
        refine survives_hash hown (entriesSurvive_toEntries ?_ hentries)
        rintro ⟨k, v⟩ hx c (rfl | rfl)
        · exact hparts c (.key v hx)
        · exact hparts c (.value k hx)
      | call hargs => exact survives_call hown (hexprs .args hargs)
      | methodCall hreceiver hargs =>
        exact survives_methodCall hown (hlink .receiver hreceiver) (hexprs .args hargs)
      | unary hoperand => exact survives_unary hown (hlink .operand hoperand)
      | binary hleft hright => exact survives_binary hown (hlink .left hleft) (hlink .right hright)
    · rw [elseChain_eq] at hbs
      obtain ⟨condition, hcondition, hbs⟩ := bind_eq_ok.1 hbs
      obtain ⟨ss, hstatements, hbs⟩ := bind_eq_ok.1 hbs
      obtain ⟨rest, hrest, hbs⟩ := bind_eq_ok.1 hbs
      cases hbs
      exact chainSurvives_cons hown (hlink .condition hcondition) (hlist .statements hstatements)
        (hchain hrest) _

/-! ## The two encodings -/

/-- Numbers come back from JSON with their values. -/
theorem rereads_json : Rereads Json.reread where
  int n hn := by
    rw [Json.reread_integer, Numeral.toInt64?]
    have hvalue : (if decide (n < 0) then -(n.natAbs : Int) else n.natAbs) = n := by
      split
      · next h =>
        have := of_decide_eq_true h
        omega
      · next h =>
        have := of_decide_eq_false (Bool.not_eq_true _ ▸ h)
        omega
    have hrange := fitsInt64_iff.1 hn
    simp only [hvalue, decide_eq_true hrange.1, decide_eq_true hrange.2]
    rfl
  float x hx := Json.toBinary64?_reread hx

/-- Numbers come back from MessagePack as they were. -/
theorem rereads_pack : Rereads id where
  int n hn := by
    have hrange := fitsInt64_iff.1 hn
    have htwice : twoPow 64 = 2 * twoPow 63 := by decide
    show some (n.bmod (twoPow 64)) = some n
    rw [Int.bmod_eq_of_le (by omega) (by omega)]
  float x _ := rfl

/-- No number is lost in JSON. -/
theorem carries_json : Carries (rereadValue .json Json.reread) fun _ => false where
  text _ := rfl
  flag _ := rfl
  kept _ hx _ := Json.toBinary64?_reread hx
  dropped _ h := by cases h

/-- The numbers that are zero are lost in MessagePack. -/
theorem carries_pack : Carries (rereadValue .pack id) Binary64.isZero where
  text s := by
    show valueText (if decide (s = "") then .null else .text s) = s
    by_cases h : s = ""
    · rw [if_pos (decide_eq_true h), h]
      rfl
    · rw [if_neg (by simp [h])]
      rfl
  flag b := by cases b <;> rfl
  kept x _ h := by
    show valueNumber? (if x.isZero then .null else .number (.float x)) = some x
    rw [h]
    rfl
  dropped x h := by
    show (if x.isZero then Datum.null else .number (.float x)) = .null
    rw [h]
    rfl

end InfraSmells.Record

namespace InfraSmells.Document

/-- The datum that is written for a tree. -/
def datumOf (enc : Encoding) (e : Element) : Datum :=
  (e.toRecord?.map (Record.toDatum enc)).getD .null

/-- A tree that was read from a JSON document survives. -/
theorem survives_of_decode {bytes : List UInt8} {e : Element} (h : decode .json bytes = .ok e) :
    Record.ElementSurvives false e := by
  unfold decode at h
  split at h
  · next d hd =>
    unfold ofDatum at h
    split at h
    · next r hr =>
      have hread : d.IsRead := Datum.isRead_of_ofJson? hd
      exact (Record.survives_of_fits (Record.fits_ofDatum hread hr)).1 false e h
    · cases h
    · cases h
  · cases h

/-- What is written for a tree that survives, can be written, and the tree is made of it again. -/
theorem ofDatum_datumOf {enc : Encoding} {num : Numeral → Numeral} {lost : Binary64 → Bool}
    (hnum : Record.Rereads num) (hg : Record.Carries (Record.rereadValue enc num) lost)
    {e : Element} (h : Record.ElementSurvives false e) :
    (datumOf enc e).IsWritten ∧
      Record.Comes lost e.numbers e (ofDatum enc ((datumOf enc e).withNumbers num)) := by
  obtain ⟨r, hr, hfits, hcomes⟩ := h
  have hdatum : datumOf enc e = Record.toDatum enc r := by
    rw [datumOf, hr]
    rfl
  have hread : Record.ofDatum enc ((Record.toDatum enc r).withNumbers num) =
      .ok (Record.reread enc num r) := by
    have hlink := Record.readLink_toDatum enc hnum hfits
    rw [Record.toDatum_eq, Datum.withNumbers] at hlink ⊢
    rw [Record.ofDatum, hlink]
    · rfl
    · exact fun h => by cases h
  rw [hdatum]
  refine ⟨Record.isWritten_toDatum hfits, ?_⟩
  rw [ofDatum, hread]
  exact hcomes _ lost hg

/-- A tree that was read from a JSON document is read back from its own documents. From JSON it
comes back as it was, if the document is not nested too deeply. From MessagePack, if the document
is not too long, it comes back as it was if no number in it is zero, and else a number without a
value is reported. -/
theorem decode_encode {bytes : List UInt8} {e : Element} (h : decode .json bytes = .ok e)
    (hdepth : (datumOf .json e).depth ≤ Json.maxDepth) (hsize : (encodePack e).length < 2 ^ 32) :
    (∃ s, encodeJson? e = some s ∧ decode .json (Text.toBytes s) = .ok e) ∧
      ((∀ n ∈ e.numbers, n.2.isZero = false) → decode .pack (encodePack e) = .ok e) ∧
      ((∃ n ∈ e.numbers, n.2.isZero = true) → ∃ n ∈ e.numbers, n.2.isZero = true ∧
        decode .pack (encodePack e) = .error (.notNumeric "<nil>" n.1.line)) := by
  have hsurvives := survives_of_decode h
  obtain ⟨hjson, hjcomes⟩ := ofDatum_datumOf Record.rereads_json Record.carries_json hsurvives
  obtain ⟨hpack, hpcomes⟩ := ofDatum_datumOf Record.rereads_pack Record.carries_pack hsurvives
  refine ⟨⟨_, if_pos (Datum.isWritable_of_isWritten hjson), ?_⟩, ?_⟩
  · obtain ⟨hplain, hread⟩ := Datum.ofJson?_write (some 0) hjson hdepth
    rcases hjcomes with ⟨-, hok⟩ | ⟨n, -, hlost, -⟩
    · show decode .json (Text.toBytes (Json.write (some 0) (datumOf .json e))) = _
      rw [decode, datum?, hplain.ofBytes_toBytes, hread]
      exact hok
    · cases hlost
  · have hread : datum? .pack (encodePack e) = some (datumOf .pack e) :=
      Datum.ofPack?_toPack hpack hsize
    rw [Datum.withNumbers_id] at hpcomes
    rw [decode, hread]
    rcases hpcomes with ⟨hkept, hok⟩ | ⟨n, hn, hlost, herror⟩
    · refine ⟨fun _ => hok, fun ⟨n, hn, hzero⟩ => ?_⟩
      cases (hkept n hn).symm.trans hzero
    · refine ⟨fun hkept => ?_, fun _ => ⟨n, hn, hlost, herror⟩⟩
      cases (hkept n hn).symm.trans hlost

/-- A list of a zero and an absent expression. -/
def zeroDocument : List UInt8 :=
  Text.toBytes ("\x7b\"ir_type\":\"Array\",\"items\":" ++
    "[\x7b\"ir_type\":\"Integer\",\"line\":3,\"value\":0\x7d,null]\x7d")

/-- Such a list comes back from JSON and is refused in MessagePack. -/
theorem decode_encode_zero :
    ∃ e, decode .json zeroDocument = .ok e ∧
      (∃ s, encodeJson? e = some s ∧ decode .json (Text.toBytes s) = .ok e) ∧
      ∃ line, decode .pack (encodePack e) = .error (.notNumeric "<nil>" line) := by
  have hcheck : (match decode .json zeroDocument with
      | .ok e => decide ((datumOf .json e).depth ≤ Json.maxDepth) &&
          decide ((encodePack e).length < 2 ^ 32) && e.numbers.any (·.2.isZero)
      | .error _ => false) = true := by
    decide +kernel
  split at hcheck
  · next e h =>
    simp only [Bool.and_eq_true, decide_eq_true_eq, List.any_eq_true] at hcheck
    obtain ⟨⟨hdepth, hsize⟩, hzero⟩ := hcheck
    obtain ⟨hjson, -, hpack⟩ := decode_encode h hdepth hsize
    obtain ⟨n, -, -, hn⟩ := hpack hzero
    exact ⟨e, h, hjson, n.1.line, hn⟩
  · cases hcheck

end InfraSmells.Document
