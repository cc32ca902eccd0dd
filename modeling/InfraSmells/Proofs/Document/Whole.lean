import InfraSmells.Proofs.Document.Elements
import InfraSmells.Proofs.Document.Once

/-!
# Whole documents

A document is whole if no list of elements within it holds a null and, in MessagePack, no table
names a member twice (`Document.IsWhole`). Reading a whole document gives a tree or an error that says
why the document is malformed (`Document.failsOnly_decode`). What is built of a record hangs on its
parts, so the proof goes by induction over them.
-/

namespace InfraSmells

/-- The error says what is wrong with the document; the others stop reading without an answer. -/
def DocumentError.IsMalformed : DocumentError → Prop
  | .missingElement | .repeatedValue => False
  | _ => True

/-- Do elements have to stand in the list? Expressions may be left out. -/
def ListField.ofElements : ListField → Bool
  | .items | .args => false
  | _ => true

/-- Is the datum a table that names a kind and nothing else? -/
def Datum.namesKindOnly : Datum → Bool
  | .table [(name, .text _)] => name == "ir_type"
  | _ => false

namespace Record

/-- In the record and within its parts, no list of elements holds a null. -/
inductive IsWhole : Record → Prop
  | mk {r : Record} (own : ∀ f : ListField, f.ofElements = true → none ∉ r.list f)
      (parts : ∀ c, IsPart c r → IsWhole c) : IsWhole r

/-- Whatever element the record is to become, and as a branch of an else chain, it becomes that or is
malformed. -/
structure Answers (r : Record) : Prop where
  element : ∀ exprOnly, FailsOnly DocumentError.IsMalformed (toElement exprOnly r)
  chain : FailsOnly DocumentError.IsMalformed (elseChain (some r))

/-- The expression of a member is built, or the record in it is malformed. -/
theorem failsOnly_linkExpr {x : Option Record} (h : ∀ c, x = some c → c.Answers) :
    FailsOnly DocumentError.IsMalformed (linkExpr x) := by
  cases x with
  | none => exact .ok _
  | some c =>
    rw [linkExpr]
    exact ((h c rfl).element true).map _

/-- The elements of a list without a null are built, or a record in it is malformed. -/
theorem failsOnly_toElements {accepts : Element → Bool} : ∀ {xs : List (Option Record)},
    none ∉ xs → (∀ c, some c ∈ xs → c.Answers) →
      FailsOnly DocumentError.IsMalformed (toElements accepts xs)
  | [], _, _ => .ok _
  | none :: _, hnone, _ => absurd (.head _) hnone
  | some c :: xs, hnone, h => by
    rw [toElements]
    refine .bind ((h c (.head _)).element false) fun e _ => ?_
    dsimp only
    split
    · exact .error trivial
    · refine .bind (failsOnly_toElements (fun hx => hnone (.tail _ hx)) fun c hc => ?_) fun _ _ =>
        .ok _
      exact h c (.tail _ hc)

/-- The expressions of a list are built, or a record in it is malformed. -/
theorem failsOnly_toExprs : ∀ {xs : List (Option Record)}, (∀ c, some c ∈ xs → c.Answers) →
    FailsOnly DocumentError.IsMalformed (toExprs xs)
  | [], _ => .ok _
  | x :: xs, h => by
    rw [toExprs]
    refine .bind (failsOnly_linkExpr ?_) fun _ _ =>
      .bind (failsOnly_toExprs fun c hc => h c (.tail _ hc)) fun _ _ => .ok _
    rintro c rfl
    exact h c (.head _)

/-- The entries of a hash are built, or a record in them is malformed. -/
theorem failsOnly_toEntries : ∀ {es : List (Option Record × Option Record)},
    (∀ c v, (some c, v) ∈ es → c.Answers) → (∀ c k, (k, some c) ∈ es → c.Answers) →
      FailsOnly DocumentError.IsMalformed (toEntries es)
  | [], _, _ => .ok _
  | (k, v) :: es, hkey, hvalue => by
    rw [toEntries]
    refine .bind (failsOnly_linkExpr ?_) fun _ _ => .bind (failsOnly_linkExpr ?_) fun _ _ =>
      .bind (failsOnly_toEntries ?_ ?_) fun _ _ => .ok _
    · rintro c rfl
      exact hkey c v (.head _)
    · rintro c rfl
      exact hvalue c k (.head _)
    · exact fun c v hc => hkey c v (.tail _ hc)
    · exact fun c k hc => hvalue c k (.tail _ hc)

/-- A record is built if its members can be, unless it is malformed. -/
theorem failsOnly_toElement {r : Record} (exprOnly : Bool)
    (hlink : ∀ f, FailsOnly DocumentError.IsMalformed (linkExpr (r.link f)))
    (hlist : ∀ (f : ListField) accepts, f.ofElements = true →
      FailsOnly DocumentError.IsMalformed (toElements accepts (r.list f)))
    (hexprs : ∀ f, FailsOnly DocumentError.IsMalformed (toExprs (r.list f)))
    (hentries : FailsOnly DocumentError.IsMalformed (toEntries r.entries))
    (hrest : FailsOnly DocumentError.IsMalformed (elseChain r.otherwise)) :
    FailsOnly DocumentError.IsMalformed (toElement exprOnly r) := by
  cases r with
  | mk kind line column endLine endColumn code name path type value expr nameExpr content
      names hasVariable isDefault items entries args receiver method operand left right
      condition otherwise pairs resources vars attributes dependencies statements
      comments unitBlocks modules blocks =>
    -- First the kinds, then for each of them whether it may stand here.
    unfold toElement
    split
    all_goals
      dsimp only
      split
    all_goals try exact .error trivial
    · exact .bind (hlist .modules _ rfl) fun _ _ => .bind (hlist .blocks _ rfl) fun _ _ => .ok _
    · exact .bind (hlist .blocks _ rfl) fun _ _ => .bind (hlist .modules _ rfl) fun _ _ => .ok _
    · refine .bind (hlist .resources _ rfl) fun _ _ => .bind (hlist .vars _ rfl) fun _ _ => ?_
      refine .bind (hlist .attributes _ rfl) fun _ _ => .bind (hlist .dependencies _ rfl) fun _ _ => ?_
      refine .bind (hlist .statements _ rfl) fun _ _ => .bind (hlist .comments _ rfl) fun _ _ => ?_
      exact .bind (hlist .unitBlocks _ rfl) fun _ _ => .ok _
    · refine .bind (hlink .nameExpr) fun _ _ => .bind (hlist .attributes _ rfl) fun _ _ => ?_
      exact .bind (hlist .statements _ rfl) fun _ _ => .ok _
    · exact .bind (hlink .expr) fun _ _ => .bind (hlist .pairs _ rfl) fun _ _ => .ok _
    · exact .bind (hlink .expr) fun _ _ => .bind (hlist .pairs _ rfl) fun _ _ => .ok _
    · exact .ok _
    · exact .ok _
    · refine .bind (hlink .condition) fun _ _ => .bind (hlist .statements _ rfl) fun _ _ => ?_
      exact .bind hrest fun _ _ => .ok _
    · exact .ok _
    · exact .ok _
    -- The three names of numbers.
    iterate 3
      · split
        · exact .ok _
        · exact .error trivial
    · exact .ok _
    · exact .ok _
    · exact .bind (hexprs .items) fun _ _ => .ok _
    · exact .bind hentries fun _ _ => .ok _
    · exact .bind (hexprs .args) fun _ _ => .ok _
    · exact .bind (hlink .receiver) fun _ _ => .bind (hexprs .args) fun _ _ => .ok _
    · exact .bind (hlink .operand) fun _ _ => .ok _
    · exact .bind (hlink .left) fun _ _ => .bind (hlink .right) fun _ _ => .ok _

/-- A whole record becomes an element, or it is malformed. -/
theorem IsWhole.answers {r : Record} (h : r.IsWhole) : r.Answers := by
  induction h with
  | @mk r own parts ih =>
    have hlink (f : LinkField) : FailsOnly DocumentError.IsMalformed (linkExpr (r.link f)) :=
      failsOnly_linkExpr fun c hc => ih c (.link f hc)
    have hlist (f : ListField) (accepts : Element → Bool) (hf : f.ofElements = true) :
        FailsOnly DocumentError.IsMalformed (toElements accepts (r.list f)) :=
      failsOnly_toElements (own f hf) fun c hc => ih c (.list f hc)
    have hrest : FailsOnly DocumentError.IsMalformed (elseChain r.otherwise) := by
      cases hlink : r.otherwise with
      | none => exact .ok _
      | some c => exact (ih c (.link .otherwise hlink)).chain
    refine ⟨fun exprOnly => failsOnly_toElement exprOnly hlink hlist ?_ ?_ hrest, ?_⟩
    · exact fun f => failsOnly_toExprs fun c hc => ih c (.list f hc)
    · exact failsOnly_toEntries (fun c v hc => ih c (.key v hc)) fun c k hc => ih c (.value k hc)
    · rw [elseChain_eq]
      refine .bind (hlink .condition) fun _ _ => .bind (hlist .statements _ rfl) fun _ _ => ?_
      exact .bind hrest fun _ _ => .ok _

/-- A record without parts is whole. -/
theorem IsWhole.of_bare {r : Record} (h : r = r.bare) : r.IsWhole := by
  rw [h]
  refine ⟨fun f _ => ?_, fun c hc => ?_⟩
  · cases f <;> exact List.not_mem_nil
  · cases hc with
    | link f hc => cases f <;> cases hc
    | list f hc => cases f <;> cases hc
    | key v hc => cases hc
    | value k hc => cases hc

end Record

namespace Document

/-- If the bytes are a document, then no list of elements in it holds a null, and in MessagePack no
table names a member twice. -/
def IsWhole (enc : Encoding) (bytes : List UInt8) : Prop :=
  ∀ d, datum? enc bytes = some d → (enc = .pack → d.NamesOnce) ∧
    ∀ r, Record.ofDatum enc d = .ok r → r.IsWhole

/-- A whole document gives a tree, or it is malformed. -/
theorem failsOnly_decode {enc : Encoding} {bytes : List UInt8} (h : IsWhole enc bytes) :
    FailsOnly DocumentError.IsMalformed (decode enc bytes) := by
  unfold decode
  split
  · next d hd =>
    obtain ⟨honce, hwhole⟩ := h d hd
    unfold ofDatum
    split
    · next r hr => exact (hwhole r hr).answers.element false
    · exact .error trivial
    · next hbreak => cases Record.failsOnly_ofDatum honce _ hbreak
  · exact .error trivial

/-- A document that names its kind and nothing else is whole. -/
theorem isWhole_of_namesKindOnly {bytes : List UInt8}
    (h : (datum? .json bytes).any Datum.namesKindOnly = true) : IsWhole .json bytes := by
  intro d hd
  rw [hd, Option.any_some] at h
  unfold Datum.namesKindOnly at h
  split at h
  · next name kind =>
    obtain rfl := beq_iff_eq.1 h
    refine ⟨nofun, fun r hr => ?_⟩
    cases hr.symm.trans (show Record.ofDatum .json _ = .ok { kind := kind } from rfl)
    exact .of_bare rfl
  · cases h

/-- A project with a null among its modules. -/
def nullModule : List UInt8 :=
  Text.toBytes "\x7b\"blocks\":[],\"ir_type\":\"Project\",\"modules\":[null],\"name\":\"p\"\x7d"

/-- A project with a null among its modules gives no answer. -/
theorem decode_nullModule : decode .json nullModule = .error .missingElement := by
  have hfails : (decode .json nullModule).map (fun _ => ()) = .error .missingElement := by
    decide +kernel
  cases hdecode : decode .json nullModule with
  | ok e =>
    rw [hdecode] at hfails
    cases hfails
  | error e =>
    rw [hdecode] at hfails
    cases hfails
    rfl

end Document

end InfraSmells
