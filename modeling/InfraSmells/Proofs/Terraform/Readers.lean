import InfraSmells.Proofs.Terraform.Stream

/-!
# The grammar keeps to the order of the tokens

A reader that begins on a stream leaves a stream behind what it read, and the range of a term leads
from the first token that was taken for it to the last (`Terraform.Reads`). The objects of a source
matter below the term as well: every item lies between the braces, its value behind its key
(`Terraform.Term.Placed`). `Terraform.Readers` says this of all readers of terms at one depth; one
lemma for each reader gives it from the depth below, and `readers` puts them together.
-/

namespace InfraSmells.Terraform

/-! ## What readers leave -/

/-- A range was read from the position on, and a stream is left behind it. -/
structure Reads (lines : Nat) (p : Position) (r : Range) (rest : List Token) : Prop where
  behind : p ≤ r.start
  fits : r.Fits lines
  stream : Stream lines r.stop rest

mutual

/-- If the term is an object, its items lie between its braces. -/
def Term.Placed (lines : Nat) : Term → Prop
  | .object r items => itemsPlaced lines r.start r.stop items
  | _ => True

/-- The items lie between two positions, each with its value behind its key. -/
def itemsPlaced (lines : Nat) (lo hi : Position) : List ObjectItem → Prop
  | [] => True
  | ⟨key, _, value⟩ :: items =>
    (lo ≤ key.range.start ∧ value.range.stop ≤ hi ∧ key.range.start ≤ value.range.start ∧
      (key.range.to value.range).Fits lines ∧ value.Placed lines) ∧ itemsPlaced lines lo hi items

end

/-- A term was read from the position on. -/
structure Term.Read (lines : Nat) (p : Position) (t : Term) (rest : List Token) : Prop where
  reads : Reads lines p t.range rest
  placed : t.Placed lines

variable {lines : Nat} {p q : Position} {ts rest : List Token}

namespace Reads

variable {a b : Range}

/-- What is read next makes one range with what was read. -/
theorem join (ha : Reads lines p a ts) (hb : Reads lines a.stop b rest) :
    Reads lines p (a.to b) rest :=
  ⟨ha.behind, ha.fits.to hb.fits hb.behind, hb.stream⟩

/-- What was read from a position on was read from an earlier one on. -/
theorem mono (h : Reads lines p a rest) (hle : q ≤ p) : Reads lines q a rest :=
  ⟨hle.trans h.behind, h.fits, h.stream⟩

/-- What is left is a stream from where the reading began. -/
theorem left (h : Reads lines p a rest) : Stream lines p rest :=
  h.stream.mono (h.behind.trans h.fits.ordered)

end Reads

/-- Items between two positions are between wider ones. -/
theorem itemsPlaced_mono {lo hi lo' hi' : Position} (hlo : lo' ≤ lo) (hhi : hi ≤ hi') :
    ∀ {items : List ObjectItem}, itemsPlaced lines lo hi items → itemsPlaced lines lo' hi' items
  | [], _ => trivial
  | ⟨_, _, _⟩ :: _, ⟨⟨hkey, hvalue, h⟩, hitems⟩ =>
    ⟨⟨hlo.trans hkey, hvalue.trans hhi, h⟩, itemsPlaced_mono hlo hhi hitems⟩

/-! ## Readers of single tokens -/

namespace Stream

/-- The first token is read. -/
theorem head {kind : Kind} {text : String} {r : Range} (h : Stream lines p (⟨kind, text, r⟩ :: ts))
    (hkind : kind ≠ .eof) : Reads lines p r ts :=
  ⟨h.1, h.2.1.range hkind, h.2.2⟩

/-- Newlines are passed over. -/
theorem upcoming (h : Stream lines p ts) (newlines : Bool) :
    Stream lines p (upcoming newlines ts) := by
  unfold Terraform.upcoming
  split
  · exact h
  · exact h.dropWhile _

/-- The next token is read. -/
theorem next {newlines : Bool} {kind : Kind} {text : String} {r : Range} (h : Stream lines p ts)
    (hnext : Terraform.upcoming newlines ts = ⟨kind, text, r⟩ :: rest) (hkind : kind ≠ .eof) :
    Reads lines p r rest := by
  have hup := h.upcoming newlines
  rw [hnext] at hup
  exact hup.head hkind

variable {newlines : Bool} {t : Token}

/-- A mark is read. -/
theorem expect {m : Mark} (h : Stream lines p ts) (hread : expect newlines m ts = some (t, rest)) :
    Reads lines p t.range rest := by
  unfold Terraform.expect at hread
  split at hread
  · next hnext =>
    split at hread
    · next hmark =>
      cases hread
      exact h.next hnext (by rw [hmark]; nofun)
    · cases hread
  · cases hread

/-- A name is read. -/
theorem expectName (h : Stream lines p ts) (hread : expectName newlines ts = some (t, rest)) :
    Reads lines p t.range rest := by
  unfold Terraform.expectName at hread
  split at hread
  · next hnext =>
    split at hread
    · next hname =>
      cases hread
      exact h.next hnext (by rw [hname]; nofun)
    · cases hread
  · cases hread

/-- A given name is read. -/
theorem expectWord {word : String} (h : Stream lines p ts)
    (hread : expectWord newlines word ts = some (t, rest)) : Reads lines p t.range rest := by
  obtain ⟨⟨t', rest'⟩, hname, hread⟩ := Option.bind_eq_some_iff.1 hread
  dsimp only at hread
  split at hread
  · cases hread
    exact h.expectName hname
  · cases hread

/-- An operator is read. -/
theorem operator? {level : Mark → Option BinaryOp} {op : BinaryOp} (h : Stream lines p ts)
    (hread : operator? newlines level ts = some (op, rest)) : Stream lines p rest := by
  unfold Terraform.operator? at hread
  split at hread
  · next hnext =>
    split at hread
    · next hmark =>
      obtain ⟨_, -, heq⟩ := Option.map_eq_some_iff.1 hread
      cases heq
      exact (h.next hnext (by rw [hmark]; nofun)).left
    · cases hread
  · cases hread

/-- The end of a value or directive is read. -/
theorem sequenceEnd {trim : Bool} (h : Stream lines p ts)
    (hread : sequenceEnd ts = some ((t, trim), rest)) : Reads lines p t.range rest := by
  unfold Terraform.sequenceEnd at hread
  split at hread
  · next hnext =>
    split at hread
    · next hclose =>
      cases hread
      exact h.next hnext (by rw [hclose]; nofun)
    · cases hread
  · cases hread

/-- The names of a repetition are read. -/
theorem loopNames {names : LoopNames} (h : Stream lines p ts)
    (hread : loopNames ts = some (names, rest)) : Stream lines p rest := by
  obtain ⟨⟨first, ts₁⟩, hfirst, hread⟩ := Option.bind_eq_some_iff.1 hread
  have h₁ := (h.expectName hfirst).left
  dsimp only at hread
  split at hread
  · next hcomma =>
    obtain ⟨_, hnames, hread⟩ := Option.bind_eq_some_iff.1 hread
    obtain ⟨⟨second, ts₂⟩, hsecond, heq⟩ := Option.map_eq_some_iff.1 hnames
    cases heq
    obtain ⟨⟨word, ts₃⟩, hword, hread⟩ := Option.bind_eq_some_iff.1 hread
    cases hread
    exact (((h₁.expect hcomma).left.expectName hsecond).left.expectWord hword).left
  · obtain ⟨_, heq, hread⟩ := Option.bind_eq_some_iff.1 hread
    cases heq
    obtain ⟨⟨word, ts₃⟩, hword, hread⟩ := Option.bind_eq_some_iff.1 hread
    cases hread
    exact (h₁.expectWord hword).left

/-- The rest of the name of a function is read. -/
theorem functionName {fuel : Nat} {name full : String} (h : Stream lines p ts)
    (hread : functionName newlines fuel name ts = some (full, rest)) : Stream lines p rest := by
  induction fuel generalizing name ts with
  | zero => cases hread
  | succ fuel ih =>
    rw [Terraform.functionName] at hread
    split at hread
    · cases hread
      exact h
    · next hcolon =>
      obtain ⟨⟨part, ts'⟩, hpart, hread⟩ := Option.bind_eq_some_iff.1 hread
      exact ih ((h.expect hcolon).left.expectName hpart).left hread

end Stream

/-- The steps behind an attribute-only splat are read. -/
theorem reads_splatSteps {newlines : Bool} {fuel : Nat} {each t : Term}
    (hread : splatSteps newlines fuel each ts = some (t, rest))
    (h : Reads lines p each.range ts) : Reads lines p t.range rest := by
  induction fuel generalizing each ts with
  | zero => cases hread
  | succ fuel ih =>
    rw [splatSteps] at hread
    split at hread
    · cases hread
      exact h
    · next hdot =>
      have hs := (h.stream.expect hdot).left
      split at hread
      · next hname => exact ih hread (h.join (hs.next hname nofun))
      · next hnumber =>
        split at hread
        · cases hread
        obtain ⟨n, -, hread⟩ := Option.bind_eq_some_iff.1 hread
        exact ih hread (h.join (hs.next hnumber nofun))
      · cases hread

/-- The term of a name has its range. -/
theorem range_termOfName (t : Token) : (termOfName t).range = t.range := by
  unfold termOfName
  split <;> rfl

/-- The term of a name is no object. -/
theorem placed_termOfName (t : Token) : (termOfName t).Placed lines := by
  unfold termOfName
  split <;> trivial

/-- A template has the given range and is no object. -/
theorem of_template? (lines : Nat) {range : Range} {isFlush : Bool} {parts : List Part} {t : Term}
    (h : template? range isFlush parts = some t) : t.range = range ∧ t.Placed lines := by
  unfold template? at h
  split at h
  · cases h
    exact ⟨rfl, trivial⟩
  · obtain ⟨terms, -, heq⟩ := Option.map_eq_some_iff.1 h
    cases heq
    exact ⟨rfl, trivial⟩

/-! ## Readers of terms -/

/-- What the readers of terms at one depth leave. -/
structure Readers (lines fuel : Nat) : Prop where
  expression {newlines : Bool} {p : Position} {ts rest : List Token} {t : Term} :
    expression fuel newlines ts = some (t, rest) → Stream lines p ts → t.Read lines p rest
  operation {newlines : Bool} {levels : List (Mark → Option BinaryOp)} {p : Position}
      {ts rest : List Token} {t : Term} :
    operation fuel newlines levels ts = some (t, rest) → Stream lines p ts → t.Read lines p rest
  operationRest {newlines : Bool} {level : Mark → Option BinaryOp}
      {higher : List (Mark → Option BinaryOp)} {p : Position} {ts rest : List Token} {left t : Term} :
    operationRest fuel newlines level higher left ts = some (t, rest) → left.Read lines p ts →
      t.Read lines p rest
  traversed {newlines : Bool} {p : Position} {ts rest : List Token} {t : Term} :
    traversed fuel newlines ts = some (t, rest) → Stream lines p ts → t.Read lines p rest
  accesses {newlines : Bool} {p : Position} {ts rest : List Token} {source t : Term} :
    accesses fuel newlines source ts = some (t, rest) → source.Read lines p ts → t.Read lines p rest
  simple {newlines : Bool} {p : Position} {ts rest : List Token} {t : Term} :
    simple fuel newlines ts = some (t, rest) → Stream lines p ts → t.Read lines p rest
  arguments {p : Position} {ts rest : List Token} {args : List Term} {close : Token} :
    arguments fuel ts = some ((args, close), rest) → Stream lines p ts →
      Reads lines p close.range rest
  tupleItems {p : Position} {ts rest : List Token} {items : List Term} {close : Token} :
    tupleItems fuel ts = some ((items, close), rest) → Stream lines p ts →
      Reads lines p close.range rest
  objectItems {p : Position} {ts rest : List Token} {items : List ObjectItem} {close : Token} :
    objectItems fuel ts = some ((items, close), rest) → Stream lines p ts →
      Reads lines p close.range rest ∧ itemsPlaced lines p close.range.start items
  comprehension {opening : Range} {isObject : Bool} {p : Position} {ts rest : List Token} {t : Term} :
    comprehension fuel opening isObject ts = some (t, rest) → Reads lines p opening ts →
      t.Read lines p rest
  templateParts {closer : Kind} {trim : Bool} {p : Position} {ts rest : List Token}
      {parts : List Part} {close : Token} :
    templateParts fuel closer trim ts = some ((parts, close), rest) → closer ≠ .eof →
      Stream lines p ts → Reads lines p close.range rest
  directive {p : Position} {ts rest : List Token} {part : Range → Part} :
    directive fuel ts = some (part, rest) → Stream lines p ts → Stream lines p rest

namespace Readers

section Steps

variable {fuel : Nat} (ih : Readers lines fuel) {newlines : Bool} {t : Term} {close : Token}
include ih

theorem expression_step (hread : Terraform.expression (fuel + 1) newlines ts = some (t, rest))
    (h : Stream lines p ts) : t.Read lines p rest := by
  rw [Terraform.expression] at hread
  obtain ⟨⟨condition, ts₁⟩, hcondition, hread⟩ := Option.bind_eq_some_iff.1 hread
  have h₁ := ih.operation hcondition h
  dsimp only at hread
  split at hread
  · cases hread
    exact h₁
  · next hquestion =>
    obtain ⟨⟨yes, ts₂⟩, hyes, hread⟩ := Option.bind_eq_some_iff.1 hread
    obtain ⟨⟨_, ts₃⟩, hcolon, hread⟩ := Option.bind_eq_some_iff.1 hread
    obtain ⟨⟨no, ts₄⟩, hno, hread⟩ := Option.bind_eq_some_iff.1 hread
    cases hread
    have h₂ := ih.expression hyes (h₁.reads.stream.expect hquestion).left
    exact ⟨h₁.reads.join (ih.expression hno (h₂.reads.left.expect hcolon).left).reads, trivial⟩

theorem operation_step {levels : List (Mark → Option BinaryOp)}
    (hread : Terraform.operation (fuel + 1) newlines levels ts = some (t, rest))
    (h : Stream lines p ts) : t.Read lines p rest := by
  cases levels with
  | nil => exact ih.traversed hread h
  | cons level higher =>
    rw [Terraform.operation] at hread
    obtain ⟨⟨left, ts₁⟩, hleft, hread⟩ := Option.bind_eq_some_iff.1 hread
    exact ih.operationRest hread (ih.operation hleft h)

theorem operationRest_step {level : Mark → Option BinaryOp}
    {higher : List (Mark → Option BinaryOp)} {left : Term}
    (hread : Terraform.operationRest (fuel + 1) newlines level higher left ts = some (t, rest))
    (h : left.Read lines p ts) : t.Read lines p rest := by
  rw [Terraform.operationRest] at hread
  split at hread
  · cases hread
    exact h
  · next hop =>
    obtain ⟨⟨right, ts₁⟩, hright, hread⟩ := Option.bind_eq_some_iff.1 hread
    have h₁ := ih.operation hright (h.reads.stream.operator? hop)
    exact ih.operationRest hread ⟨h.reads.join h₁.reads, trivial⟩

theorem traversed_step (hread : Terraform.traversed (fuel + 1) newlines ts = some (t, rest))
    (h : Stream lines p ts) : t.Read lines p rest := by
  rw [Terraform.traversed] at hread
  obtain ⟨⟨source, ts₁⟩, hsource, hread⟩ := Option.bind_eq_some_iff.1 hread
  exact ih.accesses hread (ih.simple hsource h)

theorem accesses_step {source : Term}
    (hread : Terraform.accesses (fuel + 1) newlines source ts = some (t, rest))
    (h : source.Read lines p ts) : t.Read lines p rest := by
  rw [Terraform.accesses] at hread
  split at hread
  · next hdot =>
    have h₁ := (h.reads.stream.next hdot nofun).left
    split at hread
    · next hname => exact ih.accesses hread ⟨h.reads.join (h₁.next hname nofun), trivial⟩
    · next hnumber =>
      split at hread
      · cases hread
      obtain ⟨n, -, hread⟩ := Option.bind_eq_some_iff.1 hread
      exact ih.accesses hread ⟨h.reads.join (h₁.next hnumber nofun), trivial⟩
    · next hstar =>
      obtain ⟨⟨each, ts₂⟩, heach, hread⟩ := Option.bind_eq_some_iff.1 hread
      have h₂ := reads_splatSteps heach (h₁.next hstar nofun)
      exact ih.accesses hread ⟨h.reads.join h₂, trivial⟩
    · cases hread
  · next opening ts₁ hopening =>
    have h₁ := h.reads.stream.next hopening nofun
    split at hread
    · next hstar =>
      obtain ⟨⟨close, ts₂⟩, hclose, hread⟩ := Option.bind_eq_some_iff.1 hread
      obtain ⟨⟨each, ts₃⟩, heach, hread⟩ := Option.bind_eq_some_iff.1 hread
      have h₂ := (h₁.stream.expect hstar).left.expect hclose
      have h₃ := ih.accesses heach ⟨h₁.join h₂, trivial⟩
      exact ih.accesses hread ⟨h.reads.join h₃.reads, trivial⟩
    · obtain ⟨⟨key, ts₂⟩, hkey, hread⟩ := Option.bind_eq_some_iff.1 hread
      obtain ⟨⟨close, ts₃⟩, hclose, hread⟩ := Option.bind_eq_some_iff.1 hread
      have h₂ := (ih.expression hkey h₁.left).reads.left
      exact ih.accesses hread ⟨h.reads.join (h₂.expect hclose), trivial⟩
  · cases hread
    exact h

theorem arguments_step {args : List Term}
    (hread : Terraform.arguments (fuel + 1) ts = some ((args, close), rest))
    (h : Stream lines p ts) : Reads lines p close.range rest := by
  rw [Terraform.arguments] at hread
  split at hread
  · next hclose =>
    cases hread
    exact h.expect hclose
  · obtain ⟨⟨arg, ts₁⟩, harg, hread⟩ := Option.bind_eq_some_iff.1 hread
    have h₁ := (ih.expression harg h).reads.left
    dsimp only at hread
    split at hread
    · next hcomma =>
      obtain ⟨⟨⟨more, close'⟩, ts₂⟩, hmore, hread⟩ := Option.bind_eq_some_iff.1 hread
      cases hread
      exact ih.arguments hmore (h₁.next hcomma nofun).left
    · next hellipsis =>
      obtain ⟨⟨close', ts₂⟩, hclose, hread⟩ := Option.bind_eq_some_iff.1 hread
      cases hread
      exact (h₁.next hellipsis nofun).left.expect hclose
    · obtain ⟨⟨close', ts₂⟩, hclose, hread⟩ := Option.bind_eq_some_iff.1 hread
      cases hread
      exact (h₁.upcoming false).expect hclose

theorem tupleItems_step {items : List Term}
    (hread : Terraform.tupleItems (fuel + 1) ts = some ((items, close), rest))
    (h : Stream lines p ts) : Reads lines p close.range rest := by
  rw [Terraform.tupleItems] at hread
  split at hread
  · next hclose =>
    cases hread
    exact h.expect hclose
  · obtain ⟨⟨item, ts₁⟩, hitem, hread⟩ := Option.bind_eq_some_iff.1 hread
    have h₁ := (ih.expression hitem h).reads.left
    dsimp only at hread
    split at hread
    · next hcomma =>
      obtain ⟨⟨⟨more, close'⟩, ts₂⟩, hmore, hread⟩ := Option.bind_eq_some_iff.1 hread
      cases hread
      exact ih.tupleItems hmore (h₁.expect hcomma).left
    · obtain ⟨⟨close', ts₂⟩, hclose, hread⟩ := Option.bind_eq_some_iff.1 hread
      cases hread
      exact h₁.expect hclose

theorem objectItems_step {items : List ObjectItem}
    (hread : Terraform.objectItems (fuel + 1) ts = some ((items, close), rest))
    (h : Stream lines p ts) :
    Reads lines p close.range rest ∧ itemsPlaced lines p close.range.start items := by
  rw [Terraform.objectItems.eq_def] at hread
  dsimp only at hread
  split at hread
  · exact ih.objectItems hread h.tail
  · cases hread
    exact ⟨h.head nofun, trivial⟩
  obtain ⟨⟨key, ts₁⟩, hkey, hread⟩ := Option.bind_eq_some_iff.1 hread
  obtain ⟨⟨sep, ts₂⟩, hsep, hread⟩ := Option.bind_eq_some_iff.1 hread
  obtain ⟨⟨value, ts₃⟩, hvalue, hread⟩ := Option.bind_eq_some_iff.1 hread
  have h₁ := (ih.expression hkey h).reads
  have h₂ : Stream lines key.range.stop ts₂ := by
    rw [Option.orElse_eq_orElse, Option.orElse_eq_or, Option.or_eq_some_iff] at hsep
    rcases hsep with hsep | ⟨-, hsep⟩
    · exact (h₁.stream.expect hsep).left
    · exact (h₁.stream.expect hsep).left
  have h₃ := ih.expression hvalue h₂
  have hitem := h₁.join h₃.reads
  have hpast := hitem.behind.trans hitem.fits.ordered
  -- what is read behind the item ends the object behind it
  have hmore {inParens : Bool} {more : List ObjectItem}
      (hclose : Reads lines value.range.stop close.range rest)
      (hitems : itemsPlaced lines value.range.stop close.range.start more) :
      Reads lines p close.range rest ∧
        itemsPlaced lines p close.range.start (⟨key, inParens, value⟩ :: more) :=
    ⟨hclose.mono hpast,
      ⟨h₁.behind, hclose.behind, h₁.fits.ordered.trans h₃.reads.behind, hitem.fits, h₃.placed⟩,
      itemsPlaced_mono hpast (le_refl _) hitems⟩
  dsimp only at hread
  split at hread
  · cases hread
    exact hmore (h₃.reads.stream.head nofun) trivial
  · obtain ⟨⟨⟨more, close'⟩, ts₄⟩, hitems, hread⟩ := Option.bind_eq_some_iff.1 hread
    cases hread
    have ⟨hclose, hplaced⟩ := ih.objectItems hitems h₃.reads.stream.tail
    exact hmore hclose hplaced
  · obtain ⟨⟨⟨more, close'⟩, ts₄⟩, hitems, hread⟩ := Option.bind_eq_some_iff.1 hread
    cases hread
    have ⟨hclose, hplaced⟩ := ih.objectItems hitems h₃.reads.stream.tail
    exact hmore hclose hplaced
  · cases hread

/-- The condition of a comprehension is read, if it has one. -/
theorem condition_step {α : Type} {a : α} {f : Option Term × List Token → Option α}
    (hread : (match expectWord false "if" ts with
      | some (_, ts) => do
        let (condition, ts) ← Terraform.expression fuel false ts
        let x ← some (some condition, ts)
        f x
      | none => do
        let x ← some (none, ts)
        f x) = some a)
    (h : Stream lines p ts) : ∃ x, Stream lines p x.2 ∧ f x = some a := by
  split at hread
  · next hif =>
    obtain ⟨⟨condition, ts₁⟩, hcondition, hread⟩ := Option.bind_eq_some_iff.1 hread
    exact ⟨_, (ih.expression hcondition (h.expectWord hif).left).reads.left, hread⟩
  · exact ⟨_, h, hread⟩

theorem comprehension_step {opening : Range} {isObject : Bool}
    (hread : Terraform.comprehension (fuel + 1) opening isObject ts = some (t, rest))
    (h : Reads lines p opening ts) : t.Read lines p rest := by
  rw [Terraform.comprehension] at hread
  obtain ⟨⟨names, ts₁⟩, hnames, hread⟩ := Option.bind_eq_some_iff.1 hread
  obtain ⟨⟨source, ts₂⟩, hsource, hread⟩ := Option.bind_eq_some_iff.1 hread
  obtain ⟨⟨colon, ts₃⟩, hcolon, hread⟩ := Option.bind_eq_some_iff.1 hread
  obtain ⟨⟨first, ts₄⟩, hfirst, hread⟩ := Option.bind_eq_some_iff.1 hread
  have h₂ := (ih.expression hsource (h.stream.loopNames hnames)).reads.left
  have h₄ := (ih.expression hfirst (h₂.expect hcolon).left).reads.left
  dsimp -zeta only at hread
  extract_lets jp at hread
  obtain ⟨⟨key, value, ts₅⟩, h₅, hread⟩ :
      ∃ x, Stream lines opening.stop x.2.2 ∧ jp x = some (t, rest) := by
    split at hread
    · next harrow =>
      obtain ⟨⟨second, ts₅⟩, hsecond, hread⟩ := Option.bind_eq_some_iff.1 hread
      exact ⟨(some first, second, ts₅),
        (ih.expression hsecond (h₄.expect harrow).left).reads.left, hread⟩
    · exact ⟨(none, first, ts₄), h₄, hread⟩
  have hend {condition : Option Term} {grouped wrong : Bool} {ts₆ : List Token}
      (h₆ : Stream lines opening.stop ts₆)
      (hread : ((expect false (if isObject then .closeBrace else .closeBracket) ts₆).bind fun x =>
        if wrong then none
        else some (.comprehension (opening.to x.1.range) names source key value condition grouped,
          x.2)) = some (t, rest)) : t.Read lines p rest := by
    obtain ⟨⟨close, ts₇⟩, hclose, hread⟩ := Option.bind_eq_some_iff.1 hread
    dsimp only at hread
    split at hread
    · cases hread
    · cases hread
      exact ⟨h.join (h₆.expect hclose), trivial⟩
  rcases hellipsis : expect false .ellipsis ts₅ with _ | ⟨_, ts₆⟩
  · simp -zeta only [jp, hellipsis] at hread
    extract_lets jp' at hread
    obtain ⟨x, hx, hread⟩ := ih.condition_step hread h₅
    exact hend hx hread
  · simp -zeta only [jp, hellipsis] at hread
    extract_lets jp' at hread
    obtain ⟨x, hx, hread⟩ := ih.condition_step hread (Stream.expect h₅ hellipsis).left
    exact hend hx hread

theorem templateParts_step {closer : Kind} {trim : Bool} {parts : List Part}
    (hread : Terraform.templateParts (fuel + 1) closer trim ts = some ((parts, close), rest))
    (hcloser : closer ≠ .eof) (h : Stream lines p ts) : Reads lines p close.range rest := by
  rw [Terraform.templateParts.eq_def] at hread
  dsimp only at hread
  split at hread
  · cases hread
  split at hread
  · next hkind =>
    cases hread
    exact h.head (hkind ▸ hcloser)
  split at hread
  · obtain ⟨text, -, hread⟩ := Option.bind_eq_some_iff.1 hread
    obtain ⟨⟨⟨more, close'⟩, ts₂⟩, hmore, hread⟩ := Option.bind_eq_some_iff.1 hread
    cases hread
    exact ih.templateParts hmore hcloser h.tail
  · obtain ⟨⟨value, ts₁⟩, hvalue, hread⟩ := Option.bind_eq_some_iff.1 hread
    obtain ⟨⟨⟨stop, trim'⟩, ts₂⟩, hstop, hread⟩ := Option.bind_eq_some_iff.1 hread
    obtain ⟨⟨⟨more, close'⟩, ts₃⟩, hmore, hread⟩ := Option.bind_eq_some_iff.1 hread
    cases hread
    have h₁ := (ih.expression hvalue h.tail).reads.left
    exact ih.templateParts hmore hcloser (h₁.sequenceEnd hstop).left
  · obtain ⟨⟨part, ts₁⟩, hpart, hread⟩ := Option.bind_eq_some_iff.1 hread
    obtain ⟨⟨⟨stop, trim'⟩, ts₂⟩, hstop, hread⟩ := Option.bind_eq_some_iff.1 hread
    obtain ⟨⟨⟨more, close'⟩, ts₃⟩, hmore, hread⟩ := Option.bind_eq_some_iff.1 hread
    cases hread
    have h₁ := ih.directive hpart h.tail
    exact ih.templateParts hmore hcloser (h₁.sequenceEnd hstop).left
  · cases hread

theorem directive_step {part : Range → Part}
    (hread : Terraform.directive (fuel + 1) ts = some (part, rest)) (h : Stream lines p ts) :
    Stream lines p rest := by
  rw [Terraform.directive] at hread
  obtain ⟨⟨word, ts₁⟩, hword, hread⟩ := Option.bind_eq_some_iff.1 hread
  have h₁ := (h.expectName hword).left
  dsimp only at hread
  split at hread
  · obtain ⟨⟨condition, ts₂⟩, hcondition, hread⟩ := Option.bind_eq_some_iff.1 hread
    cases hread
    exact (ih.expression hcondition h₁).reads.left
  · cases hread
    exact h₁
  · cases hread
    exact h₁
  · obtain ⟨⟨names, ts₂⟩, hnames, hread⟩ := Option.bind_eq_some_iff.1 hread
    obtain ⟨⟨source, ts₃⟩, hsource, hread⟩ := Option.bind_eq_some_iff.1 hread
    cases hread
    exact (ih.expression hsource (h₁.loopNames hnames)).reads.left
  · cases hread
    exact h₁
  · cases hread

/-- A template between two tokens is read. -/
theorem template_step {opening : Range} {closer : Kind} {parts parts' : List Part} {isFlush : Bool}
    (hparts : Terraform.templateParts fuel closer false ts = some ((parts, close), rest))
    (ht : template? (opening.to close.range) isFlush parts' = some t) (hcloser : closer ≠ .eof)
    (h : Reads lines p opening ts) : t.Read lines p rest := by
  have ⟨hrange, hplaced⟩ := of_template? lines ht
  exact ⟨hrange ▸ h.join (ih.templateParts hparts hcloser h.stream), hplaced⟩

theorem simple_step (hread : Terraform.simple (fuel + 1) newlines ts = some (t, rest))
    (h : Stream lines p ts) : t.Read lines p rest := by
  rw [Terraform.simple] at hread
  split at hread
  · next hopening => -- parentheses
    obtain ⟨⟨inner, ts₁⟩, hinner, hread⟩ := Option.bind_eq_some_iff.1 hread
    obtain ⟨⟨close, ts₂⟩, hclose, hread⟩ := Option.bind_eq_some_iff.1 hread
    cases hread
    have h₁ := h.next hopening nofun
    exact ⟨h₁.join ((ih.expression hinner h₁.stream).reads.left.expect hclose), trivial⟩
  · next hnumber =>
    obtain ⟨n, -, hread⟩ := Option.bind_eq_some_iff.1 hread
    cases hread
    exact ⟨h.next hnumber nofun, trivial⟩
  · next hname => -- a call or a name
    have h₁ := h.next hname nofun
    split at hread
    · obtain ⟨⟨name, ts₁⟩, hfunction, hread⟩ := Option.bind_eq_some_iff.1 hread
      obtain ⟨⟨opening, ts₂⟩, hopening, hread⟩ := Option.bind_eq_some_iff.1 hread
      obtain ⟨⟨⟨args, close⟩, ts₃⟩, hargs, hread⟩ := Option.bind_eq_some_iff.1 hread
      cases hread
      have h₂ := ((h₁.stream.functionName hfunction).expect hopening).left
      exact ⟨h₁.join (ih.arguments hargs h₂), trivial⟩
    · cases hread
      exact ⟨(range_termOfName _).symm ▸ h₁, placed_termOfName _⟩
  · next hopening => -- a quoted template
    obtain ⟨⟨⟨parts, close⟩, ts₁⟩, hparts, hread⟩ := Option.bind_eq_some_iff.1 hread
    obtain ⟨template, htemplate, hread⟩ := Option.bind_eq_some_iff.1 hread
    cases hread
    exact ih.template_step hparts htemplate nofun (h.next hopening nofun)
  · next hopening => -- a heredoc
    obtain ⟨⟨⟨parts, close⟩, ts₁⟩, hparts, hread⟩ := Option.bind_eq_some_iff.1 hread
    obtain ⟨template, htemplate, hread⟩ := Option.bind_eq_some_iff.1 hread
    cases hread
    exact ih.template_step hparts htemplate nofun (h.next hopening nofun)
  · next hminus =>
    obtain ⟨⟨operand, ts₁⟩, hoperand, hread⟩ := Option.bind_eq_some_iff.1 hread
    cases hread
    have h₁ := h.next hminus nofun
    exact ⟨h₁.join (ih.traversed hoperand h₁.stream).reads, trivial⟩
  · next hbang =>
    obtain ⟨⟨operand, ts₁⟩, hoperand, hread⟩ := Option.bind_eq_some_iff.1 hread
    cases hread
    have h₁ := h.next hbang nofun
    exact ⟨h₁.join (ih.traversed hoperand h₁.stream).reads, trivial⟩
  · next hopening => -- a tuple
    have h₁ := h.next hopening nofun
    split at hread
    · next hfor =>
      exact ih.comprehension hread ⟨h₁.behind, h₁.fits, (h₁.stream.expectWord hfor).left⟩
    · obtain ⟨⟨⟨items, close⟩, ts₁⟩, hitems, hread⟩ := Option.bind_eq_some_iff.1 hread
      cases hread
      exact ⟨h₁.join (ih.tupleItems hitems h₁.stream), trivial⟩
  · next hopening => -- an object
    have h₁ := h.next hopening nofun
    split at hread
    · next hfor =>
      exact ih.comprehension hread ⟨h₁.behind, h₁.fits, (h₁.stream.expectWord hfor).left⟩
    · obtain ⟨⟨⟨items, close⟩, ts₁⟩, hitems, hread⟩ := Option.bind_eq_some_iff.1 hread
      cases hread
      have ⟨hclose, hplaced⟩ := ih.objectItems hitems h₁.stream
      exact ⟨h₁.join hclose, itemsPlaced_mono h₁.fits.ordered hclose.fits.ordered hplaced⟩
  · cases hread

end Steps

end Readers

/-- The readers of terms keep to the order of the tokens, however deep the terms are. -/
theorem readers (lines : Nat) : ∀ fuel : Nat, Readers lines fuel
  | 0 => ⟨nofun, nofun, nofun, nofun, nofun, nofun, nofun, nofun, nofun, nofun, nofun, nofun⟩
  | fuel + 1 =>
    have ih := readers lines fuel
    { expression := ih.expression_step
      operation := ih.operation_step
      operationRest := ih.operationRest_step
      traversed := ih.traversed_step
      accesses := ih.accesses_step
      simple := ih.simple_step
      arguments := ih.arguments_step
      tupleItems := ih.tupleItems_step
      objectItems := ih.objectItems_step
      comprehension := ih.comprehension_step
      templateParts := ih.templateParts_step
      directive := ih.directive_step }

end InfraSmells.Terraform
