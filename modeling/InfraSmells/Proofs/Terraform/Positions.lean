import InfraSmells.Proofs.Failing
import InfraSmells.Proofs.Terraform.Readers
import InfraSmells.Proofs.Tree.Positions
import InfraSmells.Terraform.Tree

/-!
# Terraform trees have sound positions

Blocks and attributes lie within the body that holds them (`Terraform.Body.Placed`,
`Terraform.bodyReaders`), and a tree takes its spans from these ranges, so every resource, pair and
comment is placed soundly (`AllSound`): it begins on a line of the source and lies within the lines of
what holds it (`Terraform.parsed_positions_are_sound`). A member of an object has no range of its own:
its span leads from its key to its value.
-/

namespace InfraSmells.Terraform

open Text (bytesOf)

/-! ## Bodies -/

/-- The attribute lies between two positions, and its value within it. -/
structure Attribute.Placed (lines : Nat) (lo hi : Position) (a : Attribute) : Prop where
  behind : lo ≤ a.range.start
  before : a.range.stop ≤ hi
  fits : a.range.Fits lines
  value_behind : a.range.start ≤ a.value.range.start
  value_before : a.value.range.stop ≤ a.range.stop
  value_placed : a.value.Placed lines

mutual

/-- The attributes and blocks of the body lie between two positions, and so within their blocks. -/
def Body.Placed (lines : Nat) (lo hi : Position) : Body → Prop
  | .mk attributes sections =>
    (∀ a ∈ attributes, a.Placed lines lo hi) ∧ sectionsPlaced lines lo hi sections

/-- The blocks lie between two positions, and what they hold within them. -/
def sectionsPlaced (lines : Nat) (lo hi : Position) : List Section → Prop
  | [] => True
  | .mk _ _ _ range body :: more =>
    (lo ≤ range.start ∧ range.stop ≤ hi ∧ range.Fits lines ∧
      body.Placed lines range.start range.stop) ∧ sectionsPlaced lines lo hi more

end

variable {lines : Nat} {p lo hi lo' hi' : Position} {ts rest : List Token}

/-- Blocks between two positions are between wider ones. -/
theorem sectionsPlaced_mono (hlo : lo' ≤ lo) (hhi : hi ≤ hi') : ∀ {sections : List Section},
    sectionsPlaced lines lo hi sections → sectionsPlaced lines lo' hi' sections
  | [], _ => trivial
  | .mk _ _ _ _ _ :: _, ⟨⟨hstart, hstop, h⟩, hmore⟩ =>
    ⟨⟨hlo.trans hstart, hstop.trans hhi, h⟩, sectionsPlaced_mono hlo hhi hmore⟩

/-- Blocks are placed one by one. -/
theorem sectionsPlaced_cons {s : Section} {more : List Section}
    (h : sectionsPlaced lines lo hi [s]) (hmore : sectionsPlaced lines lo hi more) :
    sectionsPlaced lines lo hi (s :: more) := by
  cases s
  exact ⟨h.1, hmore⟩

/-- The blocks of a body are placed where it is. -/
theorem Body.Placed.sections {body : Body} (h : body.Placed lines lo hi) :
    sectionsPlaced lines lo hi body.sections := by
  cases body
  exact h.2

/-- A body between two positions is between wider ones. -/
theorem Body.Placed.mono {body : Body} (h : body.Placed lines lo hi) (hlo : lo' ≤ lo)
    (hhi : hi ≤ hi') : body.Placed lines lo' hi' := by
  cases body with
  | mk attributes sections =>
    exact ⟨fun a ha => { h.1 a ha with
      behind := hlo.trans (h.1 a ha).behind
      before := (h.1 a ha).before.trans hhi }, sectionsPlaced_mono hlo hhi h.2⟩

/-! ## Readers of bodies -/

/-- The rest of a quoted label is read. -/
theorem Stream.labelText {fuel : Nat} {label text : String} {close : Token}
    (h : Stream lines p ts) (hread : labelText fuel label ts = some ((text, close), rest)) :
    Stream lines p rest := by
  induction fuel generalizing label ts with
  | zero => cases hread
  | succ fuel ih =>
    rw [Terraform.labelText.eq_def] at hread
    dsimp only at hread
    split at hread
    · split at hread
      · cases hread
        exact h.tail
      · obtain ⟨part, -, hread⟩ := Option.bind_eq_some_iff.1 hread
        exact ih h.tail hread
      · cases hread
    · cases hread

/-- The labels of a block are read. -/
theorem Stream.labels {fuel : Nat} {found : List (String × Range)} (h : Stream lines p ts)
    (hread : labels fuel ts = some (found, rest)) : Stream lines p rest := by
  induction fuel generalizing found ts with
  | zero => cases hread
  | succ fuel ih =>
    rw [Terraform.labels.eq_def] at hread
    dsimp only at hread
    split at hread
    · split at hread
      · cases hread
        exact h.tail
      · obtain ⟨⟨more, ts₁⟩, hmore, hread⟩ := Option.bind_eq_some_iff.1 hread
        cases hread
        exact ih h.tail hmore
      · obtain ⟨⟨⟨text, close⟩, ts₁⟩, htext, hread⟩ := Option.bind_eq_some_iff.1 hread
        obtain ⟨⟨more, ts₂⟩, hmore, hread⟩ := Option.bind_eq_some_iff.1 hread
        cases hread
        exact ih (h.tail.labelText htext) hmore
      · cases hread
    · cases hread

/-- The end of a line is read. -/
theorem Stream.lineEnd (h : Stream lines p ts) (hread : lineEnd ts = some rest) :
    Stream lines p rest := by
  unfold Terraform.lineEnd at hread
  split at hread
  · cases hread
    exact h.tail
  · cases hread
    exact h
  · cases hread

/-- An attribute is read behind its name. -/
theorem attributeOf_placed {fuel : Nat} {name : Token} {a : Attribute}
    (hread : attributeOf fuel name ts = some (a, rest)) (hname : name.range.Fits lines)
    (h : Stream lines name.range.stop ts) : Reads lines name.range.start a.range rest ∧
      ∀ {lo hi}, lo ≤ name.range.start → a.range.stop ≤ hi → a.Placed lines lo hi := by
  obtain ⟨⟨value, ts₁⟩, hvalue, hread⟩ := Option.bind_eq_some_iff.1 hread
  cases hread
  have hvalue := (readers lines fuel).expression hvalue h
  have hname : Reads lines name.range.start name.range ts := ⟨le_refl _, hname, h⟩
  have hall := hname.join hvalue.reads
  exact ⟨hall, fun hlo hhi => ⟨hlo, hhi, hall.fits,
    hname.fits.ordered.trans hvalue.reads.behind, le_refl _, hvalue.placed⟩⟩

/-- A body was read up to the token that closes it, whose kind is given. -/
structure Body.Read (lines : Nat) (p : Position) (closer : Kind) (body : Body) (close : Token)
    (rest : List Token) : Prop where
  kind : close.kind = closer
  behind : p ≤ close.range.start
  fits : close.Fits lines
  stream : Stream lines close.range.stop rest
  placed : body.Placed lines p close.range.start

/-- What the readers of bodies at one depth leave. -/
structure BodyReaders (lines limit fuel : Nat) : Prop where
  bodyItems {closer : Kind} {p : Position} {ts rest : List Token} {body : Body} {close : Token} :
    bodyItems limit fuel closer ts = some ((body, close), rest) → Stream lines p ts →
      body.Read lines p closer close rest
  sectionOf {type : Token} {ts rest : List Token} {s : Section} :
    sectionOf limit fuel type ts = some (s, rest) → type.range.Fits lines →
      Stream lines type.range.stop ts → ∃ q, type.range.start ≤ q ∧ Stream lines q rest ∧
        ∀ {lo hi}, lo ≤ type.range.start → q ≤ hi → sectionsPlaced lines lo hi [s]

namespace BodyReaders

variable {limit fuel : Nat} (ih : BodyReaders lines limit fuel)
include ih

theorem bodyItems_step {closer : Kind} {body : Body} {close : Token}
    (hread : Terraform.bodyItems limit (fuel + 1) closer ts = some ((body, close), rest))
    (h : Stream lines p ts) : body.Read lines p closer close rest := by
  rw [Terraform.bodyItems.eq_def] at hread
  dsimp only at hread
  split at hread
  · cases hread
  next t ts =>
  split at hread
  · next hcloser =>
    cases hread
    exact ⟨hcloser, h.1, h.2.1, h.2.2, nofun, trivial⟩
  split at hread
  · exact ih.bodyItems hread h.tail
  split at hread
  · cases hread
  next hname =>
  have ht := h.2.1.range (by rw [not_not.1 hname]; nofun)
  split at hread
  · next hequal =>
    obtain ⟨⟨a, ts₁⟩, ha, hread⟩ := Option.bind_eq_some_iff.1 hread
    obtain ⟨ts₂, hend, hread⟩ := Option.bind_eq_some_iff.1 hread
    obtain ⟨⟨⟨⟨attributes, sections⟩, close'⟩, ts₃⟩, hmore, hread⟩ :=
      Option.bind_eq_some_iff.1 hread
    have ⟨hall, hplaced⟩ := attributeOf_placed ha ht (h.2.2.expect hequal).left
    have hrest := ih.bodyItems hmore (hall.stream.lineEnd hend)
    dsimp only at hread
    split at hread
    · cases hread
    cases hread
    have hpast := h.1.trans (hall.behind.trans hall.fits.ordered)
    have hmono := hrest.placed.mono hpast (le_refl _)
    exact ⟨hrest.kind, hpast.trans hrest.behind, hrest.fits, hrest.stream,
      List.forall_mem_cons.2 ⟨hplaced h.1 hrest.behind, hmono.1⟩, hmono.2⟩
  · obtain ⟨⟨s, ts₁⟩, hs, hread⟩ := Option.bind_eq_some_iff.1 hread
    obtain ⟨⟨⟨⟨attributes, sections⟩, close'⟩, ts₂⟩, hmore, hread⟩ :=
      Option.bind_eq_some_iff.1 hread
    cases hread
    obtain ⟨q, hq, hstream, hplaced⟩ := ih.sectionOf hs ht h.2.2
    have hrest := ih.bodyItems hmore hstream
    have hpast := h.1.trans hq
    have hmono := hrest.placed.mono hpast (le_refl _)
    exact ⟨hrest.kind, hpast.trans hrest.behind, hrest.fits, hrest.stream, hmono.1,
      sectionsPlaced_cons (hplaced h.1 hrest.behind) hmono.2⟩

theorem sectionOf_step {type : Token} {s : Section}
    (hread : Terraform.sectionOf limit (fuel + 1) type ts = some (s, rest))
    (htype : type.range.Fits lines) (h : Stream lines type.range.stop ts) :
    ∃ q, type.range.start ≤ q ∧ Stream lines q rest ∧
      ∀ {lo hi}, lo ≤ type.range.start → q ≤ hi → sectionsPlaced lines lo hi [s] := by
  rw [Terraform.sectionOf] at hread
  obtain ⟨⟨labels, ts₁⟩, hlabels, hread⟩ := Option.bind_eq_some_iff.1 hread
  have h₁ := h.labels hlabels
  have hend {body : Body} {close : Token} {ts₂ : List Token}
      (hread : ((Terraform.lineEnd ts₂).bind fun ts => some
        (Section.mk type.text labels type.range (type.range.to close.range) body, ts)) =
          some (s, rest))
      (hclose : Reads lines type.range.stop close.range ts₂)
      (hplaced : body.Placed lines type.range.stop close.range.start) :
      ∃ q, type.range.start ≤ q ∧ Stream lines q rest ∧
        ∀ {lo hi}, lo ≤ type.range.start → q ≤ hi → sectionsPlaced lines lo hi [s] := by
    obtain ⟨ts₃, hline, hread⟩ := Option.bind_eq_some_iff.1 hread
    cases hread
    have hall := Reads.join ⟨le_refl _, htype, h⟩ hclose
    refine ⟨close.range.stop, hall.fits.ordered, hclose.stream.lineEnd hline, fun hlo hhi => ?_⟩
    exact ⟨⟨hlo, hhi, hall.fits, hplaced.mono htype.ordered hclose.fits.ordered⟩, trivial⟩
  dsimp only at hread
  split at hread
  · next text r ts₂ =>
    obtain ⟨⟨equal, ts₃⟩, hequal, hread⟩ := Option.bind_eq_some_iff.1 hread
    obtain ⟨⟨a, ts₄⟩, ha, hread⟩ := Option.bind_eq_some_iff.1 hread
    obtain ⟨⟨close, ts₅⟩, hclose, hread⟩ := Option.bind_eq_some_iff.1 hread
    have hname := h₁.head nofun
    have ⟨hall, hplaced⟩ := attributeOf_placed ha hname.fits (hname.stream.expect hequal).left
    have hclose := hall.stream.expect hclose
    have hpast := hname.behind.trans (hall.behind.trans hall.fits.ordered)
    exact hend hread (hclose.mono hpast)
      ⟨List.forall_mem_singleton.2 (hplaced hname.behind hclose.behind), trivial⟩
  · obtain ⟨⟨⟨body, close⟩, ts₂⟩, hbody, hread⟩ := Option.bind_eq_some_iff.1 hread
    have hbody := ih.bodyItems hbody h₁
    have hfits := hbody.fits.range (by rw [hbody.kind]; nofun)
    exact hend hread ⟨hbody.behind, hfits, hbody.stream⟩ hbody.placed

end BodyReaders

/-- The readers of bodies keep to the order of the tokens, however deep blocks are nested. -/
theorem bodyReaders (lines limit : Nat) : ∀ fuel : Nat, BodyReaders lines limit fuel
  | 0 => ⟨nofun, nofun⟩
  | fuel + 1 =>
    have ih := bodyReaders lines limit fuel
    ⟨ih.bodyItems_step, ih.sectionOf_step⟩

/-! ## Spans -/

/-- The lines of a range lie within those of a span, if it has any. -/
def Holds (holder : Span) (r : Range) : Prop :=
  0 < holder.line → holder.line ≤ r.start.line ∧ (r.stop.line : Int) ≤ holder.endLine

/-- An element at no place holds everything. -/
theorem holds_nowhere (r : Range) : Holds .nowhere r :=
  fun h => absurd h (by decide)

/-- An element holds what lies within its range. -/
theorem holds_spanOf {r inner : Range} (code : String) (hstart : r.start ≤ inner.start)
    (hstop : inner.stop ≤ r.stop) : Holds (Script.spanOf r code) inner := fun _ =>
  ⟨Int.ofNat_le.2 (Position.line_le hstart), Int.ofNat_le.2 (Position.line_le hstop)⟩

/-- The span of a range that fits is sound. -/
theorem isSound_spanOf {holder : Span} {r : Range} (typeName code : String)
    (hfits : r.Fits lines) (hholder : Holds holder r) :
    Placement.IsSound lines ⟨typeName, holder, Script.spanOf r code⟩ := by
  have ⟨hline, hcolumn, hle, hordered, hends⟩ := hfits
  rw [Position.le_def] at hordered
  rw [Position.Ends] at hends
  constructor
  all_goals dsimp only [Script.spanOf]
  case within => exact hholder
  all_goals omega

/-! ## Pairs -/

mutual

/-- The pair of a value that lies within its range is sound. -/
theorem sound_pairOf (s : Script) (kind : PairKind) (name : String) {holder : Span} {r : Range}
    (hfits : r.Fits lines) (hholder : Holds holder r) : ∀ {t : Term}, t.Placed lines →
    r.start ≤ t.range.start → t.range.stop ≤ r.stop →
    AllSound lines ((s.pairOf kind name r t).placements holder)
  | .object inner items, hplaced, hstart, hstop => by
    rw [Script.pairOf, Pair.placements, allSound_cons]
    have hmembers : ∀ m : Range, inner.start ≤ m.start → m.stop ≤ inner.stop →
        Holds (s.lineSpan r) m := fun m hlo hhi =>
      holds_spanOf _ (hstart.trans hlo) (hhi.trans hstop)
    exact ⟨isSound_spanOf _ _ hfits hholder, sound_memberPairs s kind hmembers hplaced⟩
  | .null _, _, _, _ | .boolean _ _, _, _, _ | .number _ _, _, _, _ | .text _ _, _, _, _
  | .template _ _, _, _, _ | .wrapped _ _, _, _, _ | .parens _ _, _, _, _ | .bare _ _, _, _, _
  | .access _ _ _, _, _, _ | .index _ _ _, _, _, _ | .splat _ _ _, _, _, _ | .item _, _, _, _
  | .call _ _ _, _, _, _ | .unary _ _ _, _, _, _ | .binary _ _ _ _, _, _, _
  | .conditional _ _ _ _, _, _, _ | .tuple _ _, _, _, _ | .comprehension _ _ _ _ _ _ _, _, _, _
  | .repeated _ _ _ _, _, _, _ => by
    exact allSound_cons.2 ⟨isSound_spanOf _ _ hfits hholder, allSound_nil⟩

/-- The pairs of items that lie between two positions are sound. -/
theorem sound_memberPairs (s : Script) (kind : PairKind) {lo hi : Position} {holder : Span}
    (hholder : ∀ r : Range, lo ≤ r.start → r.stop ≤ hi → Holds holder r) :
    ∀ {items : List ObjectItem}, itemsPlaced lines lo hi items →
    AllSound lines (pairsPlacements holder (s.memberPairs kind items))
  | [], _ => allSound_nil
  | ⟨key, _, value⟩ :: items, ⟨⟨hkey, hvalue, hbehind, hfits, hplaced⟩, hitems⟩ => by
    rw [Script.memberPairs, pairsPlacements, allSound_append]
    have hheld := hholder (key.range.to value.range) hkey hvalue
    exact ⟨sound_pairOf s kind _ hfits hheld hplaced hbehind (le_refl _),
      sound_memberPairs s kind hholder hitems⟩

end

/-- What stands in the order of the source is what was there. -/
theorem mem_inOrder {pairs : List (Nat × Pair)} {x : Pair} (h : x ∈ Script.inOrder pairs) :
    ∃ n, (n, x) ∈ pairs := by
  obtain ⟨⟨n, x⟩, hmem, rfl⟩ := List.mem_map.1 h
  exact ⟨n, List.mem_mergeSort.1 hmem⟩

mutual

/-- The pairs of a body that lies between two positions are sound. -/
theorem sound_bodyPairs (s : Script) (kind : PairKind) {lo hi : Position} {holder : Span}
    (hholder : ∀ r : Range, lo ≤ r.start → r.stop ≤ hi → Holds holder r) :
    ∀ {body : Body}, body.Placed lines lo hi →
    AllSound lines (pairsPlacements holder (s.bodyPairs kind body))
  | .mk attributes sections, ⟨hattributes, hsections⟩ => by
    rw [Script.bodyPairs, allSound_pairs]
    intro x hx
    obtain ⟨n, hx⟩ := mem_inOrder hx
    rcases List.mem_append.1 hx with hx | hx
    · obtain ⟨a, ha, heq⟩ := List.mem_map.1 hx
      cases heq
      have ha := hattributes a ha
      exact sound_pairOf s kind _ ha.fits (hholder _ ha.behind ha.before) ha.value_placed
        ha.value_behind ha.value_before
    · exact sound_sectionPairs s kind hholder hsections n x hx

/-- The pairs of blocks that lie between two positions are sound. -/
theorem sound_sectionPairs (s : Script) (kind : PairKind) {lo hi : Position} {holder : Span}
    (hholder : ∀ r : Range, lo ≤ r.start → r.stop ≤ hi → Holds holder r) :
    ∀ {sections : List Section}, sectionsPlaced lines lo hi sections →
    ∀ n x, (n, x) ∈ s.sectionPairs kind sections → AllSound lines (x.placements holder)
  | [], _, _, _, h => nomatch h
  | .mk type labels typeRange range body :: more, ⟨⟨hlo, hhi, hfits, hbody⟩, hmore⟩, n, x, h => by
    rw [Script.sectionPairs] at h
    rcases List.mem_cons.1 h with heq | h
    · cases heq
      rw [Pair.placements, allSound_cons]
      exact ⟨isSound_spanOf _ _ hfits (hholder range hlo hhi),
        sound_bodyPairs s kind (fun r hlo hhi => holds_spanOf _ hlo hhi) hbody⟩
    · exact sound_sectionPairs s kind hholder hmore n x h

end

/-! ## Trees -/

/-- What blocks at the top declare is sound. -/
theorem sound_declared (s : Script) {x : Section} {resources : List Resource} {vars : List Pair}
    (h : s.declared x = .ok (resources, vars)) (hplaced : sectionsPlaced lines lo hi [x]) :
    AllSound lines (resourcesPlacements resources) ∧
      AllSound lines (pairsPlacements .nowhere vars) := by
  obtain ⟨type, labels, typeRange, range, body⟩ := x
  obtain ⟨⟨-, -, hfits, hbody⟩, -⟩ := hplaced
  have hresource (type : String) (name : String × Range) :
      AllSound lines (resourcesPlacements [s.resourceOf type name range body]) := by
    simp only [allSound_resources, List.forall_mem_singleton, Script.resourceOf, resourcePlacements,
      allSound_cons, allSound_append]
    exact ⟨isSound_spanOf _ _ hfits (holds_nowhere range),
      sound_bodyPairs s .attr (fun r hlo hhi => holds_spanOf _ hlo hhi) hbody, allSound_nil⟩
  have hvars := sound_bodyPairs s .var (fun r _ _ => holds_nowhere r) hbody
  unfold Script.declared at h
  dsimp only at h
  split at h
  · split at h <;> cases h
    exact ⟨hresource _ _, allSound_nil⟩
  · split at h <;> cases h
    exact ⟨hresource _ _, allSound_nil⟩
  · split at h <;> cases h
    exact ⟨hresource _ _, allSound_nil⟩
  · split at h <;> cases h
    exact ⟨hresource _ _, allSound_nil⟩
  · split at h <;> cases h
    exact ⟨hresource _ _, allSound_nil⟩
  · cases h
    exact ⟨allSound_nil, hvars⟩
  · cases h
    exact ⟨allSound_nil, allSound_nil⟩
  · cases h
    exact ⟨allSound_nil, allSound_nil⟩
  · cases h

/-- What all blocks at the top declare is sound. -/
theorem sound_declaredAll (s : Script) : ∀ {xs : List Section} {resources : List Resource}
    {vars : List Pair}, s.declaredAll xs = .ok (resources, vars) → sectionsPlaced lines lo hi xs →
    AllSound lines (resourcesPlacements resources) ∧ AllSound lines (pairsPlacements .nowhere vars)
  | [], _, _, h, _ => by
    cases h
    exact ⟨allSound_nil, allSound_nil⟩
  | x :: xs, resources, vars, h, hplaced => by
    obtain ⟨hx, hxs⟩ : sectionsPlaced lines lo hi [x] ∧ sectionsPlaced lines lo hi xs := by
      cases x
      exact ⟨⟨hplaced.1, trivial⟩, hplaced.2⟩
    rw [Script.declaredAll] at h
    obtain ⟨⟨first, firstVars⟩, hfirst, h⟩ := bind_eq_ok.1 h
    obtain ⟨⟨more, moreVars⟩, hmore, h⟩ := bind_eq_ok.1 h
    cases h
    have ⟨hresources, hvars⟩ := sound_declared s hfirst hx
    have ⟨hmoreResources, hmoreVars⟩ := sound_declaredAll s hmore hxs
    rw [allSound_resources] at hresources hmoreResources ⊢
    rw [allSound_pairs] at hvars hmoreVars ⊢
    exact ⟨List.forall_mem_append.2 ⟨hresources, hmoreResources⟩,
      List.forall_mem_append.2 ⟨hvars, hmoreVars⟩⟩

/-- The comments of a stream are sound. -/
theorem sound_commentsOf (hstream : Stream lines p ts) :
    AllSound lines ((Script.commentsOf ts).map fun c => ⟨"*ir.Comment", .nowhere, c.span⟩) := by
  refine List.forall_mem_map.2 fun comment hcomment => ?_
  obtain ⟨t, ht, rfl⟩ := List.mem_map.1 hcomment
  have ⟨ht, hkind⟩ := List.mem_filter.1 ht
  have hfits := (hstream.fits t ht).range fun heof => by simp [heof] at hkind
  exact isSound_spanOf _ _ hfits (holds_nowhere _)

/-- The body of a source lies within its range, and this fits. -/
theorem parse?_placed {source : Source} (h : parse? ts = some source) (hstream : Stream lines p ts)
    (hend : ∀ t rest, significant ts = t :: rest → t.kind = .eof → t.range.start.line ≤ lines) :
    source.range.Fits lines ∧ ∃ lo hi, source.body.Placed lines lo hi := by
  unfold parse? at h
  dsimp only at h
  split at h
  · cases h
  obtain ⟨first, hfirst, h⟩ := Option.bind_eq_some_iff.1 h
  obtain ⟨⟨⟨body, last⟩, rest⟩, hread, h⟩ := Option.bind_eq_some_iff.1 h
  cases h
  obtain ⟨more, hmore⟩ : ∃ more, significant ts = first :: more := by
    cases hts : significant ts with
    | nil => simp [hts] at hfirst
    | cons t more =>
      rw [hts] at hfirst
      cases hfirst
      exact ⟨more, rfl⟩
  have hsignificant := hstream.significant
  rw [hmore] at hsignificant hread
  have hbody := (bodyReaders lines _ _).bodyItems (p := first.range.start) hread
    ⟨le_refl _, hsignificant.2⟩
  have hfits := hsignificant.2.1
  have hline : first.range.start.line ≤ lines := by
    by_cases hkind : first.kind = .eof
    · exact hend first more hmore hkind
    · exact hfits.line_le hkind
  exact ⟨⟨hfits.line_pos, hfits.column_pos, hline, hbody.behind.trans hbody.fits.ordered,
    hbody.fits.ends⟩, _, _, hbody.placed⟩

/-- A source is accepted if it has a syntax and its blocks declare something. -/
theorem parse_eq_ok_iff {path text : String} {type : BlockType} {b : Block} :
    parse path text type = .ok b ↔ ∃ source resources vars, parse? (tokens text) = some source ∧
      (Script.ofText text).declaredAll source.body.sections = .ok (resources, vars) ∧
      b = ⟨(Script.ofText text).lineSpan source.range, path, type, path, resources, vars, [], [], [],
        Script.commentsOf (tokens text), []⟩ := by
  unfold parse
  dsimp only
  cases parse? (tokens text) with
  | none => exact iff_of_false nofun (by simp)
  | some source =>
    dsimp only
    rw [bind_eq_ok]
    constructor
    · rintro ⟨⟨resources, vars⟩, hdeclared, hb⟩
      cases hb
      exact ⟨source, resources, vars, rfl, hdeclared, rfl⟩
    · rintro ⟨_, resources, vars, ⟨⟩, hdeclared, rfl⟩
      exact ⟨(resources, vars), hdeclared, rfl⟩

/-- The tree of a source is sound in as many lines as the source has. -/
theorem sound_parse {path : String} {bytes content : List UInt8} {type : BlockType}
    {b : Block} (hcontent : (SourceFile.afterMark? bytes).getD bytes = content)
    (hparse : parse path (Text.ofBytes bytes) type = .ok b) :
    AllSound (linesIn content) b.placements := by
  have ⟨⟨p, hstream⟩, hend⟩ := stream_tokens hcontent
  obtain ⟨source, resources, vars, hsource, hdeclared, rfl⟩ := parse_eq_ok_iff.1 hparse
  have ⟨hfits, lo, hi, hbody⟩ := parse?_placed hsource hstream hend
  have ⟨hresources, hvars⟩ := sound_declaredAll _ hdeclared hbody.sections
  simp only [Block.placements, blockPlacements, allSound_cons, allSound_append]
  exact ⟨isSound_spanOf _ _ hfits (holds_nowhere _), ⟨⟨⟨⟨⟨hresources, hvars⟩, allSound_nil⟩,
    allSound_nil⟩, sound_commentsOf hstream⟩, allSound_nil⟩, allSound_nil⟩

/-- UTF-8 is UTF-8 behind a byte order mark. -/
theorem isUtf8_afterMark {bytes : List UInt8} (h : Text.isUtf8 bytes) :
    Text.isUtf8 ((SourceFile.afterMark? bytes).getD bytes) := by
  unfold SourceFile.afterMark?
  split
  · exact h
  · exact h

/-- The lines of a source file that is not empty are those that end with a newline in its bytes, and the
rest behind the last newline. -/
theorem length_lines {path : String} {bytes : List UInt8} {f : SourceFile}
    (hfile : SourceFile.ofBytes? path bytes = some f)
    (hne : (SourceFile.afterMark? bytes).getD bytes ≠ []) :
    f.lines.length = linesIn ((SourceFile.afterMark? bytes).getD bytes) := by
  have hbytes : bytesOf (Text.ofBytes ((SourceFile.afterMark? bytes).getD bytes)).toList =
      (SourceFile.afterMark? bytes).getD bytes := Text.toBytes_ofBytes _
  unfold SourceFile.ofBytes? at hfile
  obtain ⟨-, hfile⟩ := Option.ite_none_right_eq_some.1 hfile
  cases hfile
  rw [List.length_map, Text.length_linesOf_dropReturns, hbytes]
  · rfl
  · intro hnil
    rw [hnil] at hbytes
    exact hne hbytes.symm

/-- The tree of a UTF-8 source that is not empty behind its byte order mark has sound positions. The check
of positions finds no fault; and every block, resource, attribute and variable, at any depth, and every
comment has a line and begins on a line of the source file, ends neither before it begins nor behind the end
of the file, and lies within the lines of what holds it. -/
theorem parsed_positions_are_sound {path : String} {bytes : List UInt8} {type : BlockType} {b : Block}
    (hutf8 : Text.isUtf8 bytes) (hne : (SourceFile.afterMark? bytes).getD bytes ≠ [])
    (hparse : parse path (Text.ofBytes bytes) type = .ok b) :
    ∃ f, SourceFile.ofBytes? path bytes = some f ∧ b.misplaced f = [] ∧
      ∀ x ∈ b.placements, x.IsSound f.lines.length := by
  obtain ⟨f, hfile⟩ : ∃ f, SourceFile.ofBytes? path bytes = some f :=
    ⟨_, if_pos (isUtf8_afterMark hutf8)⟩
  have hsound : AllSound f.lines.length b.placements := by
    rw [length_lines hfile hne]
    exact sound_parse rfl hparse
  exact ⟨f, hfile, b.misplaced_eq_nil hsound, hsound⟩

/-- The ranges of a source that is a resource with an object of one item and, behind it, a block of one
attribute, from the outside in. -/
def nestedRanges? : Source → Option (List Range)
  | ⟨.mk [] [.mk "resource" [_, _] _ resource
      (.mk [⟨_, .object _ [⟨.bare key _, _, .number value _⟩], object⟩]
        [.mk _ _ type block (.mk [⟨_, .boolean _ _, last⟩] [])])], whole⟩ =>
    if object.start.offset ≤ type.start.offset then
      some [whole, resource, object, key.to value, block, last]
    else none
  | _ => none

/-- A source with a byte order mark, a comment that takes the end of its line along, and a resource with an
object and a block in it. -/
def nestedSource : List UInt8 :=
  0xEF :: 0xBB :: 0xBF :: Text.toBytes
    "# a\r\nresource \"a\" \"b\" \x7b\n  c = \x7b\n    d = 1\n  \x7d\n  e \x7b\n    f = true\n  \x7d\n\x7d\n"

/-- The lines of what holds an element, and its own. -/
def linesOf (x : Placement) : (Int × Int) × (Int × Int) :=
  ((x.holder.line, x.holder.endLine), (x.span.line, x.span.endLine))

/-- The places of a source in which an object and a block stand in a resource. -/
theorem parsed_positions_are_sound_nested :
    ∃ b f, parse "a.tf" (Text.ofBytes nestedSource) .script = .ok b ∧
      SourceFile.ofBytes? "a.tf" nestedSource = some f ∧ f.lines.length = 9 ∧ b.misplaced f = [] ∧
      (∀ x ∈ b.placements, x.IsSound 9) ∧
      b.placements.map linesOf =
        [((-1, -1), (1, 10)), ((-1, -1), (2, 9)), ((2, 9), (3, 5)), ((3, 5), (4, 4)),
          ((2, 9), (6, 8)), ((6, 8), (7, 7)), ((-1, -1), (1, 2))] := by
  have hranges : ((parse? (tokens (Text.ofBytes nestedSource))).bind nestedRanges?).map
      (·.map fun r => (r.start.line, r.stop.line)) =
        some [(1, 10), (2, 9), (3, 5), (4, 4), (6, 8), (7, 7)] := by
    decide +kernel
  have hcomments : (Script.commentsOf (tokens (Text.ofBytes nestedSource))).map
      (fun c => (c.span.line, c.span.endLine)) = [(1, 2)] := by
    decide +kernel
  obtain ⟨ranges, hranges, hlines⟩ := Option.map_eq_some_iff.1 hranges
  obtain ⟨source, hsource, hranges⟩ := Option.bind_eq_some_iff.1 hranges
  unfold nestedRanges? at hranges
  split at hranges
  case h_2 => cases hranges
  obtain ⟨horder, hranges⟩ := Option.ite_none_right_eq_some.1 hranges
  cases hranges
  simp only [List.map_cons, List.map_nil, List.cons.injEq, Prod.mk.injEq, and_true] at hlines
  obtain ⟨b, hb⟩ : ∃ b, b = _ := ⟨_, rfl⟩
  have hparse : parse "a.tf" (Text.ofBytes nestedSource) .script = .ok b :=
    parse_eq_ok_iff.2 ⟨_, _, _, hsource, rfl, hb⟩
  have hne : (SourceFile.afterMark? nestedSource).getD nestedSource ≠ [] := by decide +kernel
  obtain ⟨f, hfile, hmisplaced, hsound⟩ := parsed_positions_are_sound (by decide +kernel) hne hparse
  have hlength : f.lines.length = 9 := (length_lines hfile hne).trans (by decide +kernel)
  refine ⟨b, f, hparse, hfile, hlength, hmisplaced, hlength ▸ hsound, ?_⟩
  -- the sort of the pairs is no computation for the kernel, so the tree is written out by its equations
  simpa [hb, Block.placements, blockPlacements, resourcesPlacements, resourcePlacements,
    statementsPlacements, blocksPlacements, pairsPlacements, Pair.placements, linesOf,
    Script.resourceOf, Script.bodyPairs, Script.attributePairs, Script.sectionPairs,
    Script.inOrder, List.mergeSort, Script.pairOf, Script.memberPairs, Pair.ofValue,
    Script.lineSpan, Script.spanOf, Term.range, Span.nowhere, horder, hlines] using hcomments

end InfraSmells.Terraform
