import InfraSmells.Tree.Basic
import InfraSmells.Source.File

/-!
# Sound positions

An element that stands in a source begins on a line of it, does not end before it begins, and lies
within the lines of the resource, pair, branch or block that holds it. Ends are exclusive, so that an
element may end at the first column of the line behind the last one. `Block.placements` lists the
elements of a block with their places, and `Block.misplaced` what they do against these rules.
-/

namespace InfraSmells

/-- What is wrong with the place of an element. -/
inductive Misplacement where
  /-- The element has no line, but an end or a column. -/
  | partly (span : Span)
  | beginsBeyond (lines : Nat)
  | endsBefore (endLine : Int)
  | endsBeyond (endLine endColumn : Int) (lines : Nat)
  | badColumn (column : Int)
  | columnsReversed (endColumn column : Int)
  | outside (line endLine : Int) (holder : Span)
  deriving DecidableEq, Repr

/-- A span with all its parts. -/
def Span.parts (s : Span) : String :=
  "\x7bLine:" ++ toString s.line ++ " Column:" ++ toString s.column ++ " EndLine:" ++
    toString s.endLine ++ " EndColumn:" ++ toString s.endColumn ++ " Code:" ++ s.code ++ "\x7d"

/-- What a misplacement is called. -/
def Misplacement.message : Misplacement → String
  | .partly span => "partial position " ++ span.parts
  | .beginsBeyond lines => "line beyond file end (" ++ toString lines ++ " lines)"
  | .endsBefore endLine => "ends on line " ++ toString endLine ++ " before it starts"
  | .endsBeyond endLine endColumn lines =>
    "end " ++ toString endLine ++ ":" ++ toString endColumn ++ " beyond file end (" ++
      toString lines ++ " lines)"
  | .badColumn column => "column " ++ toString column
  | .columnsReversed endColumn column =>
    "end column " ++ toString endColumn ++ " before column " ++ toString column
  | .outside line endLine holder =>
    "lines " ++ toString line ++ "-" ++ toString endLine ++ " outside parent lines " ++
      toString holder.line ++ "-" ++ toString holder.endLine

/-- What is wrong with a span in a source of so many lines, within the span of its holder. -/
def Span.misplacements (s holder : Span) (lines : Nat) : List Misplacement :=
  if s.line ≤ 0 then
    if s ≠ .nowhere ∧ (0 < s.endLine ∨ 0 < s.column) then [.partly s] else []
  else
    (if (lines : Int) < s.line then [Misplacement.beginsBeyond lines] else []) ++
    (if s.endLine < s.line then [Misplacement.endsBefore s.endLine] else []) ++
    (if (lines : Int) + 1 < s.endLine ∨ s.endLine = (lines : Int) + 1 ∧ 1 < s.endColumn then
      [Misplacement.endsBeyond s.endLine s.endColumn lines] else []) ++
    (if s.column < 1 then [Misplacement.badColumn s.column] else []) ++
    (if s.line = s.endLine ∧ s.endColumn < s.column then
      [Misplacement.columnsReversed s.endColumn s.column] else []) ++
    (if 0 < holder.line ∧ (s.line < holder.line ∨ holder.endLine < s.endLine) then
      [Misplacement.outside s.line s.endLine holder] else [])

/-- The place of an element: what the element is, the span of what holds it, and its own span. -/
structure Placement where
  typeName : String
  holder : Span
  span : Span
  deriving DecidableEq, Repr

/-- What is wrong with the place of an element, in words. -/
def Placement.faults (lines : Nat) (x : Placement) : List String :=
  (x.span.misplacements x.holder lines).map fun m =>
    x.typeName ++ " at " ++ toString x.span.line ++ ": " ++ m.message

mutual

/-- The places of a pair and its children. -/
def Pair.placements (holder : Span) : Pair → List Placement
  | ⟨span, _, _, _, _, children⟩ =>
    ⟨"*ir.KeyValue", holder, span⟩ :: pairsPlacements span children

/-- The places of several pairs. -/
def pairsPlacements (holder : Span) : List Pair → List Placement
  | [] => []
  | p :: ps => p.placements holder ++ pairsPlacements holder ps

end

mutual

/-- The places of a statement and all in it. -/
def statementPlacements (holder : Span) : Element → List Placement
  | .pair p => p.placements holder
  | .expr (.conditional head rest) => branchPlacements head ++ branchesPlacements rest
  | .block b => blockPlacements holder b
  | .project p => [⟨(Element.project p).typeName, holder, .nowhere⟩]
  | .module m => [⟨(Element.module m).typeName, holder, .nowhere⟩]
  | .resource r => [⟨(Element.resource r).typeName, holder, r.span⟩]
  | .dependency d => [⟨(Element.dependency d).typeName, holder, d.span⟩]
  | .comment c => [⟨(Element.comment c).typeName, holder, c.span⟩]
  | .expr e => [⟨(Element.expr e).typeName, holder, e.span⟩]

/-- The places of several statements. -/
def statementsPlacements (holder : Span) : List Element → List Placement
  | [] => []
  | s :: ss => statementPlacements holder s ++ statementsPlacements holder ss

/-- The places of a branch and its statements. -/
def branchPlacements : Branch → List Placement
  | ⟨span, _, _, _, statements⟩ =>
    ⟨"*ir.ConditionalStatement", .nowhere, span⟩ :: statementsPlacements span statements

/-- The places of several branches. -/
def branchesPlacements : List Branch → List Placement
  | [] => []
  | b :: bs => branchPlacements b ++ branchesPlacements bs

/-- The places of a resource and all in it. -/
def resourcePlacements : Resource → List Placement
  | ⟨span, _, _, attributes, statements⟩ =>
    ⟨"*ir.AtomicUnit", .nowhere, span⟩ ::
      (pairsPlacements span attributes ++ statementsPlacements span statements)

/-- The places of several resources. -/
def resourcesPlacements : List Resource → List Placement
  | [] => []
  | r :: rs => resourcePlacements r ++ resourcesPlacements rs

/-- The places of a block and all in it. -/
def blockPlacements (holder : Span) : Block → List Placement
  | ⟨span, _, _, _, resources, vars, attributes, dependencies, statements, comments,
      blocks⟩ =>
    ⟨"*ir.UnitBlock", holder, span⟩ ::
      (resourcesPlacements resources ++ pairsPlacements .nowhere vars ++
        pairsPlacements .nowhere attributes ++
        dependencies.map (fun d => ⟨"*ir.Dependency", .nowhere, d.span⟩) ++
        comments.map (fun c => ⟨"*ir.Comment", .nowhere, c.span⟩) ++
        statementsPlacements .nowhere statements ++ blocksPlacements blocks)

/-- The places of several blocks. -/
def blocksPlacements : List Block → List Placement
  | [] => []
  | b :: bs => blockPlacements .nowhere b ++ blocksPlacements bs

end

/-- The places of the block of a source file and of all in it, from the outside in. -/
def Block.placements (b : Block) : List Placement :=
  blockPlacements .nowhere b

/-- What the block of a source file does against the rules of positions. -/
def Block.misplaced (f : SourceFile) (b : Block) : List String :=
  b.placements.flatMap (·.faults f.lines.length)

end InfraSmells
