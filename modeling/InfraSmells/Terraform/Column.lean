import InfraSmells.Text.Cluster
import InfraSmells.Text.Encoded

/-!
# Columns of a source

A column is what a reader of the source sees as one character. `columns` cuts characters into these
units by a grammar: a line end, a control, a Korean syllable, a pictograph, a flag or any other
character with the marks that extend it, possibly behind signs that stay with the character after
them. The source is met byte by byte; a byte that begins no character is a column of its own.
-/

namespace InfraSmells.Terraform

open Text (ClusterClass ClusterStep CharSet)

/-- Korean syllables that end in a consonant. -/
def closedSyllables : CharSet where
  ranges := ((List.range 399).map fun k => (0xAC01 + 28 * k, 0xAC1B + 28 * k)).toArray

/-- The classes of characters that take more than one value, each as a set. -/
def columnClasses : List (CharSet × ClusterClass) := [
  (Text.clusterControls, .control), (Text.clusterExtenders, .extend),
  (Text.clusterSpacing, .spacing), (Text.clusterPrepends, .prepend),
  (Text.clusterPictographs, .pictograph), (.ofText "1F1E6-1F1FF", .regional),
  (.ofText "1100-115F A960-A97C", .lead), (.ofText "1160-11A7 D7B0-D7C6", .vowel),
  (.ofText "11A8-11FF D7CB-D7FB", .trail), (closedSyllables, .leadVowelTrail)]

/-- The class of the character that bytes begin with, and the number of its bytes. -/
def bytesClass? (bs : List UInt8) : Option (ClusterClass × Nat) :=
  let special := columnClasses.findSome? fun (set, k) => (set.leadingBytes? bs).map fun n => (k, n)
  special <|> (Text.looseLength? bs).map fun n => (.other, n)

/-- The next step through characters, and those behind it. A byte of no character has no class. -/
def columnStep : Char → List Char → ClusterStep × List Char
  | c, cs =>
    if Text.isStray c then
      match bytesClass? ((c :: cs).take 4 |>.flatMap Text.charBytes) with
      | some (k, n) =>
        let (front, rest) := Text.splitBytes n (c :: cs)
        (⟨some k, front⟩, rest)
      | none => (⟨none, [c]⟩, cs)
    else if c == Text.replacement then (⟨some .control, [c]⟩, cs)
    else (⟨some (Text.clusterClass c), [c]⟩, cs)

/-- The steps through characters. No step leaves more than four times the characters it began with. -/
def columnSteps : Nat → List Char → List ClusterStep
  | 0, _ => []
  | _, [] => []
  | fuel + 1, c :: cs =>
    let (step, rest) := columnStep c cs
    step :: columnSteps fuel rest

/-- The number of steps of one class at the front. -/
def runLength (k : ClusterClass) (steps : List ClusterStep) : Nat :=
  (steps.takeWhile (·.kind == some k)).length

/-- The length of the marks at the front. A joiner takes the pictograph behind it along. -/
def extensionLength : List ClusterStep → Nat
  | [] => 0
  | ⟨some .extend, _⟩ :: steps | ⟨some .spacing, _⟩ :: steps => 1 + extensionLength steps
  | ⟨some .joiner, _⟩ :: ⟨some .pictograph, _⟩ :: steps => 2 + extensionLength steps
  | ⟨some .joiner, _⟩ :: steps => 1 + extensionLength steps
  | _ => 0

/-- The length of the marks at the front, joiners among them. -/
def markLength (steps : List ClusterStep) : Nat :=
  (steps.takeWhile fun s =>
    s.kind == some .extend || s.kind == some .joiner || s.kind == some .spacing).length

/-- The length of vowels with the consonants that close them. -/
def vowelLength (steps : List ClusterStep) : Nat :=
  let vowels := runLength .vowel steps
  vowels + runLength .trail (steps.drop vowels)

/-- The length of the Korean syllable at the front, zero if there is none. -/
def syllableLength (steps : List ClusterStep) : Nat :=
  match steps with
  | ⟨some .lead, _⟩ :: _ =>
    let leads := runLength .lead steps
    let rest := steps.drop leads
    match rest with
    | ⟨some .leadVowel, _⟩ :: more =>
      leads + 1 + if runLength .vowel more = 0 then 0 else vowelLength more
    | ⟨some .leadVowelTrail, _⟩ :: more => leads + 1 + runLength .trail more
    | ⟨some .vowel, _⟩ :: _ => leads + vowelLength rest
    | _ => leads
  | ⟨some .leadVowel, _⟩ :: more => 1 + vowelLength more
  | ⟨some .vowel, _⟩ :: _ => vowelLength steps
  | ⟨some .leadVowelTrail, _⟩ :: more => 1 + runLength .trail more
  | ⟨some .trail, _⟩ :: _ => runLength .trail steps
  | _ => 0

/-- The length of the character at the front with its marks. Line ends, controls, signs that stay with
the next character and bytes of no character have none. -/
def coreLength (steps : List ClusterStep) : Nat :=
  match steps with
  | [] => 0
  | ⟨none, _⟩ :: _ => 0
  | ⟨some k, _⟩ :: rest =>
    match k with
    | .lead | .vowel | .trail | .leadVowel | .leadVowelTrail =>
      let n := syllableLength steps
      n + extensionLength (steps.drop n)
    | .pictograph => 1 + extensionLength rest
    | .regional =>
      match rest with
      | ⟨some .regional, _⟩ :: more => 2 + extensionLength more
      | _ => 1 + extensionLength rest
    | .carriageReturn | .lineFeed | .control | .prepend => 0
    | .joiner | .extend | .spacing | .other => 1 + markLength rest

/-- The number of steps of the column at the front. -/
def columnLength (steps : List ClusterStep) : Nat :=
  match steps with
  | ⟨some .carriageReturn, _⟩ :: ⟨some .lineFeed, _⟩ :: _ => 2
  | ⟨some .prepend, _⟩ :: _ =>
    let signs := runLength .prepend steps
    signs + coreLength (steps.drop signs)
  | _ => max 1 (coreLength steps)

/-- Cuts steps into columns. -/
def columnsOf : Nat → List ClusterStep → List (List Char)
  | 0, _ => []
  | _, [] => []
  | fuel + 1, steps =>
    let n := columnLength steps
    (steps.take n).flatMap (·.chars) :: columnsOf fuel (steps.drop n)

/-- The columns of characters. -/
def columns (cs : List Char) : List (List Char) :=
  let steps := columnSteps (4 * cs.length) cs
  columnsOf steps.length steps

end InfraSmells.Terraform
