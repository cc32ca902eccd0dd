import InfraSmells.Tree.Basic

/-!
# The occurrences of elements in a tree

`Element.children` lists what stands directly below an element in any of its lists,
`Element.Within` is the relation of being a part at any depth, and `Element.occurrences` lists all
parts of a tree that a checker may look at, each as often as it occurs, together with the path it
belongs to: the path of the nearest block around it that has one, the block itself included, or
else that of the module around it. None of this says in which order a tree is gone through.
-/

namespace InfraSmells

namespace Element

/-- Is the element one that a checker may look at? Of the expressions only conditionals are. -/
def isChecked : Element → Bool
  | .block _ | .resource _ | .pair _ | .dependency _ | .comment _ => true
  | .expr (.conditional _ _) => true
  | .expr _ | .project _ | .module _ => false

/-- The elements directly below an element. Among statements only those count that are looked at,
and a conditional has the statements of all its branches. -/
def children : Element → List Element
  | .project p => p.modules.map .module ++ p.blocks.map .block
  | .module m => m.blocks.map .block ++ m.modules.map .module
  | .block b =>
    b.resources.map .resource ++ b.vars.map .pair ++ b.attributes.map .pair ++
      b.dependencies.map .dependency ++ b.statements.filter isChecked ++
      b.comments.map .comment ++ b.blocks.map .block
  | .resource r => r.attributes.map .pair ++ r.statements.filter isChecked
  | .pair p => p.children.map .pair
  | .expr (.conditional head rest) =>
    ((head :: rest).flatMap (·.statements)).filter isChecked
  | .expr _ | .dependency _ | .comment _ => []

/-- The path that belongs to an element and passes on to its children, `around` being the path that
belongs to what is around it. -/
def pathFrom (around : String) : Element → String
  | .project _ => ""
  | .module m => m.path
  | .block b => if b.path = "" then around else b.path
  | .resource _ | .pair _ | .dependency _ | .comment _ | .expr _ => around

/-- The path written at an element that can have one. -/
def path? : Element → Option String
  | .module m => some m.path
  | .block b => some b.path
  | _ => none

/-- A child is smaller than its parent. -/
theorem sizeOf_lt_of_mem_children {c e : Element} (h : c ∈ e.children) : sizeOf c < sizeOf e := by
  match e with
  | .project p =>
    simp only [children, List.mem_append, List.mem_map] at h
    rcases h with ⟨m, hm, rfl⟩ | ⟨b, hb, rfl⟩
    · have := List.sizeOf_lt_of_mem hm
      cases p; simp_all; omega
    · have := List.sizeOf_lt_of_mem hb
      cases p; simp_all; omega
  | .module m =>
    simp only [children, List.mem_append, List.mem_map] at h
    rcases h with ⟨b, hb, rfl⟩ | ⟨n, hn, rfl⟩
    · have := List.sizeOf_lt_of_mem hb
      cases m; simp_all; omega
    · have := List.sizeOf_lt_of_mem hn
      cases m; simp_all; omega
  | .block b =>
    simp only [children, List.mem_append, List.mem_map, List.mem_filter] at h
    rcases h with (((((⟨x, hx, rfl⟩ | ⟨x, hx, rfl⟩) | ⟨x, hx, rfl⟩) | ⟨x, hx, rfl⟩) | ⟨hx, -⟩) |
      ⟨x, hx, rfl⟩) | ⟨x, hx, rfl⟩
    all_goals
      have := List.sizeOf_lt_of_mem hx
      cases b; simp_all; omega
  | .resource r =>
    simp only [children, List.mem_append, List.mem_map, List.mem_filter] at h
    rcases h with ⟨x, hx, rfl⟩ | ⟨hx, -⟩
    all_goals
      have := List.sizeOf_lt_of_mem hx
      cases r; simp_all; omega
  | .pair p =>
    simp only [children, List.mem_map] at h
    obtain ⟨x, hx, rfl⟩ := h
    have := List.sizeOf_lt_of_mem hx
    cases p; simp_all; omega
  | .expr (.conditional head rest) =>
    simp only [children, List.mem_filter, List.mem_flatMap, List.mem_cons] at h
    obtain ⟨⟨b, rfl | hb, hc⟩, -⟩ := h
    · have := List.sizeOf_lt_of_mem hc
      cases b; simp_all; omega
    · have h₁ := List.sizeOf_lt_of_mem hc
      have h₂ := List.sizeOf_lt_of_mem hb
      cases b; simp_all; omega
  | .dependency _ | .comment _ => simp [children] at h
  | .expr .absent | .expr (.string ..) | .expr (.number ..) | .expr (.boolean ..)
  | .expr (.null _) | .expr (.array ..) | .expr (.hash ..) | .expr (.reference ..)
  | .expr (.call ..) | .expr (.methodCall ..) | .expr (.unary ..) | .expr (.binary ..) =>
    simp [children] at h

/-- The children of an element that is looked at are looked at. -/
theorem isChecked_of_mem_children {c e : Element} (hc : c ∈ e.children)
    (he : e.isChecked = true) : c.isChecked = true := by
  cases e with
  | block b =>
    simp only [children, List.mem_append, List.mem_map, List.mem_filter] at hc
    rcases hc with (((((⟨x, -, rfl⟩ | ⟨x, -, rfl⟩) | ⟨x, -, rfl⟩) | ⟨x, -, rfl⟩) | ⟨-, hs⟩) |
      ⟨x, -, rfl⟩) | ⟨x, -, rfl⟩
    · rfl
    · rfl
    · rfl
    · rfl
    · exact hs
    · rfl
    · rfl
  | resource r =>
    simp only [children, List.mem_append, List.mem_map, List.mem_filter] at hc
    rcases hc with ⟨x, -, rfl⟩ | ⟨-, hs⟩
    · rfl
    · exact hs
  | pair p =>
    simp only [children, List.mem_map] at hc
    obtain ⟨x, -, rfl⟩ := hc
    rfl
  | expr x =>
    cases x with
    | conditional head rest => exact (List.mem_filter.1 hc).2
    | _ => cases hc
  | dependency | comment => cases hc
  | project | module => cases he

/-- The element is the other one or a part of it. -/
inductive Within : Element → Element → Prop
  | refl (e : Element) : Within e e
  | child {d c e : Element} : c ∈ e.children → Within d c → Within d e

/-- The paths written in a tree all satisfy `ok`. -/
def PathsAre (ok : String → Prop) (e : Element) : Prop :=
  ∀ d p, Within d e → d.path? = some p → ok p

/-- What holds of the paths of a tree holds of those of its parts. -/
theorem PathsAre.child {ok : String → Prop} {c e : Element} (h : e.PathsAre ok)
    (hc : c ∈ e.children) : c.PathsAre ok :=
  fun d p hd hp => h d p (.child hc hd) hp

/-- A property of the paths of a tree is one of its own path and of those in its children. -/
theorem pathsAre_iff {ok : String → Prop} {e : Element} :
    e.PathsAre ok ↔ (∀ p, e.path? = some p → ok p) ∧ ∀ c ∈ e.children, c.PathsAre ok := by
  constructor
  · exact fun h => ⟨fun p hp => h e p (.refl e) hp, fun c hc => h.child hc⟩
  · rintro ⟨hown, hchildren⟩ d p hd hp
    cases hd with
    | refl => exact hown p hp
    | child hc hd => exact hchildren _ hc d p hd hp

/-- Nothing is said of the paths of an element that has neither a path nor children. -/
theorem PathsAre.of_leaf {ok : String → Prop} {e : Element} (hp : e.path? = none)
    (hc : e.children = []) : e.PathsAre ok := by
  refine pathsAre_iff.2 ⟨fun p h => ?_, fun c h => ?_⟩
  · rw [hp] at h
    cases h
  · rw [hc] at h
    cases h

/-- The parts of a tree that a checker may look at, each with the path that belongs to it. -/
def occurrences (around : String) (e : Element) : List (Element × String) :=
  (if e.isChecked then [(e, e.pathFrom around)] else []) ++
    e.children.attach.flatMap fun c => c.1.occurrences (e.pathFrom around)
termination_by sizeOf e
decreasing_by exact sizeOf_lt_of_mem_children c.2

/-- The occurrences in several trees with the same surroundings. -/
def occurrencesIn (around : String) (es : List Element) : List (Element × String) :=
  es.flatMap (occurrences around)

/-- An element occurs itself, if it is looked at, and what occurs in its children. -/
theorem occurrences_eq (around : String) (e : Element) :
    e.occurrences around = (if e.isChecked then [(e, e.pathFrom around)] else []) ++
      occurrencesIn (e.pathFrom around) e.children := by
  rw [occurrences, occurrencesIn, List.flatMap_def, List.flatMap_def]
  congr 2
  exact List.attach_map_val (f := occurrences (e.pathFrom around))

end Element

end InfraSmells
