import InfraSmells.Proofs.Tree.Occurrences

/-!
# Siblings in a tree

The units of a tree are the blocks that no other block holds: those of a project, of its modules and
of the modules in them, each with the path around it. A tree is rearranged (`Element.Rearranged`)
when the blocks of a project or of a module, or the modules next to each other, stand in another
order, at any depth. That only changes the order of the units (`Element.Rearranged.units`).
-/

namespace InfraSmells

/-! ## Units -/

mutual

/-- The blocks of a module and of the modules in it, each with the path of its module. -/
def Module.units : Module → List (String × Block)
  | ⟨_, path, blocks, modules⟩ => blocks.map (path, ·) ++ unitsOf modules

/-- The blocks of several modules. -/
def unitsOf : List Module → List (String × Block)
  | [] => []
  | m :: ms => m.units ++ unitsOf ms

end

/-- The blocks of a tree that are in no other block, each with the path around it. -/
def Element.units : Element → List (String × Block)
  | .project p => unitsOf p.modules ++ p.blocks.map ("", ·)
  | .module m => m.units
  | .block b => [("", b)]
  | .resource _ | .pair _ | .dependency _ | .comment _ | .expr _ => []

mutual

/-- What holds of the paths of a module holds of those of its units and around them. -/
theorem Module.pathsAre_units {ok : String → Prop} :
    ∀ m : Module, (Element.module m).PathsAre ok →
      ∀ u ∈ m.units, ok u.1 ∧ (Element.block u.2).PathsAre ok
  | ⟨name, path, blocks, modules⟩, h => by
    rw [Module.units, List.forall_mem_append, List.forall_mem_map]
    refine ⟨fun b hb => ⟨h _ _ (.refl _) rfl, h.child (by simp [Element.children, hb])⟩, ?_⟩
    exact pathsAre_unitsOf modules fun n hn => h.child (by simp [Element.children, hn])

/-- What holds of the paths of modules holds of those of their units and around them. -/
theorem pathsAre_unitsOf {ok : String → Prop} :
    ∀ ms : List Module, (∀ m ∈ ms, (Element.module m).PathsAre ok) →
      ∀ u ∈ unitsOf ms, ok u.1 ∧ (Element.block u.2).PathsAre ok
  | [], _ => fun _ hu => nomatch hu
  | m :: ms, h => by
    rw [unitsOf, List.forall_mem_append]
    exact ⟨m.pathsAre_units (h m (.head _)), pathsAre_unitsOf ms fun n hn => h n (.tail _ hn)⟩

end

/-- What holds of the paths of a tree and of the empty path holds of the paths of the units and
around them. -/
theorem Element.PathsAre.units {ok : String → Prop} (he : ok "") {root : Element}
    (h : root.PathsAre ok) : ∀ u ∈ root.units, ok u.1 ∧ (Element.block u.2).PathsAre ok := by
  cases root with
  | project p =>
    rw [Element.units, List.forall_mem_append, List.forall_mem_map]
    refine ⟨pathsAre_unitsOf p.modules fun m hm => h.child (by simp [Element.children, hm]), ?_⟩
    exact fun b hb => ⟨he, h.child (by simp [Element.children, hb])⟩
  | module m => exact m.pathsAre_units h
  | block b => exact List.forall_mem_singleton.2 ⟨he, h⟩
  | resource | pair | dependency | comment | expr => exact fun _ hu => nomatch hu

/-! ## Other orders -/

mutual

/-- The blocks of a module, or the modules in it, in another order, at any depth. -/
inductive Module.Rearranged : Module → Module → Prop
  | mk {name path : String} {blocks blocks' : List Block} {modules modules' : List Module}
      (hblocks : blocks.Perm blocks') (hmodules : ModulesRearranged modules modules') :
      Module.Rearranged ⟨name, path, blocks, modules⟩ ⟨name, path, blocks', modules'⟩

/-- Modules in another order, rearranged themselves. -/
inductive ModulesRearranged : List Module → List Module → Prop
  | nil : ModulesRearranged [] []
  | cons {m m' : Module} {ms ms' : List Module} (h : m.Rearranged m')
      (hs : ModulesRearranged ms ms') : ModulesRearranged (m :: ms) (m' :: ms')
  | swap (m n : Module) (ms : List Module) : ModulesRearranged (m :: n :: ms) (n :: m :: ms)
  | trans {ls ms ns : List Module} (h : ModulesRearranged ls ms) (h' : ModulesRearranged ms ns) :
      ModulesRearranged ls ns

end

/-- A project or a module with siblings in another order, at any depth. -/
inductive Element.Rearranged : Element → Element → Prop
  | project {name : String} {modules modules' : List Module} {blocks blocks' : List Block}
      (hmodules : ModulesRearranged modules modules') (hblocks : blocks.Perm blocks') :
      Element.Rearranged (.project ⟨name, modules, blocks⟩) (.project ⟨name, modules', blocks'⟩)
  | module {m m' : Module} (h : m.Rearranged m') : Element.Rearranged (.module m) (.module m')

mutual

/-- A rearranged module has the same units. -/
theorem Module.Rearranged.units {m m' : Module} : m.Rearranged m' → m.units.Perm m'.units
  | .mk hblocks hmodules => (hblocks.map _).append hmodules.units

/-- Rearranged modules have the same units. -/
theorem ModulesRearranged.units {ms ms' : List Module} :
    ModulesRearranged ms ms' → (unitsOf ms).Perm (unitsOf ms')
  | .nil => .refl _
  | .cons h hs => h.units.append hs.units
  | .swap m n ms => List.perm_append_comm_assoc m.units n.units (unitsOf ms)
  | .trans h h' => h.units.trans h'.units

end

/-- A rearranged tree has the same units. -/
theorem Element.Rearranged.units {root root' : Element} (h : root.Rearranged root') :
    root.units.Perm root'.units := by
  cases h with
  | project hmodules hblocks => exact hmodules.units.append (hblocks.map _)
  | module h => exact h.units

end InfraSmells
