import InfraSmells.Proofs.Analysis.Alike
import InfraSmells.Proofs.Analysis.Scope
import InfraSmells.Proofs.Tree.Siblings

/-!
# The order of siblings

What is found in a tree does not depend on the order in which its blocks and modules stand, as long
as the checkers are local and the paths are clean (`Analysis.siblings_in_any_order`). Between two
units the state is always like the one in which a tree is begun (`Analysis.Rested`), so each unit
adds what it adds when it is the only one, and what is found is the union over all units
(`Action.Collects`).
-/

namespace InfraSmells

variable {fs : FileSystem} {start a : Analysis}

/-- The state is sound and like the one in which a tree is begun. -/
structure Analysis.Rested (fs : FileSystem) (a start : Analysis) : Prop where
  sound : a.Sound fs
  alike : start.Alike a

namespace Action

variable {x y : Action} {l m : List (String × Block)}

/-- Goes through a unit that is the only one. -/
def unit (fs : FileSystem) (u : String × Block) : Action :=
  blockAmong fs [u.2] u.1 u.2

/-- What is done from states between two units: the way stops unless all units can be gone through, and it
comes to its end in such a state again, with the keys that each unit adds when it is the only one. -/
def Collects (fs : FileSystem) (start : Analysis) (x : Action) (units : List (String × Block)) :
    Prop :=
  ∀ a : Analysis, a.Rested fs start →
    ((x a).2 = none ↔ ∀ u ∈ units, (unit fs u start).2 = none) ∧
    ((x a).2 = none → (x a).1.Rested fs start ∧
      ∀ k, k ∈ (x a).1.keys ↔ k ∈ a.keys ∨ ∃ u ∈ units, k ∈ (unit fs u start).1.keys)

/-- Where nothing is done nothing is collected. -/
theorem Collects.done : Collects fs start done [] :=
  fun a ha => ⟨by simp [Action.done], fun _ => ⟨ha, by simp [Action.done]⟩⟩

/-- A sequence collects what its parts collect. -/
theorem Collects.andThen (hx : Collects fs start x l) (hy : Collects fs start y m) :
    Collects fs start (x.andThen y) (l ++ m) := by
  intro a ha
  obtain ⟨hpass, hend⟩ := hx a ha
  rw [List.forall_mem_append]
  rcases andThen_cases x y a with ⟨hnone, heq⟩ | ⟨e, hsome, heq⟩
  · obtain ⟨hrested, hkeys⟩ := hend hnone
    obtain ⟨hpass', hend'⟩ := hy _ hrested
    rw [heq, hpass']
    refine ⟨(and_iff_right (hpass.1 hnone)).symm, fun hnone' => ?_⟩
    obtain ⟨hrested', hkeys'⟩ := hend' (hpass'.2 hnone')
    refine ⟨hrested', fun k => ?_⟩
    rw [hkeys', hkeys, or_assoc]
    simp only [List.mem_append, or_and_right, exists_or]
  · rw [heq]
    have hstop : ¬∀ u ∈ l, (unit fs u start).2 = none := by
      rw [← hpass, hsome]
      simp
    refine ⟨⟨fun hnone => ?_, fun hboth => absurd hboth.1 hstop⟩, fun hnone => ?_⟩
    all_goals cases hnone

/-- A unit is gone through in the same way as when it is the only one, whichever blocks it sees. -/
theorem Collects.blockAmong (hstart : start.Sound fs) (hvars : start.vars = [])
    (hkeys : start.keys = []) (scope : List Block) {u : String × Block} (hu : Path.IsClean u.1)
    (hb : (Element.block u.2).PathsAre Path.IsClean) :
    Collects fs start (blockAmong fs scope u.1 u.2) [u] := by
  intro a ha
  have hsame : Same fs (Action.block fs u.1 u.2) :=
    @Law.blockAt fs _ _ (law_same fs) "" u.1 hu u.2 hb fs.legible_empty
  have hseen (b : Analysis) (hsound : b.Sound fs) (seen : List Block) :
      ({ b with scope := seen } : Analysis).Sound fs := { hsound with }
  obtain ⟨hstop, hleft, -, -, new, hgains, hgains'⟩ :=
    hsame { a with scope := scope } { start with scope := [u.2] } (hseen a ha.sound _)
      (hseen start hstart _) ⟨ha.alike.team.symm, ha.alike.current.symm, ha.alike.vars.symm,
        ha.alike.marks.symm⟩
  refine ⟨?_, fun hnone => ⟨⟨hleft, ?_⟩, fun k => ?_⟩⟩
  · rw [List.forall_mem_singleton]
    exact Eq.congr hstop rfl
  · have hscoped : Scoped (Action.blockAmong fs scope u.1 u.2) [] [] _ := .blockAmong scope u.1 u.2
    obtain ⟨hvars', hmarks', -⟩ := hscoped a (ha.alike.vars.symm.trans hvars) hnone
    have hteam : (Action.blockAmong fs scope u.1 u.2).Keeps Analysis.team :=
      @Law.blockAmong fs _ _ (law_team fs) "" u.1 trivial scope u.2 fun _ _ _ _ => trivial
    have hcurrent : (Action.blockAmong fs scope u.1 u.2).Keeps Analysis.current :=
      @Law.blockAmong fs _ _ (law_current fs) "" u.1 trivial scope u.2 fun _ _ _ _ => trivial
    exact ⟨ha.alike.team.trans (hteam a).symm, ha.alike.current.trans (hcurrent a).symm,
      hvars.trans hvars'.symm, ha.alike.marks.trans hmarks'.symm⟩
  · have hunit : k ∈ (unit fs u start).1.keys ↔ k ∈ new := by
      refine (hgains' k).trans ?_
      show k ∈ start.keys ∨ k ∈ new ↔ _
      simp [hkeys]
    simp only [List.mem_singleton, exists_eq_left]
    exact (hgains k).trans (or_congr_right hunit.symm)

/-- Blocks next to each other are gone through as units, whichever blocks they see. -/
theorem Collects.blocksAmong (hstart : start.Sound fs) (hvars : start.vars = [])
    (hkeys : start.keys = []) (scope : Block → List Block) (path : String) : ∀ bs : List Block,
    (∀ u ∈ bs.map (path, ·), Path.IsClean u.1 ∧ (Element.block u.2).PathsAre Path.IsClean) →
      Collects fs start (each (fun b => Action.blockAmong fs (scope b) path b) bs) (bs.map (path, ·))
  | [], _ => .done
  | b :: bs, h => by
    obtain ⟨⟨hpath, hb⟩, hbs⟩ := List.forall_mem_cons.1 h
    exact (Collects.blockAmong hstart hvars hkeys (scope b) hpath hb).andThen
      (.blocksAmong hstart hvars hkeys scope path bs hbs)

mutual

/-- A module is gone through unit by unit. -/
theorem Collects.module (hstart : start.Sound fs) (hvars : start.vars = [])
    (hkeys : start.keys = []) : ∀ m : Module,
    (∀ u ∈ m.units, Path.IsClean u.1 ∧ (Element.block u.2).PathsAre Path.IsClean) →
      Collects fs start (Action.module fs m) m.units
  | ⟨_, path, blocks, modules⟩, h => by
    obtain ⟨hblocks, hmodules⟩ := List.forall_mem_append.1 h
    exact (Collects.blocksAmong hstart hvars hkeys (fun _ => blocks) path blocks hblocks).andThen
      (.moduleList hstart hvars hkeys modules hmodules)

/-- Modules are gone through unit by unit. -/
theorem Collects.moduleList (hstart : start.Sound fs) (hvars : start.vars = [])
    (hkeys : start.keys = []) : ∀ ms : List Module,
    (∀ u ∈ unitsOf ms, Path.IsClean u.1 ∧ (Element.block u.2).PathsAre Path.IsClean) →
      Collects fs start (Action.moduleList fs ms) (unitsOf ms)
  | [], _ => .done
  | m :: ms, h => by
    obtain ⟨hm, hms⟩ := List.forall_mem_append.1 h
    exact (Collects.module hstart hvars hkeys m hm).andThen
      (.moduleList hstart hvars hkeys ms hms)

end

/-- A tree is gone through unit by unit. -/
theorem Collects.root? (hstart : start.Sound fs) (hvars : start.vars = [])
    (hkeys : start.keys = []) {root : Element}
    (h : ∀ u ∈ root.units, Path.IsClean u.1 ∧ (Element.block u.2).PathsAre Path.IsClean)
    (hx : Action.root? fs root = some x) : Collects fs start x root.units := by
  cases root with
  | project p =>
    cases hx
    obtain ⟨hmodules, hblocks⟩ := List.forall_mem_append.1 h
    exact (Collects.moduleList hstart hvars hkeys p.modules hmodules).andThen
      (.blocksAmong hstart hvars hkeys (fun b => [b]) "" p.blocks hblocks)
  | module m =>
    cases hx
    exact .module hstart hvars hkeys m h
  | block b =>
    cases hx
    obtain ⟨hpath, hb⟩ := List.forall_mem_singleton.1 h
    exact .blockAmong hstart hvars hkeys [b] hpath hb
  | resource | pair | dependency | comment | expr => cases hx

end Action

namespace Analysis

/-- A new analysis begins a tree in a sound state, with nothing in scope and nothing found. -/
theorem sound_reset_fresh (fs : FileSystem) (config : Config) {checkers : List Checker}
    (size : Int) (hlocal : ∀ c ∈ checkers, c.IsLocal) :
    (fresh config checkers size).reset.Sound fs where
  checkers := hlocal
  reader := Reader.keeps_ofSize fs _ size
  file _ hf := nomatch hf
  notText _ hp := nomatch hp
  seen _ := Iff.rfl

/-- A tree is analysed if and only if each of its units can be, and what is found is what is found in
them. -/
theorem check_units (fs : FileSystem) (config : Config) {checkers : List Checker} (size : Int)
    (hlocal : ∀ c ∈ checkers, c.IsLocal) (root : Element)
    (hclean : ∀ u ∈ root.units, Path.IsClean u.1 ∧ (Element.block u.2).PathsAre Path.IsClean)
    (hroot : (Action.root? fs root).isSome) :
    let a := fresh config checkers size
    ((∃ found, (a.check fs root).1 = .ok found) ↔
      ∀ u ∈ root.units, (Action.unit fs u a.reset).2 = none) ∧
    ∀ found, (a.check fs root).1 = .ok found → ∀ k,
      k ∈ found.map (·.key) ↔ ∃ u ∈ root.units, k ∈ (Action.unit fs u a.reset).1.keys := by
  intro a
  have hstart : a.reset.Sound fs := sound_reset_fresh fs config size hlocal
  obtain ⟨x, hx⟩ := Option.isSome_iff_exists.1 hroot
  obtain ⟨hpass, hend⟩ := Action.Collects.root? hstart rfl rfl hclean hx a.reset
    ⟨hstart, rfl, rfl, rfl, rfl⟩
  have hfound {found : List Finding} (hok : (a.check fs root).1 = .ok found) :
      (x a.reset).2 = none ∧ found = Finding.sort (x a.reset).1.found := by
    obtain ⟨y, b, hy, hrun, rfl⟩ := end_of_check hok
    obtain rfl := Option.some.inj (hx.symm.trans hy)
    rw [hrun]
    exact ⟨rfl, rfl⟩
  refine ⟨⟨fun ⟨found, hok⟩ => hpass.1 (hfound hok).1, fun hall => ?_⟩, fun found hok k => ?_⟩
  · have hrun : x a.reset = ((x a.reset).1, none) := Prod.ext rfl (hpass.2 hall)
    exact ⟨_, congrArg Prod.fst (check_of_end hx hrun)⟩
  · obtain ⟨hnone, rfl⟩ := hfound hok
    rw [((Finding.sort_perm _).map _).mem_iff]
    exact ((hend hnone).2 k).trans ⟨Or.rec (fun h => nomatch h) id, .inr⟩

/-- What local checkers find in a tree, up to the texts that show it, does not depend on the order of
siblings: it is what they find in the units of the tree, each as the only block of a module at its
path. Checkers of the design family, and those of the security family that are no policies, are
local. -/
theorem siblings_in_any_order :
    (∀ config, ∀ r ∈ Design.checkers ++ Security.checkers, (r.checker config).IsLocal) ∧
    ∀ (fs : FileSystem) (config : Config) (checkers : List Checker) (size : Int) (root : Element)
      (found : List Finding),
      (∀ c ∈ checkers, c.IsLocal) → root.PathsAre Path.IsClean →
      ((fresh config checkers size).check fs root).1 = .ok found →
      (∀ root', root.Rearranged root' → ∃ found',
        ((fresh config checkers size).check fs root').1 = .ok found' ∧
          ∀ k, k ∈ found'.map (·.key) ↔ k ∈ found.map (·.key)) ∧
      ∀ name, (∀ u ∈ root.units, ∃ part,
          ((fresh config checkers size).check fs (.module ⟨name, u.1, [u.2], []⟩)).1 = .ok part) ∧
        ∀ k, k ∈ found.map (·.key) ↔ ∃ u ∈ root.units, ∃ part,
          ((fresh config checkers size).check fs (.module ⟨name, u.1, [u.2], []⟩)).1 = .ok part ∧
            k ∈ part.map (·.key) := by
  refine ⟨fun config r hr => Registration.local_of_mem config r hr, ?_⟩
  intro fs config checkers size root found hlocal hclean hfound
  have hunits := hclean.units (.inl rfl)
  have hroot : (Action.root? fs root).isSome := by
    unfold check at hfound
    cases hx : Action.root? fs root with
    | none => rw [hx] at hfound; cases hfound
    | some x => rfl
  obtain ⟨hpass, hkeys⟩ := check_units fs config size hlocal root hunits hroot
  have hall := hpass.1 ⟨found, hfound⟩
  constructor
  · intro root' h
    have hroot' : (Action.root? fs root').isSome := by cases h <;> rfl
    have hmem (u : String × Block) : u ∈ root'.units ↔ u ∈ root.units := h.units.symm.mem_iff
    obtain ⟨hpass', hkeys'⟩ := check_units fs config size hlocal root'
      (fun u hu => hunits u ((hmem u).1 hu)) hroot'
    obtain ⟨found', hfound'⟩ := hpass'.2 fun u hu => hall u ((hmem u).1 hu)
    refine ⟨found', hfound', fun k => ?_⟩
    simp only [hkeys' found' hfound', hkeys found hfound, hmem]
  · intro name
    have hsingle (u : String × Block) (hu : u ∈ root.units) :
        ∃ part, ((fresh config checkers size).check fs (.module ⟨name, u.1, [u.2], []⟩)).1 = .ok part ∧
          ∀ k, k ∈ part.map (·.key) ↔
            k ∈ (Action.unit fs u (fresh config checkers size).reset).1.keys := by
      have hself : (Element.module ⟨name, u.1, [u.2], []⟩).units = [u] := rfl
      obtain ⟨hpass', hkeys'⟩ := check_units fs config size hlocal
        (.module ⟨name, u.1, [u.2], []⟩) (by simpa [hself] using hunits u hu) rfl
      obtain ⟨part, hpart⟩ := hpass'.2 (by simpa [hself] using hall u hu)
      exact ⟨part, hpart, fun k => by simpa [hself] using hkeys' part hpart k⟩
    refine ⟨fun u hu => (hsingle u hu).imp fun _ h => h.1, fun k => ?_⟩
    rw [hkeys found hfound]
    refine exists_congr fun u => and_congr_right fun hu => ?_
    obtain ⟨part, hpart, hkeysPart⟩ := hsingle u hu
    rw [← hkeysPart]
    constructor
    · exact fun hk => ⟨part, hpart, hk⟩
    · rintro ⟨part', hpart', hk⟩
      rw [hpart] at hpart'
      cases hpart'
      exact hk

/-- Only the paths of scripts with comments are written in them. -/
theorem pathsAre_commented {path : String} (h : Path.IsClean path) :
    (Element.block (commented path [])).PathsAre Path.IsClean := by
  refine Element.pathsAre_iff.2 ⟨fun p hp => ?_, fun c hc => ?_⟩
  · cases hp
    exact h
  · obtain rfl := List.mem_singleton.1 (show c ∈ [Element.comment _] from hc)
    exact .of_leaf rfl rfl

/-- What is found in a tree in order is the result as it is. -/
theorem check_of_sorted {a : Analysis} {root : Element} {x : Action}
    (hx : Action.root? fs root = some x) (hstop : (x a.reset).2 = none)
    (hsorted : (x a.reset).1.found.Pairwise fun f g => (Finding.order f g != .gt) = true) :
    (a.check fs root).1 = .ok (x a.reset).1.found := by
  have hend : x a.reset = ((x a.reset).1, none) := Prod.ext rfl hstop
  rw [check_of_end hx hend]
  exact congrArg Except.ok (List.mergeSort_of_pairwise hsorted)

/-- A project with one module, at the path `a`. -/
def projectOf (blocks : List Block) : Element :=
  .project ⟨"p", [⟨"m", "a", blocks, []⟩], []⟩

/-- The file `b` is no text. Wherever the script at `b` stands, the comments of the other two are
found. -/
theorem siblings_in_any_order_commented :
    let fs := (((FileSystem.empty []).write "a" [0x78]).write "b" [0xFF]).write "c" [0x79]
    let a := fresh (.builtIn .docker) (Design.checkers.map (·.checker (.builtIn .docker))) 1
    let root := projectOf [commented "b" [], commented "" [], commented "c" []]
    let root' := projectOf [commented "c" [], commented "b" [], commented "" []]
    (∀ c ∈ a.checkers, c.IsLocal) ∧ root.PathsAre Path.IsClean ∧ root.Rearranged root' ∧
      ∃ found found', (a.check fs root).1 = .ok found ∧ (a.check fs root').1 = .ok found' ∧
        found.map (fun f => (f.code, f.path, f.line)) =
          [("design_avoid_comments", "a", 3), ("design_avoid_comments", "c", 3)] ∧
        ∀ k, k ∈ found'.map (·.key) ↔ k ∈ found.map (·.key) := by
  intro fs a root root'
  have hlocal : ∀ c ∈ a.checkers, c.IsLocal := by
    intro c hc
    obtain ⟨r, hr, rfl⟩ := List.mem_map.1 hc
    exact siblings_in_any_order.1 _ r (List.mem_append_left _ hr)
  have hclean : root.PathsAre Path.IsClean := by
    refine Element.pathsAre_iff.2 ⟨fun p hp => (nomatch hp), fun m hm => ?_⟩
    obtain rfl := List.mem_singleton.1 (show m ∈ [Element.module _] from hm)
    refine Element.pathsAre_iff.2 ⟨fun p hp => ?_, fun b hb => ?_⟩
    · cases hp
      exact .inr (by decide)
    · rcases List.mem_cons.1 (show b ∈ [Element.block _, .block _, .block _] from hb) with rfl | hb
      · exact pathsAre_commented (.inr (by decide))
      rcases List.mem_cons.1 hb with rfl | hb
      · exact pathsAre_commented (.inl rfl)
      · obtain rfl := List.mem_singleton.1 hb
        exact pathsAre_commented (.inr (by decide))
  have hmoved : root.Rearranged root' :=
    .project (.cons (.mk (@List.perm_append_comm _ [_, _] [_]) .nil) .nil) (.refl _)
  have hrun : (Action.root? fs root).any (fun x => (x a.reset).2.isNone &&
      decide ((x a.reset).1.found.Pairwise fun f g => (Finding.order f g != .gt) = true) &&
      decide ((x a.reset).1.found.map (fun f => (f.code, f.path, f.line)) =
        [("design_avoid_comments", "a", 3), ("design_avoid_comments", "c", 3)])) = true := by
    decide +kernel
  obtain ⟨x, hx, hrun⟩ := (Option.any_eq_true _ _).1 hrun
  simp only [Bool.and_eq_true, decide_eq_true_eq, Option.isNone_iff_eq_none] at hrun
  obtain ⟨⟨hstop, hsorted⟩, hfound⟩ := hrun
  have hok := check_of_sorted hx hstop hsorted
  obtain ⟨found', hok', hsame⟩ :=
    (siblings_in_any_order.2 fs _ _ _ root _ hlocal hclean hok).1 root' hmoved
  exact ⟨hlocal, hclean, hmoved, _, found', hok, hok', hfound, hsame⟩

end Analysis

end InfraSmells
