import InfraSmells.Proofs.Design.Declared
import InfraSmells.Proofs.Security.Declared

/-!
# Checkers that look at one element only

A checker is local if the blocks in scope make no difference to it and if it reports at the path it
is given. The checkers of the design family are local, and so are those of the security family that
are no policies (`Registration.local_of_mem`); policies may follow a reference to another resource.
-/

namespace InfraSmells

/-- The blocks in scope make no difference to the checker, and it reports at the path it is given. -/
structure Checker.IsLocal (c : Checker) : Prop where
  scope : ∀ context scope e path,
    c.check { context with scope := scope } e path = c.check context e path
  path : ∀ context e path found, c.check context e path = some found → ∀ f ∈ found, f.path = path

/-- The blocks in scope make no difference to the checker of the registration. -/
def Registration.IgnoresScope (r : Registration) : Prop :=
  ∀ config context scope e path,
    r.check config { context with scope := scope } e path = r.check config context e path

/-- No checker of the design family looks at the blocks in scope. -/
theorem Design.ignoresScope : ∀ r ∈ checkers, r.IgnoresScope := by
  simp only [checkers, List.forall_mem_cons]
  refine ⟨?_, ?_, ?_, ?_, ?_, ?_, ?_, ?_, ?_, ?_, ?_, ?_, ?_, List.forall_mem_nil _⟩
  all_goals exact fun config context scope e path => rfl

/-- No checker of images looks at the blocks in scope. -/
theorem Security.ignoresScope_imageCheckers (t : Technology) :
    ∀ r ∈ imageCheckers t, r.IgnoresScope := by
  simp only [imageCheckers, List.forall_mem_cons]
  refine ⟨?_, ?_, ?_, List.forall_mem_nil _⟩
  all_goals exact fun config context scope e path => rfl

/-- No checker of the security family looks at the blocks in scope. -/
theorem Security.ignoresScope : ∀ r ∈ checkers, r.IgnoresScope := by
  simp only [checkers, List.forall_mem_append, List.forall_mem_cons]
  refine ⟨⟨⟨?_, ?_, ?_, ?_, ?_, ?_, ?_, ?_, ?_, ?_, ?_, ?_, List.forall_mem_nil _⟩,
    ignoresScope_imageCheckers _⟩, ignoresScope_imageCheckers _⟩
  all_goals exact fun config context scope e path => rfl

/-- The checkers of the design family, and those of the security family that are no policies, are
local. -/
theorem Registration.local_of_mem (config : Config) :
    ∀ r ∈ Design.checkers ++ Security.checkers, (r.checker config).IsLocal := by
  have hlocal (r : Registration) (hscope : r.IgnoresScope) (hcodes : r.KeepsToCodes) :
      (r.checker config).IsLocal :=
    ⟨hscope config, fun context e path found hfound f hf =>
      (hcodes config context e path found hfound f hf).path⟩
  rw [List.forall_mem_append]
  exact ⟨fun r hr => hlocal r (Design.ignoresScope r hr) (Design.keepsToCodes r hr),
    fun r hr => hlocal r (Security.ignoresScope r hr) (Security.keepsToCodes r hr)⟩

end InfraSmells
