import InfraSmells.Design.Checkers
import InfraSmells.Proofs.Checker.Declared

/-!
# The design checkers keep to their codes

One lemma for each checker of the design family, and `Design.keepsToCodes` for all that are
registered. Findings about single lines are moved to a line of the file, which counts from one.
-/

namespace InfraSmells.Design

variable {c : Context} {e : Element} {path : String}

/-! ## Source lines -/

/-- A finding about a line that counts from one keeps to its code. -/
theorem declared_lineFinding (code : String) (b : Block) (context : String) {n : Nat}
    (hn : 1 ≤ n) : (lineFinding code b path context n).Declared [code] path :=
  Finding.Declared.atLine (by simp) hn

/-- Lines are numbered from one. -/
theorem one_le_of_mem_numbered {lines : List String} {x : String × Nat} (h : x ∈ numbered lines) :
    1 ≤ x.2 :=
  (List.mem_zipIdx h).1

/-- Findings about some of the lines of a file keep to their code. -/
theorem allDeclared_lines {code : String} (lines : List String)
    {g : String × Nat → Option Finding}
    (hg : ∀ x f, g x = some f → ∃ b context, f = lineFinding code b path context x.2) :
    AllDeclared [code] path ((numbered lines).filterMap g) := by
  simp only [allDeclared_filterMap]
  intro x hx f hf
  obtain ⟨b, context, rfl⟩ := hg x f hf
  exact declared_lineFinding code b context (one_le_of_mem_numbered hx)

theorem declared_longStatement (max : Int) :
    AllDeclared ["implementation_long_statement"] path (longStatement max c e path) := by
  unfold longStatement
  split
  · simp
  · refine allDeclared_lines _ fun x f hf => ?_
    obtain ⟨-, hf⟩ := Option.ite_none_right_eq_some.1 hf
    exact ⟨_, _, (Option.some.inj hf).symm⟩

theorem declared_tabAlignment :
    AllDeclared ["implementation_improper_alignment"] path (tabAlignment c e path) := by
  unfold tabAlignment
  split
  · simp
  · refine allDeclared_lines _ fun x f hf => ?_
    obtain ⟨-, hf⟩ := Option.ite_none_right_eq_some.1 hf
    exact ⟨_, _, (Option.some.inj hf).symm⟩

/-- The characters of the code stand on lines that count from one. -/
theorem one_le_of_mem_codeChars {lines : List String} {x : Char × Nat} (h : x ∈ codeChars lines) :
    1 ≤ x.2 := by
  obtain ⟨line, hline, hx⟩ := List.mem_flatMap.1 h
  obtain ⟨_, -, rfl⟩ := List.mem_map.1 hx
  exact one_le_of_mem_numbered hline

theorem declared_duplicateBlock (window : Int) :
    AllDeclared ["design_duplicate_block"] path (duplicateBlock window c e path) := by
  unfold duplicateBlock
  split
  · simp
  · simp only [allDeclared_filterMap]
    intro s _ f hf
    obtain ⟨x, hx, rfl⟩ := Option.map_eq_some_iff.1 hf
    have hmem : x ∈ codeChars c.lines := by
      rw [List.getElem?_toArray] at hx
      exact List.mem_of_getElem? hx
    exact declared_lineFinding _ _ _ (one_le_of_mem_codeChars hmem)

theorem declared_unguardedVariable (design : DesignConfig) :
    AllDeclared ["implementation_unguarded_variable"] path
      (unguardedVariable design c e path) := by
  unfold unguardedVariable
  split
  · simp only [allDeclared_ite, allDeclared_nil, allDeclared_flatMap, allDeclared_filterMap]
    refine ⟨fun _ => trivial, fun _ x hx lit _ f hf => ?_⟩
    obtain ⟨-, hf⟩ := Option.ite_none_right_eq_some.1 hf
    rw [← Option.some.inj hf]
    exact declared_lineFinding _ _ _ (one_le_of_mem_numbered hx)
  · simp

/-! ## Layout -/

theorem declared_indentAlignment :
    AllDeclared ["implementation_improper_alignment"] path (indentAlignment c e path) := by
  unfold indentAlignment
  split
  · split <;> simp
  · simp

theorem declared_arrowAlignment :
    AllDeclared ["implementation_improper_alignment"] path (arrowAlignment c e path) := by
  simp [arrowAlignment]

theorem declared_recipeOrder :
    AllDeclared ["design_misplaced_attribute"] path (recipeOrder c e path) := by
  unfold recipeOrder
  split <;> simp

theorem declared_manifestOrder :
    AllDeclared ["design_misplaced_attribute"] path (manifestOrder c e path) := by
  simp [manifestOrder]

/-! ## Structure -/

theorem declared_tooManyVariables (legacy : Bool) :
    AllDeclared ["implementation_too_many_variables"] path
      (tooManyVariables legacy c e path) := by
  unfold tooManyVariables
  split <;> simp

theorem declared_imperativeAbstraction (config : Config) :
    AllDeclared ["design_imperative_abstraction"] path
      (imperativeAbstraction config c e path) := by
  unfold imperativeAbstraction
  split <;> simp

theorem declared_longResource (config : Config) :
    AllDeclared ["design_long_resource"] path (longResource config c e path) := by
  unfold longResource
  split <;> simp

theorem declared_multifacetedAbstraction (config : Config) :
    AllDeclared ["design_multifaceted_abstraction"] path
      (multifacetedAbstraction config c e path) := by
  unfold multifacetedAbstraction
  split <;> simp

theorem declared_avoidComments :
    AllDeclared ["design_avoid_comments"] path (avoidComments c e path) := by
  unfold avoidComments
  split <;> simp

/-! ## All checkers -/

/-- A registration of the design family keeps to its codes if all that its check finds does. -/
theorem keepsToCodes_register {name : String} {codes : List String}
    {check : Config → Context → Element → String → List Finding} {technology : Technology}
    {exceptions : List Technology}
    (h : ∀ config c e path, AllDeclared codes path (check config c e path)) :
    (register name codes check technology exceptions).KeepsToCodes := by
  intro config c e path
  exact Verdict.declared_some.2 (h config c e path)

/-- Every checker of the design family keeps to its codes. -/
theorem keepsToCodes : ∀ r ∈ checkers, r.KeepsToCodes := by
  simp only [checkers, List.forall_mem_cons, List.not_mem_nil, false_implies, implies_true,
    and_true]
  refine ⟨?_, ?_, ?_, ?_, ?_, ?_, ?_, ?_, ?_, ?_, ?_, ?_, ?_⟩
  · exact keepsToCodes_register fun _ _ _ _ => declared_longStatement _
  · exact keepsToCodes_register fun _ _ _ _ => declared_duplicateBlock _
  · exact keepsToCodes_register fun _ _ _ _ => declared_tabAlignment
  · exact keepsToCodes_register fun _ _ _ _ => declared_indentAlignment
  · exact keepsToCodes_register fun _ _ _ _ => declared_arrowAlignment
  · exact keepsToCodes_register fun _ _ _ _ => declared_unguardedVariable _
  · exact keepsToCodes_register fun _ _ _ _ => declared_tooManyVariables _
  · exact keepsToCodes_register fun _ _ _ _ => declared_imperativeAbstraction _
  · exact keepsToCodes_register fun _ _ _ _ => declared_longResource _
  · exact keepsToCodes_register fun _ _ _ _ => declared_multifacetedAbstraction _
  · exact keepsToCodes_register fun _ _ _ _ => declared_avoidComments
  · exact keepsToCodes_register fun _ _ _ _ => declared_recipeOrder
  · exact keepsToCodes_register fun _ _ _ _ => declared_manifestOrder

end InfraSmells.Design
