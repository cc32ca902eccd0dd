import InfraSmells.Design.Alignment
import InfraSmells.Design.Lines
import InfraSmells.Design.Structure

/-!
# The design checkers

The checkers of design and implementation smells, in the order in which they are registered.
-/

namespace InfraSmells.Design

/-- A registration of the design family, for a checker that never breaks down. -/
def register (name : String) (codes : List String)
    (check : Config → Context → Element → String → List Finding)
    (technology : Technology := .any) (exceptions : List Technology := []) : Registration where
  name := name
  family := .design
  technology := technology
  exceptions := exceptions
  codes := codes
  check config c e path := some (check config c e path)

/-- The design checkers. -/
def checkers : List Registration := [
  register "long-statement" ["implementation_long_statement"]
    fun _ => longStatement maxStatementLength,
  register "duplicate-block" ["design_duplicate_block"] fun _ => duplicateBlock duplicateWindow,
  register "improper-alignment-tabs" ["implementation_improper_alignment"] fun _ => tabAlignment,
  register "improper-alignment" ["implementation_improper_alignment"] (fun _ => indentAlignment)
    .any [.puppet, .ansible],
  register "puppet-improper-alignment" ["implementation_improper_alignment"]
    (fun _ => arrowAlignment) .puppet,
  register "unguarded-variable" ["implementation_unguarded_variable"]
    fun config => unguardedVariable config.design,
  register "too-many-variables" ["implementation_too_many_variables"]
    fun config => tooManyVariables config.design.legacyDensity,
  register "imperative-abstraction" ["design_imperative_abstraction"] imperativeAbstraction,
  register "long-resource" ["design_long_resource"] longResource,
  register "multifaceted-abstraction" ["design_multifaceted_abstraction"] multifacetedAbstraction,
  register "avoid-comments" ["design_avoid_comments"] fun _ => avoidComments,
  register "chef-misplaced-attribute" ["design_misplaced_attribute"] (fun _ => recipeOrder) .chef,
  register "puppet-misplaced-attribute" ["design_misplaced_attribute"] (fun _ => manifestOrder)
    .puppet]

end InfraSmells.Design
