import InfraSmells.Design.Checkers
import InfraSmells.Policy.Checkers
import InfraSmells.Security.Checkers

/-!
# The registry

All checkers in a fixed order: design, security and policies. A run uses those that apply to its
technology, in the families it asks for.
-/

namespace InfraSmells.Registry

/-- Every checker. -/
def all : List Registration :=
  Design.checkers ++ Security.checkers ++ Policy.checkers

/-- The checkers for a technology, in the given families; no families means all. -/
def active (t : Technology) (families : List Family) : List Registration :=
  all.filter fun r => r.appliesTo t && (families.isEmpty || families.contains r.family)

/-- The codes that these checkers may report, each once, in the order of the registry. -/
def codes (rs : List Registration) : List String :=
  (rs.flatMap (·.codes)).eraseDups

/-- The checkers of a configuration. -/
def build (config : Config) (families : List Family) : List Checker :=
  (active config.technology families).map (·.checker config)

end InfraSmells.Registry
