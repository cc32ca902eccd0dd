import InfraSmells.Technology

/-!
# Configuration

The tables that the checkers match against: words and patterns of the design and security checkers,
and the rules of the policy checkers, which only scripts of Terraform have. A configuration is made
once and never changes.
-/

namespace InfraSmells

/-- Whether a rule asks for its attribute. -/
inductive Requirement where
  | required | optional | forbidden
  deriving DecidableEq, Repr, Inhabited

/-- The name of a requirement in a configuration. -/
def Requirement.name : Requirement → String
  | .required => "yes"
  | .optional => "no"
  | .forbidden => "must_not_exist"

/-- How a rule compares a value with the values it lists. -/
inductive Comparison where
  /-- Only the listed values are accepted. -/
  | equal
  /-- The listed values are refused. -/
  | differ
  /-- An integer not below the first listed value is accepted. -/
  | atLeast
  /-- An integer not above the first listed value is accepted. -/
  | atMost
  deriving DecidableEq, Repr, Inhabited

/-- The name of a comparison in a configuration. -/
def Comparison.name : Comparison → String
  | .equal => "equal"
  | .differ => "diff"
  | .atLeast => "gte"
  | .atMost => "lte"

/-- One constraint on an attribute of resources. -/
structure PolicyRule where
  /-- The types of the resources it applies to. -/
  types : List String := []
  attr : String := ""
  /-- The names of the blocks around the attribute; an empty name stands for the resource. -/
  parents : List String := []
  values : List String := []
  requirement : Requirement := .optional
  /-- What a missing attribute should have been. -/
  advice : String := ""
  comparison : Comparison := .equal
  deriving DecidableEq, Repr, Inhabited

/-- A keyword of a policy document and the value that makes it unsafe. -/
structure KeywordRule where
  /-- The types of the resources it applies to; none means all. -/
  types : List String := []
  keyword : String := ""
  value : String := ""
  deriving DecidableEq, Repr, Inhabited

/-- A flag of a database and the value it should have. -/
structure DatabaseFlag where
  name : String := ""
  value : String := ""
  required : Bool := true
  deriving DecidableEq, Repr, Inhabited

/-- The tables of the design checkers. -/
structure DesignConfig where
  /-- The types of resources that run commands. -/
  execTypes : List String := []
  /-- Variables that need no declaration. -/
  defaultVariables : List String := []
  /-- What marks a variable inside a string; empty where nothing does. -/
  referenceSymbol : String := ""
  /-- Judge the number of variables by the lines of the file. -/
  legacyDensity : Bool := false
  deriving DecidableEq, Repr, Inhabited

/-- The tables of the security checkers. -/
structure SecurityConfig where
  suspiciousWords : List String := []
  passwords : List String := []
  users : List String := []
  profiles : List String := []
  secrets : List String := []
  secretExceptions : List String := []
  roles : List String := []
  downloadExtensions : List String := []
  sshDirectories : List String := []
  admins : List String := []
  checksums : List String := []
  weakAlgorithms : List String := []
  weakExceptions : List String := []
  plainHosts : List String := []
  bindCommands : List String := []
  officialImages : List String := []
  deprecatedImages : List String := []
  dangerousTags : List String := []
  deriving DecidableEq, Repr, Inhabited

/-- The tables of the policy checkers. -/
structure PolicyConfig where
  integrity : List PolicyRule := []
  https : List PolicyRule := []
  tls : List PolicyRule := []
  dnssec : List PolicyRule := []
  publicAddress : List PolicyRule := []
  access : List PolicyRule := []
  encryption : List PolicyRule := []
  firewall : List PolicyRule := []
  versioning : List PolicyRule := []
  authentication : List PolicyRule := []
  keyManagement : List PolicyRule := []
  naming : List PolicyRule := []
  network : List PolicyRule := []
  permissions : List PolicyRule := []
  replication : List PolicyRule := []
  threats : List PolicyRule := []
  passwordPolicy : List PolicyRule := []
  logging : List PolicyRule := []
  keywords : List String := []
  accessKeywords : List KeywordRule := []
  authenticationKeywords : List KeywordRule := []
  memberResources : List String := []
  attachable : List String := []
  databaseFlags : List DatabaseFlag := []
  deriving DecidableEq, Repr, Inhabited

/-- A configuration. -/
structure Config where
  technology : Technology := .any
  /-- Where the configuration comes from, as messages name it. -/
  source : String := ""
  design : DesignConfig := {}
  security : SecurityConfig := {}
  policy : PolicyConfig := {}
  deriving DecidableEq, Repr, Inhabited

end InfraSmells
