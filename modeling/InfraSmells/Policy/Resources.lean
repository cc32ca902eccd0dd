import InfraSmells.Policy.Documents
import InfraSmells.Policy.References
import InfraSmells.Policy.Rules

/-!
# Single resources

What the tables of rules cannot say about a resource: flags of a database, companions it needs, how
long a key is kept, how it is named, and which ports it opens.
-/

namespace InfraSmells.Policy

/-- Reports a flag of a database that has not its value; a required flag has to be set. -/
def databaseFlag (code : String) (r : Resource) (path : String) (flag : DatabaseFlag) :
    List Finding :=
  let isFlag (block : Pair) : Bool :=
    (valued? (block.child? "name")).any fun p => p.value.literal == Text.lower flag.name
  let judge (block : Pair) : Option Finding :=
    match block.child? "value" with
    | none =>
      if flag.required then
        some ((Finding.of code (.pair block) path).suggest (requiredAdvice "value"))
      else none
    | some p =>
      if !p.value.isAbsent && !p.hasVariable && p.value.literal != Text.lower flag.value then
        some (Finding.of code (.pair p) path)
      else none
  let blocks := (findAll r ["settings"] "database_flags").filter isFlag
  if blocks.isEmpty && flag.required then
    [(Finding.of code (.resource r) path).suggest
      ("check for a required flag '" ++ flag.name ++ "'")]
  else (blocks.findSome? judge).toList

/-- The code of missing authentication. -/
def authenticationCode : String := "sec_authentication"

/-- The flag that lets a database authenticate its own users. -/
def containedAuthentication : DatabaseFlag where
  name := "contained database authentication"
  value := "off"
  required := true

/-- Reports databases, groups and policy documents that do not ask for authentication. -/
def authentication (config : Config) (c : Context) (r : Resource) (path : String) : Verdict := do
  let special ← match r.type with
    | "resource.google_sql_database_instance" =>
      some (databaseFlag authenticationCode r path containedAuthentication)
    | "resource.aws_iam_group" =>
      missingCompanion c authenticationCode r path "resource.aws_iam_group_policy" "group"
    | _ => some []
  let rules := config.policy.authenticationKeywords.filter fun rule =>
    rule.types.isEmpty || rule.types.contains r.type
  let lacksKeyword (p : Pair) : Bool :=
    (documentText? config p).any fun doc => rules.any fun rule => !matchesKeyword rule doc
  let documents := ((attributesOf r).map Prod.fst).filter lacksKeyword
  return special ++ documents.map fun p => Finding.of authenticationCode (.pair p) path

/-- The longest time between two rotations of a key, in seconds: ninety days. -/
def maxRotation : Int := 7776000

/-- The whole seconds of a period such as `3600s` or `3600.5s`. -/
def periodSeconds? (period : String) : Option String :=
  let cs := period.toList
  let digits := cs.takeWhile Text.isDigit
  let isEnd : List Char → Bool
    | ['s'] => true
    | '.' :: rest =>
      let places := rest.takeWhile Text.isDigit
      places.length ≤ 9 && rest.drop places.length == ['s']
    | _ => false
  if !digits.isEmpty && isEnd (cs.drop digits.length) then some (String.ofList digits) else none

/-- Is a period of rotation too long, or none at all? -/
def isLongRotation (period : String) : Bool :=
  match (periodSeconds? period).map parseInteger with
  | some (.ok seconds) => maxRotation < seconds
  | _ => true

/-- Is the key the one that the provider manages? -/
def isProviderKey (type key : String) : Bool :=
  (type == "resource.aws_sqs_queue" && key == "alias/aws/sqs") ||
    (type == "resource.aws_sns_topic" && key == "alias/aws/sns")

/-- Reports keys that are rotated too seldom or that the owner does not manage. -/
def keyManagement (_ : Config) (c : Context) (r : Resource) (path : String) : Verdict := do
  let code := "sec_key_management"
  let special ←
    if r.type == "resource.azurerm_storage_account" then
      missingCompanion c code r path "resource.azurerm_storage_account_customer_managed_key"
        "storage_account_id"
    else some []
  let isWeak (p : Pair) : Bool :=
    !p.value.isAbsent && !p.hasVariable &&
      ((r.type == "resource.google_kms_crypto_key" && p.name == "rotation_period" &&
          isLongRotation p.value.literal) ||
        (p.name == "kms_master_key_id" && isProviderKey r.type p.value.literal))
  let keys := ((attributesOf r).map Prod.fst).filter isWeak
  return special ++ keys.map fun p => Finding.of code (.pair p) path

/-- Is the text a name of a storage account: three to twenty-four lower-case letters and digits? -/
def isAccountName (s : String) : Bool :=
  3 ≤ s.length && s.length ≤ 24 &&
    s.toList.all fun c => ('a' ≤ c && c ≤ 'z') || Text.isDigit c

/-- Reports resources without the names, labels and descriptions they should have. -/
def naming (_ : Config) (_ : Context) (r : Resource) (path : String) : Verdict :=
  let code := "sec_naming"
  let lacking (name : String) : Finding :=
    (Finding.of code (.resource r) path).suggest (requiredAdvice name)
  match r.type with
  | "resource.aws_security_group" =>
    let isBare (p : Pair) : Bool := p.value.isAbsent && (p.child? "description").isNone
    let directions := ["ingress", "egress"].filter fun d => (findAll r [] d).any isBare
    some (directions.map fun d => lacking (d ++ ".description"))
  | "resource.google_container_cluster" =>
    match attribute? r "resource_labels" with
    | none => some [lacking "resource_labels"]
    | some p =>
      if p.value.isAbsent && p.children.isEmpty then
        some [(Finding.of code (.pair p) path).suggest "check empty 'resource_labels'"]
      else some []
  | "resource.azurerm_storage_account" =>
    let isMisnamed (p : Pair) : Bool :=
      !p.hasVariable && p.value.string?.any fun s => !isAccountName s
    some (((attribute? r "name").filter isMisnamed).toList.map fun p =>
      Finding.of code (.pair p) path)
  | _ => some []

/-- Ports through which a machine is managed, and the mark for all of them. -/
def managementPorts : List String := ["22", "3389", "*"]

/-- Is the source of traffic the whole internet? -/
def isOpenSource (s : String) : Bool :=
  ["*", "/0", "internet", "any"].contains s || Text.startsWith s "0.0.0.0"

/-- The findings about one rule of a firewall: one that lets datagrams through, or connections from
everywhere to a port of management. -/
def exposedRule (attributes : List Pair) (path : String) : List Finding :=
  let get (name : String) : Option Pair := valued? (firstIn name [] attributes)
  let report (p : Pair) : Finding := Finding.of "sec_network_security_rules" (.pair p) path
  match get "access", get "protocol" with
  | some access, some protocol =>
    if access.value.literal != "allow" then []
    else
      match protocol.value.literal with
      | "udp" => [report access]
      | "tcp" =>
        let ports := ["destination_port_range", "destination_port_ranges"].flatMap fun name =>
          (get name).elim [] fun p => literals p.value
        if ports.any managementPorts.contains then
          ((get "source_address_prefix").filter fun p =>
            isOpenSource p.value.literal).toList.map report
        else []
      | _ => []
  | _, _ => []

/-- Reports rules of a firewall that let too much through. -/
def networkRules (_ : Config) (_ : Context) (r : Resource) (path : String) : Verdict :=
  match r.type with
  | "resource.azurerm_network_security_rule" => some (exposedRule r.attributes path)
  | "resource.azurerm_network_security_group" =>
    some ((findAll r [] "security_rule").flatMap fun rule => exposedRule rule.children path)
  | _ => some []

/-- Reports buckets that are not replicated. -/
def replication (_ : Config) (c : Context) (r : Resource) (path : String) : Verdict :=
  if r.type == "resource.aws_s3_bucket" then
    missingCompanion c "sec_replication" r path
      "resource.aws_s3_bucket_replication_configuration" "bucket"
  else some []

end InfraSmells.Policy
