import InfraSmells.Policy.Resources

/-!
# Logging

Checks that resources keep the logs they should: the types of logs they write, the companions that
collect them, and how long logs are kept.
-/

namespace InfraSmells.Policy

/-- The code of missing logs. -/
def loggingCode : String := "sec_logging"

/-- A finding about a resource that lacks an attribute. -/
def lacksAttribute (r : Resource) (path name : String) : Finding :=
  (Finding.of loggingCode (.resource r) path).suggest (requiredAdvice name)

/-- Checks the list of logs that a resource writes: all wanted types have to be listed, or with
`all` unset one of them. A list that is not written out is passed over. -/
def logTypes (r : Resource) (path name : String) (all : Bool) (wanted : List String) :
    List Finding :=
  match attribute? r name with
  | none => [lacksAttribute r path name]
  | some p =>
    if !isList p.value then []
    else
      let missing := wanted.filter fun w => !(literals p.value).contains w
      if all && !missing.isEmpty then
        [(Finding.of loggingCode (.pair p) path).suggest
          ("check for additional log type(s) " ++ Text.join ", " missing)]
      else if !all && missing.length == wanted.length then
        [Finding.of loggingCode (.pair p) path]
      else []

/-- Checks that a broker sends its logs somewhere. -/
def brokerLogs (r : Resource) (path : String) : List Finding :=
  let switch? (broker : Pair) (sink : String) : Option Pair :=
    (broker.child? sink).bind fun log => valued? (log.child? "enabled")
  let switches := (find? r ["logging_info"] "broker_logs").elim [] fun broker =>
    ["cloudwatch_logs", "firehose", "s3"].filterMap (switch? broker)
  if switches.any fun p => p.hasVariable || p.value.literal == "true" then []
  else if switches.isEmpty then
    [lacksAttribute r path "logging_info.broker_logs.[cloudwatch_logs/firehose/s3].enabled"]
  else switches.map fun p => Finding.of loggingCode (.pair p) path

/-- What a storage container lacks in order to be logged: an account in scope, insights into the
account, or the names of the containers that the insights cover. -/
def insightsAdvice? (c : Context) (r : Resource) : Option String :=
  let account := (valued? (attribute? r "storage_account_name")).bind fun p =>
    referencedResource? c "azurerm_storage_account" p.value
  match account.bind Resource.literalName? with
  | none =>
    some ("'azurerm_storage_container' resource has to be associated to an " ++
      "'azurerm_storage_account' resource in order to enable logging")
  | some name =>
    match companion? c "azurerm_storage_account" name
        "resource.azurerm_log_analytics_storage_insights" "storage_account_id" with
    | none =>
      some ("check for a required resource 'azurerm_log_analytics_storage_insights' " ++
        "associated to an 'azurerm_storage_account' resource")
    | some insights =>
      let covers := (valued? (attribute? insights "blob_container_names")).any fun p =>
        (literals p.value).any (· != "")
      if covers then none else some (requiredAdvice "blob_container_names")

/-- The kinds of access to a storage container that do not list it to everybody. -/
def closedAccess : List String := ["blob", "private"]

/-- Checks that a storage container is logged. -/
def storageContainer (c : Context) (r : Resource) (path : String) : List Finding :=
  let isOpen (p : Pair) : Bool :=
    !p.hasVariable && !closedAccess.contains p.value.literal
  let access := (valued? (attribute? r "container_access_type")).filter isOpen
  (access.toList.map fun p => Finding.of loggingCode (.pair p) path) ++
    ((insightsAdvice? c r).toList.map fun advice =>
      (Finding.of loggingCode (.resource r) path).suggest advice)

/-- Checks that a cluster of containers has its insights enabled. -/
def containerInsights (r : Resource) (path : String) : List Finding :=
  let isInsights (p : Pair) : Bool :=
    (valued? (p.child? "name")).any fun n => n.value.literal == "containerinsights"
  match (findAll r [] "setting").find? isInsights with
  | none =>
    [(Finding.of loggingCode (.resource r) path).suggest
      "check for a required attribute with name 'setting.name' and value 'containerInsights'"]
  | some setting =>
    match setting.child? "value" with
    | none => [lacksAttribute r path "setting.value"]
    | some p =>
      if !p.value.isAbsent && !p.hasVariable && p.value.literal != "enabled" then
        [Finding.of loggingCode (.pair p) path]
      else []

/-- Checks that a logging flag of a database is on. -/
def loggingFlag (r : Resource) (path : String) : List Finding :=
  let flags := ["log_connections", "connection_throttling", "log_checkpoints"]
  let isFlag := (valued? (attribute? r "name")).any fun p => flags.contains p.value.literal
  let isOff (p : Pair) : Bool := isFlag && !p.hasVariable && p.value.literal != "on"
  ((valued? (attribute? r "value")).filter isOff).toList.map fun p =>
    Finding.of loggingCode (.pair p) path

/-- The findings about the type of a resource. -/
def logResource (config : Config) (c : Context) (r : Resource) (path : String) : Verdict :=
  match r.type with
  | "resource.aws_eks_cluster" =>
    some (logTypes r path "enabled_cluster_log_types" true
      ["api", "authenticator", "audit", "scheduler", "controllermanager"])
  | "resource.aws_msk_cluster" => some (brokerLogs r path)
  | "resource.aws_neptune_cluster" =>
    some (logTypes r path "enable_cloudwatch_logs_exports" false ["audit"])
  | "resource.aws_docdb_cluster" =>
    some (logTypes r path "enabled_cloudwatch_logs_exports" false ["audit", "profiler"])
  | "resource.azurerm_monitor_log_profile" =>
    some (logTypes r path "categories" true ["write", "delete", "action"])
  | "resource.azurerm_mssql_server" =>
    missingCompanion c loggingCode r path
      "resource.azurerm_mssql_server_extended_auditing_policy" "server_id"
  | "resource.azurerm_mssql_database" =>
    missingCompanion c loggingCode r path
      "resource.azurerm_mssql_database_extended_auditing_policy" "database_id"
  | "resource.aws_vpc" => missingCompanion c loggingCode r path "resource.aws_flow_log" "vpc_id"
  | "resource.azurerm_postgresql_configuration" => some (loggingFlag r path)
  | "resource.google_sql_database_instance" =>
    some (config.policy.databaseFlags.flatMap (databaseFlag loggingCode r path))
  | "resource.azurerm_storage_container" => some (storageContainer c r path)
  | "resource.aws_ecs_cluster" => some (containerInsights r path)
  | _ => some []

/-- The least number of days for which an attribute of a resource, in a block of this name, should
have logs kept, if it says so at all. -/
def minRetention? (type name parent : String) : Option Int :=
  let isAudit := type == "resource.azurerm_mssql_database_extended_auditing_policy" ||
    type == "resource.azurerm_mssql_server_extended_auditing_policy"
  let isPolicy := name == "days" && parent == "retention_policy"
  if name == "retention_in_days" && parent == "" && isAudit then some 90
  else if isPolicy && type == "resource.azurerm_network_watcher_flow_log" then some 90
  else if isPolicy && type == "resource.azurerm_monitor_log_profile" then some 365
  else none

/-- Is a written retention shorter than so many days? What is no number of days is. -/
def isShort (days : Int) (p : Pair) : Bool :=
  !p.hasVariable &&
    match parseInteger p.value.literal with
    | .ok n => n < days
    | .error _ => true

/-- The findings about one attribute. -/
def logAttribute (c : Context) (r : Resource) (path : String) (x : Pair × String) :
    List Finding :=
  let (p, parent) := x
  let finding := Finding.of loggingCode (.pair p) path
  if p.value.isAbsent then []
  else if r.type == "resource.aws_cloudtrail" && p.name == "cloud_watch_logs_group_arn" then
    match referenced? "aws_cloudwatch_log_group" p.value with
    | none => [finding]
    | some name =>
      if (c.resource? "resource.aws_cloudwatch_log_group" name).isSome then []
      else
        [finding.suggest
          ("check for a required resource 'aws_cloudwatch_log_group' with name '" ++ name ++ "'")]
  else
    match minRetention? r.type p.name parent with
    | some days => if isShort days p then [finding] else []
    | none => []

/-- Reports resources that do not keep the logs they should. -/
def logging (config : Config) (c : Context) (r : Resource) (path : String) : Verdict := do
  let special ← logResource config c r path
  return special ++ (attributesOf r).flatMap (logAttribute c r path)

end InfraSmells.Policy
