import InfraSmells.Policy.Access
import InfraSmells.Policy.Logging

/-!
# The policy checkers

The checkers of policies, in the order in which they are registered. Each evaluates a table of
rules; some also look at single resources.
-/

namespace InfraSmells.Policy

/-- What a checker does with a resource besides its table. -/
abbrev ResourceCheck := Config → Context → Resource → String → Verdict

/-- A table has nothing besides it. -/
def noCheck : ResourceCheck := fun _ _ _ _ => some []

/-- The registration of a checker of policies. -/
def register (name code : String) (check : Config → Context → Element → String → Verdict) :
    Registration where
  name := "terraform-" ++ name
  family := .security
  technology := .terraform
  codes := [code]
  check := check

/-- The registration of a table of rules. -/
def table (name code : String) (rules : PolicyConfig → List PolicyRule)
    (extra : ResourceCheck := noCheck) : Registration :=
  register name code fun config =>
    (tableChecker name code (rules config.policy) (extra config)).check

/-- The policy checkers. -/
def checkers : List Registration := [
  table "integrity-policy" "sec_integrity_policy" (·.integrity),
  table "ensure-https" "sec_https" (·.https),
  table "ssl-tls-policy" "sec_ssl_tls_policy" (·.tls),
  table "ensure-dnssec" "sec_dnssec" (·.dnssec),
  table "public-ip" "sec_public_ip" (·.publicAddress),
  table "missing-encryption" "sec_missing_encryption" (·.encryption),
  table "firewall-misconfig" "sec_firewall_misconfig" (·.firewall),
  table "versioning" "sec_versioning" (·.versioning),
  table "authentication" authenticationCode (·.authentication) authentication,
  table "key-management" "sec_key_management" (·.keyManagement) keyManagement,
  table "naming" "sec_naming" (·.naming) naming,
  table "network-security-rules" "sec_network_security_rules" (·.network) networkRules,
  table "permission-iam-policies" "sec_permission_iam_policies" (·.permissions)
    fun config c r path => some (permissions config c r path),
  table "replication" "sec_replication" (·.replication) replication,
  table "threats-detection" "sec_threats_detection_alerts" (·.threats),
  table "weak-password-key-policy" "sec_weak_password_key_policy" (·.passwordPolicy),
  table "logging" loggingCode (·.logging) logging,
  register "access-control" accessCode
    fun config c e path => some (accessControl config c e path),
  register "sensitive-iam-action" sensitiveCode fun _ c e path => some (sensitiveAction c e path),
  register "attached-resource" "sec_attached_resource"
    fun config c e path => some (attachedResource config c e path)]

end InfraSmells.Policy
