import InfraSmells.Finding.Basic
import InfraSmells.Text.Quoted

/-!
# The catalog of smells

Every smell that can be found, with its code, its category and its description. A description begins
with a title, up to the first dash.
-/

namespace InfraSmells

/-- The families of smells. -/
inductive Category where
  | security | design | implementation | policy
  deriving DecidableEq, Repr, Inhabited

/-- The name of a category. -/
def Category.name : Category → String
  | .security => "security"
  | .design => "design"
  | .implementation => "implementation"
  | .policy => "terraform-policy"

/-- How grave a finding is. -/
inductive Severity where
  | info | warning | error
  deriving DecidableEq, Repr, Inhabited

/-- The name of a severity. -/
def Severity.name : Severity → String
  | .info => "INFO"
  | .warning => "WARNING"
  | .error => "ERROR"

/-- One smell of the catalog. -/
structure Smell where
  code : String
  category : Category
  description : String
  deriving DecidableEq, Repr, Inhabited

namespace Smell

/-- The catalog, in the order of the codes. -/
def catalog : List Smell := [
  ⟨"design_avoid_comments", .design,
    "Avoid comments - Comments may lead to bad code or be used as a way to justify bad code."⟩,
  ⟨"design_duplicate_block", .design,
    "Duplicate block - Duplicates blocks may reveal a missing abstraction."⟩,
  ⟨"design_imperative_abstraction", .design,
    "Imperative abstraction - The presence of imperative statements defies the purpose of IaC declarative languages."⟩,
  ⟨"design_long_resource", .design,
    "Long Resource - Long resources may decrease the readability and maintainability of the code."⟩,
  ⟨"design_misplaced_attribute", .design,
    "Misplaced attribute - The developers should try to follow the languages' style guides. These style guides define the expected attribute order."⟩,
  ⟨"design_multifaceted_abstraction", .design,
    "Multifaceted Abstraction - Each block should only specify the properties of a single piece of software."⟩,
  ⟨"design_unnecessary_abstraction", .design,
    "Unnecessary abstraction - Blocks should contain declarations or statements, otherwise they are unnecessary."⟩,
  ⟨"implementation_improper_alignment", .implementation,
    "Improper alignment - The developers should try to follow the languages' style guides. These style guides define how the attributes in an atomic unit should be aligned. The developers should also avoid the use of tabs."⟩,
  ⟨"implementation_long_statement", .implementation,
    "Long statement - Long statements may decrease the readability and maintainability of the code."⟩,
  ⟨"implementation_too_many_variables", .implementation,
    "Too many variables - The existence of too many variables in a single IaC script may reveal that the script is being used for too many purposes."⟩,
  ⟨"implementation_unguarded_variable", .implementation,
    "Unguarded variable - Variables should be guarded for readability and maintainability of the code."⟩,
  ⟨"sec_access_control", .policy,
    "Insecure Access Control - Developers should be aware of possible unauthorized access. (CWE-284)"⟩,
  ⟨"sec_attached_resource", .policy,
    "Attached Resource - DNS records should point to resources managed in the same configuration rather than arbitrary addresses. (CWE-200)"⟩,
  ⟨"sec_authentication", .policy,
    "Weak Authentication - Developers should guarantee that authentication is required and that weak authentication methods are avoided. (CWE-287)"⟩,
  ⟨"sec_def_admin", .security,
    "Admin by default - Developers should always try to give the least privileges possible. Admin privileges may indicate a security problem. (CWE-250)"⟩,
  ⟨"sec_depr_off_imgs", .security,
    "Use of deprecated official Docker image - Deprecated images no longer receive security updates. (CWE-1104)"⟩,
  ⟨"sec_dnssec", .policy,
    "Use of DNS without DNSSEC - Developers should favor the usage of DNSSEC while using DNS. (CWE-350)"⟩,
  ⟨"sec_empty_pass", .security,
    "Empty password - An empty password is indicative of a weak password which may lead to a security breach. (CWE-258)"⟩,
  ⟨"sec_firewall_misconfig", .policy,
    "Firewall Misconfiguration - Developers should configure the firewall properly in order to prevent vulnerabilities. (CWE-693)"⟩,
  ⟨"sec_hard_pass", .security,
    "Hard-coded password - Developers should not reveal sensitive information in the source code. (CWE-259)"⟩,
  ⟨"sec_hard_secr", .security,
    "Hard-coded secret - Developers should not reveal sensitive information in the source code. (CWE-798)"⟩,
  ⟨"sec_hard_user", .security,
    "Hard-coded user - Developers should not reveal sensitive information in the source code. (CWE-798)"⟩,
  ⟨"sec_https", .security,
    "Use of HTTP without TLS - The developers should always favor the usage of HTTPS. (CWE-319)"⟩,
  ⟨"sec_image_integrity", .security,
    "Missing image integrity check - Images should be pinned by a complete sha256 digest. (CWE-353)"⟩,
  ⟨"sec_integrity_policy", .policy,
    "Integrity Policy - Image tag is prone to be mutable or integrity monitoring is disabled. (CWE-471)"⟩,
  ⟨"sec_invalid_bind", .security,
    "Invalid IP address binding - Binding to the address 0.0.0.0 allows connections from every possible network which might be a security issues. (CWE-284)"⟩,
  ⟨"sec_key_management", .policy,
    "Missing Key Management - Developers should use customer managed keys and rotate them regularly. (CWE-320)"⟩,
  ⟨"sec_logging", .policy,
    "Insufficient Logging - Developers should enable logging and keep the logs for a reasonable time. (CWE-778)"⟩,
  ⟨"sec_missing_encryption", .policy,
    "Missing Encryption - Developers should ensure encryption of sensitive and critical data. (CWE-311)"⟩,
  ⟨"sec_mounted_docker_socket", .security,
    "Docker socket mounted in a container - Mounting the docker socket gives the container control over the docker daemon. (CWE-668)"⟩,
  ⟨"sec_naming", .policy,
    "Naming - Developers should describe and label resources following the provider's naming rules. (CWE-1099)"⟩,
  ⟨"sec_network_security_rules", .policy,
    "Network Security Rules - Developers should enforce that network security rules are not too permissive. (CWE-923)"⟩,
  ⟨"sec_no_default_switch", .security,
    "Missing default case statement - Not handling every possible input combination might allow an attacker to trigger an error for an unhandled value. (CWE-478)"⟩,
  ⟨"sec_no_image_tag", .security,
    "Image without tag or digest - Containers should reference a fixed image version instead of whatever the registry serves. (CWE-1357)"⟩,
  ⟨"sec_no_int_check", .security,
    "No integrity check - The content of files downloaded from the internet should be checked. (CWE-353)"⟩,
  ⟨"sec_non_official_image", .security,
    "Use of non-official Docker image - Use of non-official images should be avoided or taken into careful consideration. (CWE-829)"⟩,
  ⟨"sec_permission_iam_policies", .policy,
    "Permission of IAM Policies - Developers should grant permissions to groups and roles, not to users or default service accounts. (CWE-732)"⟩,
  ⟨"sec_privileged_containers", .security,
    "Privileged container - Containers running in privileged mode get full access to the host. (CWE-250)"⟩,
  ⟨"sec_public_ip", .policy,
    "Associated Public IP address - Associating Public IP addresses allows connections from public internet. (CWE-1327)"⟩,
  ⟨"sec_replication", .policy,
    "Replication - Ensure that cross-region replication is enabled to keep copies of the stored objects. (CWE-693)"⟩,
  ⟨"sec_sensitive_iam_action", .policy,
    "Sensitive Action by IAM - Developers should use the principle of least privilege and avoid wildcard actions and resources. (CWE-284)"⟩,
  ⟨"sec_ssl_tls_policy", .policy,
    "SSL/TLS/mTLS Policy - Developers should use SSL/TLS/mTLS protocols and their secure versions. (CWE-326)"⟩,
  ⟨"sec_susp_comm", .security,
    "Suspicious comment - Comments with keywords such as TODO HACK or FIXME may reveal problems possibly exploitable. (CWE-546)"⟩,
  ⟨"sec_threats_detection_alerts", .policy,
    "Missing Threats Detection and Alerts - Developers should enable threat detection and alert notifications. (CWE-693)"⟩,
  ⟨"sec_unstable_tag", .security,
    "Unstable image tag - Tags such as latest or nightly move between releases and make deployments unpredictable. (CWE-1357)"⟩,
  ⟨"sec_versioning", .policy,
    "Versioning - Ensure that versioning is enabled so that users can retrieve and restore previous versions. (CWE-693)"⟩,
  ⟨"sec_weak_crypt", .security,
    "Weak Crypto Algorithm - Weak crypto algorithms should be avoided since they are susceptible to security issues. (CWE-326 | CWE-327)"⟩,
  ⟨"sec_weak_password_key_policy", .policy,
    "Weak Password/Key Policy - Developers should require strong passwords and keys with a limited lifetime. (CWE-521)"⟩]

/-- The smell of a code. -/
def ofCode? (code : String) : Option Smell :=
  catalog.find? (·.code == code)

/-- The title of a smell: its description up to the first dash. -/
def title (s : Smell) : String :=
  Text.before " - " s.description

/-- Smells of security and policy are warnings, the others are remarks. -/
def severity (s : Smell) : Severity :=
  match s.category with
  | .security | .policy => .warning
  | .design | .implementation => .info

/-- The smells of the category of a name. -/
def inCategory (name : String) : List Smell :=
  catalog.filter (·.category.name == name)

/-- The title of a code; a code that is not in the catalog stands for itself. -/
def titleOf (code : String) : String :=
  ((ofCode? code).map title).getD code

/-- The severity of a code; a code that is not in the catalog is an error. -/
def severityOf (code : String) : Severity :=
  ((ofCode? code).map severity).getD .error

/-- The name of the category of a code; a code that is not in the catalog has none. -/
def categoryNameOf (code : String) : String :=
  ((ofCode? code).map (·.category.name)).getD ""

/-- The message for a code that is not in the catalog. -/
def unknownMessage (code : String) : String :=
  "unknown diagnostic code: " ++ Text.quote code

end Smell

end InfraSmells
