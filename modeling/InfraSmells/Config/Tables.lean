import InfraSmells.Config.Basic

/-!
# The keys of a configuration

Each key of a section, in the order in which a missing one is noticed, with the part of the
configuration it sets.
-/

namespace InfraSmells

/-- A part of a section that a key sets: how to see it and how to replace it. -/
structure Part (σ : Type) (α : Type) where
  get : σ → α
  set : σ → α → σ

/-- What a key of a section sets. -/
inductive Setting (σ : Type) where
  | text (p : Part σ String)
  | flag (p : Part σ Bool)
  | texts (p : Part σ (List String))
  | rules (p : Part σ (List PolicyRule))
  | keywords (p : Part σ (List KeywordRule))
  | flags (p : Part σ (List DatabaseFlag))

/-- A key of a section. -/
structure SectionKey (σ : Type) where
  name : String
  /-- Must the key be there? -/
  needed : Bool := true
  setting : Setting σ

/-- The keys of the design section. -/
def DesignConfig.keys : List (SectionKey DesignConfig) := [
  { name := "exec_atomic_units"
    setting := .texts ⟨(·.execTypes), fun c x => { c with execTypes := x }⟩ },
  { name := "default_variables"
    setting := .texts ⟨(·.defaultVariables), fun c x => { c with defaultVariables := x }⟩ },
  { name := "var_refer_symbol"
    needed := false
    setting := .text ⟨(·.referenceSymbol), fun c x => { c with referenceSymbol := x }⟩ },
  { name := "legacy_variable_density"
    needed := false
    setting := .flag ⟨(·.legacyDensity), fun c x => { c with legacyDensity := x }⟩ }]

/-- The keys of the security section. -/
def SecurityConfig.keys : List (SectionKey SecurityConfig) := [
  { name := "suspicious_words"
    setting := .texts ⟨(·.suspiciousWords), fun c x => { c with suspiciousWords := x }⟩ },
  { name := "passwords"
    setting := .texts ⟨(·.passwords), fun c x => { c with passwords := x }⟩ },
  { name := "users"
    setting := .texts ⟨(·.users), fun c x => { c with users := x }⟩ },
  { name := "profile"
    setting := .texts ⟨(·.profiles), fun c x => { c with profiles := x }⟩ },
  { name := "secrets"
    setting := .texts ⟨(·.secrets), fun c x => { c with secrets := x }⟩ },
  { name := "secrets_white_list"
    setting := .texts ⟨(·.secretExceptions), fun c x => { c with secretExceptions := x }⟩ },
  { name := "roles"
    setting := .texts ⟨(·.roles), fun c x => { c with roles := x }⟩ },
  { name := "download_extensions"
    setting := .texts ⟨(·.downloadExtensions), fun c x => { c with downloadExtensions := x }⟩ },
  { name := "ssh_dirs"
    setting := .texts ⟨(·.sshDirectories), fun c x => { c with sshDirectories := x }⟩ },
  { name := "admin"
    setting := .texts ⟨(·.admins), fun c x => { c with admins := x }⟩ },
  { name := "checksum"
    setting := .texts ⟨(·.checksums), fun c x => { c with checksums := x }⟩ },
  { name := "weak_crypt"
    setting := .texts ⟨(·.weakAlgorithms), fun c x => { c with weakAlgorithms := x }⟩ },
  { name := "weak_crypt_whitelist"
    setting := .texts ⟨(·.weakExceptions), fun c x => { c with weakExceptions := x }⟩ },
  { name := "url_http_white_list"
    setting := .texts ⟨(·.plainHosts), fun c x => { c with plainHosts := x }⟩ },
  { name := "ip_binding_commands"
    setting := .texts ⟨(·.bindCommands), fun c x => { c with bindCommands := x }⟩ },
  { name := "official_docker_images"
    setting := .texts ⟨(·.officialImages), fun c x => { c with officialImages := x }⟩ },
  { name := "deprecated_official_docker_images"
    setting := .texts ⟨(·.deprecatedImages), fun c x => { c with deprecatedImages := x }⟩ },
  { name := "dangerous_image_tags"
    setting := .texts ⟨(·.dangerousTags), fun c x => { c with dangerousTags := x }⟩ }]

/-- The keys of the policy section. -/
def PolicyConfig.keys : List (SectionKey PolicyConfig) := [
  { name := "integrity_policy"
    setting := .rules ⟨(·.integrity), fun c x => { c with integrity := x }⟩ },
  { name := "ensure_https"
    setting := .rules ⟨(·.https), fun c x => { c with https := x }⟩ },
  { name := "ssl_tls_policy"
    setting := .rules ⟨(·.tls), fun c x => { c with tls := x }⟩ },
  { name := "ensure_dnssec"
    setting := .rules ⟨(·.dnssec), fun c x => { c with dnssec := x }⟩ },
  { name := "use_public_ip"
    setting := .rules ⟨(·.publicAddress), fun c x => { c with publicAddress := x }⟩ },
  { name := "insecure_access_control"
    setting := .rules ⟨(·.access), fun c x => { c with access := x }⟩ },
  { name := "missing_encryption"
    setting := .rules ⟨(·.encryption), fun c x => { c with encryption := x }⟩ },
  { name := "firewall"
    setting := .rules ⟨(·.firewall), fun c x => { c with firewall := x }⟩ },
  { name := "versioning"
    setting := .rules ⟨(·.versioning), fun c x => { c with versioning := x }⟩ },
  { name := "policy_keywords"
    setting := .texts ⟨(·.keywords), fun c x => { c with keywords := x }⟩ },
  { name := "policy_insecure_access_control"
    setting := .keywords ⟨(·.accessKeywords), fun c x => { c with accessKeywords := x }⟩ },
  { name := "authentication"
    setting := .rules ⟨(·.authentication), fun c x => { c with authentication := x }⟩ },
  { name := "key_management"
    setting := .rules ⟨(·.keyManagement), fun c x => { c with keyManagement := x }⟩ },
  { name := "naming"
    setting := .rules ⟨(·.naming), fun c x => { c with naming := x }⟩ },
  { name := "network_security_rules"
    setting := .rules ⟨(·.network), fun c x => { c with network := x }⟩ },
  { name := "permission_iam_policies"
    setting := .rules ⟨(·.permissions), fun c x => { c with permissions := x }⟩ },
  { name := "replication"
    setting := .rules ⟨(·.replication), fun c x => { c with replication := x }⟩ },
  { name := "missing_threats_detection_alerts"
    setting := .rules ⟨(·.threats), fun c x => { c with threats := x }⟩ },
  { name := "password_key_policy"
    setting := .rules ⟨(·.passwordPolicy), fun c x => { c with passwordPolicy := x }⟩ },
  { name := "logging"
    setting := .rules ⟨(·.logging), fun c x => { c with logging := x }⟩ },
  { name := "policy_authentication"
    setting := .keywords ⟨(·.authenticationKeywords), fun c x => { c with authenticationKeywords := x }⟩ },
  { name := "google_iam_member_resources"
    setting := .texts ⟨(·.memberResources), fun c x => { c with memberResources := x }⟩ },
  { name := "possible_attached_resources"
    setting := .texts ⟨(·.attachable), fun c x => { c with attachable := x }⟩ },
  { name := "google_sql_database_log_flags"
    setting := .flags ⟨(·.databaseFlags), fun c x => { c with databaseFlags := x }⟩ }]

end InfraSmells
