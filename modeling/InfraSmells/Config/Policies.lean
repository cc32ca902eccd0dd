import InfraSmells.Config.Basic

/-!
# The built-in policies

The rules, keywords and flags that the policy checkers use when the user gives none.
-/

namespace InfraSmells

namespace PolicyRule

/-- The built-in rules on immutable images and integrity monitoring. -/
def integrity : List PolicyRule := [
  { types := ["resource.aws_ecr_repository"]
    attr := "image_tag_mutability"
    parents := [""]
    values := ["immutable"]
    requirement := .required
    advice := "image_tag_mutability" },
  { types := ["resource.google_compute_instance"]
    attr := "enable_integrity_monitoring"
    parents := ["shielded_instance_config"]
    values := ["true"]
    advice := "shielded_instance_config.enable_integrity_monitoring" }]

/-- The built-in rules on the use of HTTPS. -/
def https : List PolicyRule := [
  { types := ["resource.aws_alb_listener", "resource.aws_lb_listener"]
    attr := "protocol"
    parents := [""]
    values := ["https", "tls"]
    advice := "protocol" },
  { types := ["resource.azurerm_app_service", "resource.azurerm_function_app"]
    attr := "https_only"
    parents := [""]
    values := ["true"]
    requirement := .required
    advice := "https_only" },
  { types := ["resource.aws_cloudfront_distribution"]
    attr := "viewer_protocol_policy"
    parents := ["default_cache_behavior", "ordered_cache_behavior"]
    values := ["https-only", "redirect-to-https"]
    advice := "viewer_protocol_policy" }]

/-- The built-in rules on versions of TLS. -/
def tls : List PolicyRule := [
  { types := ["resource.aws_alb_listener", "resource.aws_lb_listener"]
    attr := "ssl_policy"
    parents := [""]
    values := ["elbsecuritypolicy-tls-1-2-2017-01", "elbsecuritypolicy-tls-1-2-ext-2018-06",
      "elbsecuritypolicy-tls13-1-2-2021-06"]
    advice := "ssl_policy" },
  { types := ["resource.azurerm_storage_account", "resource.azurerm_mssql_server"]
    attr := "min_tls_version"
    parents := [""]
    values := ["tls1_2", "1.2"]
    requirement := .required
    advice := "min_tls_version" },
  { types := ["resource.aws_elasticsearch_domain"]
    attr := "tls_security_policy"
    parents := ["domain_endpoint_options"]
    values := ["policy-min-tls-1-2-2019-07"]
    advice := "domain_endpoint_options.tls_security_policy" }]

/-- The built-in rules on signed domain names. -/
def dnssec : List PolicyRule := [
  { types := ["resource.google_dns_managed_zone"]
    attr := "state"
    parents := ["dnssec_config"]
    values := ["on"]
    requirement := .required
    advice := "dnssec_config.state" }]

/-- The built-in rules on public addresses. -/
def publicAddress : List PolicyRule := [
  { types := ["resource.aws_instance", "resource.aws_launch_template"]
    attr := "associate_public_ip_address"
    parents := ["", "network_interfaces"]
    values := ["false"]
    advice := "associate_public_ip_address" },
  { types := ["resource.google_compute_instance"]
    attr := "access_config"
    parents := ["network_interface"]
    values := [""]
    requirement := .forbidden
    advice := "network_interface.access_config" }]

/-- The built-in rules on access control. -/
def access : List PolicyRule := [
  { types := ["resource.aws_s3_bucket_public_access_block"]
    attr := "block_public_acls"
    parents := [""]
    values := ["true"]
    requirement := .required
    advice := "block_public_acls" },
  { types := ["resource.aws_s3_bucket_public_access_block"]
    attr := "restrict_public_buckets"
    parents := [""]
    values := ["true"]
    requirement := .required
    advice := "restrict_public_buckets" },
  { types := ["resource.aws_s3_bucket", "resource.aws_s3_bucket_acl"]
    attr := "acl"
    parents := [""]
    values := ["private", "log-delivery-write"]
    advice := "acl" },
  { types := ["resource.github_repository"]
    attr := "visibility"
    parents := [""]
    values := ["private", "internal"]
    advice := "visibility" }]

/-- The built-in rules on encryption. -/
def encryption : List PolicyRule := [
  { types := ["resource.aws_ebs_volume", "resource.aws_efs_file_system", "resource.aws_rds_cluster",
      "resource.aws_db_instance"]
    attr := "encrypted"
    parents := [""]
    values := ["true"]
    requirement := .required
    advice := "encrypted" },
  { types := ["resource.aws_db_instance", "resource.aws_rds_cluster"]
    attr := "storage_encrypted"
    parents := [""]
    values := ["true"]
    advice := "storage_encrypted" },
  { types := ["resource.aws_s3_bucket_server_side_encryption_configuration"]
    attr := "sse_algorithm"
    parents := ["rule", "apply_server_side_encryption_by_default"]
    values := ["aws:kms", "aes256"]
    requirement := .required
    advice := "rule.apply_server_side_encryption_by_default.sse_algorithm" }]

/-- The built-in rules on firewalls. -/
def firewall : List PolicyRule := [
  { types := ["resource.azurerm_key_vault", "resource.azurerm_storage_account"]
    attr := "default_action"
    parents := ["network_acls", "network_rules"]
    values := ["deny"]
    advice := "network_acls.default_action" },
  { types := ["resource.google_sql_database_instance"]
    attr := "require_ssl"
    parents := ["settings", "ip_configuration"]
    values := ["true"]
    advice := "settings.ip_configuration.require_ssl" }]

/-- The built-in rules on versioning. -/
def versioning : List PolicyRule := [
  { types := ["resource.aws_s3_bucket_versioning"]
    attr := "status"
    parents := ["versioning_configuration"]
    values := ["enabled"]
    requirement := .required
    advice := "versioning_configuration.status" },
  { types := ["resource.azurerm_storage_account"]
    attr := "versioning_enabled"
    parents := ["blob_properties"]
    values := ["true"]
    advice := "blob_properties.versioning_enabled" }]

/-- The built-in rules on authentication. -/
def authentication : List PolicyRule := [
  { types := ["resource.azurerm_linux_virtual_machine",
      "resource.azurerm_linux_virtual_machine_scale_set"]
    attr := "disable_password_authentication"
    parents := [""]
    values := ["true"]
    requirement := .required
    advice := "disable_password_authentication" },
  { types := ["resource.azurerm_app_service", "resource.azurerm_function_app"]
    attr := "enabled"
    parents := ["auth_settings"]
    values := ["true"]
    requirement := .required
    advice := "auth_settings.enabled" },
  { types := ["resource.google_container_cluster"]
    attr := "issue_client_certificate"
    parents := ["client_certificate_config"]
    values := ["false"]
    advice := "client_certificate_config.issue_client_certificate" },
  { types := ["resource.google_container_cluster"]
    attr := "enabled"
    parents := ["master_auth", "client_certificate_config"]
    values := ["false"]
    advice := "master_auth.client_certificate_config" }]

/-- The built-in rules on keys and their rotation. -/
def keyManagement : List PolicyRule := [
  { types := ["resource.aws_kms_key"]
    attr := "enable_key_rotation"
    parents := [""]
    values := ["true"]
    requirement := .required
    advice := "enable_key_rotation" },
  { types := ["resource.google_kms_crypto_key"]
    attr := "rotation_period"
    parents := [""]
    values := [""]
    requirement := .required
    advice := "rotation_period" },
  { types := ["resource.aws_sqs_queue", "resource.aws_sns_topic"]
    attr := "kms_master_key_id"
    parents := [""]
    values := ["any_not_empty"]
    requirement := .required
    advice := "kms_master_key_id" },
  { types := ["resource.aws_cloudtrail"]
    attr := "kms_key_id"
    parents := [""]
    values := ["any_not_empty"]
    requirement := .required
    advice := "kms_key_id" },
  { types := ["resource.azurerm_key_vault_key"]
    attr := "expiration_date"
    parents := [""]
    values := ["any_not_empty"]
    requirement := .required
    advice := "expiration_date" }]

/-- The built-in rules on names and descriptions. -/
def naming : List PolicyRule := [
  { types := ["resource.aws_security_group", "resource.aws_security_group_rule"]
    attr := "description"
    parents := [""]
    values := ["any_not_empty"]
    requirement := .required
    advice := "description" },
  { types := ["resource.aws_elasticache_security_group", "resource.aws_db_security_group",
      "resource.aws_redshift_security_group"]
    attr := "description"
    parents := [""]
    values := ["any_not_empty"]
    requirement := .required
    advice := "description" }]

/-- The built-in rules on network traffic. -/
def network : List PolicyRule := [
  { types := ["resource.azurerm_kubernetes_cluster"]
    attr := "network_policy"
    parents := ["network_profile"]
    values := ["calico", "azure", "cilium"]
    requirement := .required
    advice := "network_profile.network_policy" },
  { types := ["resource.google_container_cluster"]
    attr := "enabled"
    parents := ["network_policy"]
    values := ["true"]
    requirement := .required
    advice := "network_policy.enabled" }]

/-- The built-in rules on permissions. -/
def permissions : List PolicyRule := [
  { types := ["resource.google_project_iam_binding", "resource.google_project_iam_member",
      "resource.google_folder_iam_binding", "resource.google_folder_iam_member",
      "resource.google_organization_iam_binding", "resource.google_organization_iam_member"]
    attr := "role"
    parents := [""]
    values := ["roles/iam.serviceaccountuser", "roles/iam.serviceaccounttokencreator"]
    advice := "role"
    comparison := .differ },
  { types := ["resource.aws_iam_policy_attachment"]
    attr := "users"
    parents := [""]
    values := [""]
    requirement := .forbidden
    advice := "users" }]

/-- The built-in rules on replication. -/
def replication : List PolicyRule := [
  { types := ["resource.azurerm_storage_account"]
    attr := "account_replication_type"
    parents := [""]
    values := ["grs", "ragrs", "gzrs", "ragzrs"]
    advice := "account_replication_type" },
  { types := ["resource.aws_s3_bucket_replication_configuration"]
    attr := "status"
    parents := ["rule"]
    values := ["enabled"]
    requirement := .required
    advice := "rule.status" }]

/-- The built-in rules on the detection of threats. -/
def threats : List PolicyRule := [
  { types := ["resource.azurerm_security_center_contact"]
    attr := "alert_notifications"
    parents := [""]
    values := ["true"]
    requirement := .required
    advice := "alert_notifications" },
  { types := ["resource.azurerm_security_center_contact"]
    attr := "alerts_to_admins"
    parents := [""]
    values := ["true"]
    requirement := .required
    advice := "alerts_to_admins" },
  { types := ["resource.azurerm_security_center_subscription_pricing"]
    attr := "tier"
    parents := [""]
    values := ["standard"]
    advice := "tier" },
  { types := ["resource.azurerm_mssql_server_security_alert_policy"]
    attr := "state"
    parents := [""]
    values := ["enabled"]
    requirement := .required
    advice := "state" },
  { types := ["resource.azurerm_mssql_server_security_alert_policy"]
    attr := "disabled_alerts"
    parents := [""]
    values := [""]
    requirement := .forbidden
    advice := "disabled_alerts" },
  { types := ["resource.azurerm_mssql_server_security_alert_policy"]
    attr := "email_addresses"
    parents := [""]
    values := ["any_not_empty"]
    requirement := .required
    advice := "email_addresses" },
  { types := ["resource.aws_guardduty_detector"]
    attr := "enable"
    parents := [""]
    values := ["true"]
    advice := "enable" }]

/-- The built-in rules on passwords and keys. -/
def passwordPolicy : List PolicyRule := [
  { types := ["resource.aws_iam_account_password_policy"]
    attr := "minimum_password_length"
    parents := [""]
    values := ["14"]
    requirement := .required
    advice := "minimum_password_length"
    comparison := .atLeast },
  { types := ["resource.aws_iam_account_password_policy"]
    attr := "password_reuse_prevention"
    parents := [""]
    values := ["24"]
    requirement := .required
    advice := "password_reuse_prevention"
    comparison := .atLeast },
  { types := ["resource.aws_iam_account_password_policy"]
    attr := "max_password_age"
    parents := [""]
    values := ["90"]
    requirement := .required
    advice := "max_password_age"
    comparison := .atMost },
  { types := ["resource.aws_iam_account_password_policy"]
    attr := "require_lowercase_characters"
    parents := [""]
    values := ["true"]
    requirement := .required
    advice := "require_lowercase_characters" },
  { types := ["resource.aws_iam_account_password_policy"]
    attr := "require_uppercase_characters"
    parents := [""]
    values := ["true"]
    requirement := .required
    advice := "require_uppercase_characters" },
  { types := ["resource.aws_iam_account_password_policy"]
    attr := "require_numbers"
    parents := [""]
    values := ["true"]
    requirement := .required
    advice := "require_numbers" },
  { types := ["resource.aws_iam_account_password_policy"]
    attr := "require_symbols"
    parents := [""]
    values := ["true"]
    requirement := .required
    advice := "require_symbols" },
  { types := ["resource.azurerm_key_vault_secret"]
    attr := "expiration_date"
    parents := [""]
    values := ["any_not_empty"]
    requirement := .required
    advice := "expiration_date" },
  { types := ["resource.azurerm_key_vault_secret"]
    attr := "content_type"
    parents := [""]
    values := ["any_not_empty"]
    requirement := .required
    advice := "content_type" }]

/-- The built-in rules on logging. -/
def logging : List PolicyRule := [
  { types := ["resource.aws_api_gateway_stage"]
    attr := "destination_arn"
    parents := ["access_log_settings"]
    values := ["any_not_empty"]
    requirement := .required
    advice := "access_log_settings.destination_arn" },
  { types := ["resource.aws_lb", "resource.aws_alb", "resource.aws_elb"]
    attr := "enabled"
    parents := ["access_logs"]
    values := ["true"]
    requirement := .required
    advice := "access_logs.enabled" },
  { types := ["resource.aws_cloudfront_distribution"]
    attr := "bucket"
    parents := ["logging_config"]
    values := ["any_not_empty"]
    requirement := .required
    advice := "logging_config.bucket" },
  { types := ["resource.aws_cloudtrail"]
    attr := "enable_log_file_validation"
    parents := [""]
    values := ["true"]
    requirement := .required
    advice := "enable_log_file_validation" },
  { types := ["resource.aws_cloudtrail"]
    attr := "cloud_watch_logs_group_arn"
    parents := [""]
    values := [""]
    requirement := .required
    advice := "cloud_watch_logs_group_arn" },
  { types := ["resource.aws_mq_broker"]
    attr := "general"
    parents := ["logs"]
    values := ["true"]
    requirement := .required
    advice := "logs.general" },
  { types := ["resource.google_compute_subnetwork"]
    attr := "log_config"
    parents := [""]
    values := [""]
    requirement := .required
    advice := "log_config" },
  { types := ["resource.azurerm_mssql_database_extended_auditing_policy",
      "resource.azurerm_mssql_server_extended_auditing_policy"]
    attr := "retention_in_days"
    parents := [""]
    values := [""]
    requirement := .required
    advice := "retention_in_days" },
  { types := ["resource.azurerm_monitor_log_profile"]
    attr := "enabled"
    parents := ["retention_policy"]
    values := ["true"]
    requirement := .required
    advice := "retention_policy.enabled" },
  { types := ["resource.azurerm_monitor_log_profile"]
    attr := "days"
    parents := ["retention_policy"]
    values := [""]
    requirement := .required
    advice := "retention_policy.days" },
  { types := ["resource.azurerm_network_watcher_flow_log"]
    attr := "enabled"
    parents := [""]
    values := ["true"]
    requirement := .required
    advice := "enabled" },
  { types := ["resource.azurerm_network_watcher_flow_log"]
    attr := "days"
    parents := ["retention_policy"]
    values := [""]
    requirement := .required
    advice := "retention_policy.days" }]

end PolicyRule

/-- The built-in tables of the policy checkers. -/
def PolicyConfig.builtIn : PolicyConfig where
  integrity := PolicyRule.integrity
  https := PolicyRule.https
  tls := PolicyRule.tls
  dnssec := PolicyRule.dnssec
  publicAddress := PolicyRule.publicAddress
  access := PolicyRule.access
  encryption := PolicyRule.encryption
  firewall := PolicyRule.firewall
  versioning := PolicyRule.versioning
  keywords := ["policy", "assume_role_policy", "inline_policy", "policy_document"]
  accessKeywords := [
    { types := [], keyword := "principal", value := "*" },
    { types := [], keyword := "action", value := "*" },
    { types := [], keyword := "resource", value := "*" }]
  authentication := PolicyRule.authentication
  keyManagement := PolicyRule.keyManagement
  naming := PolicyRule.naming
  network := PolicyRule.network
  permissions := PolicyRule.permissions
  replication := PolicyRule.replication
  threats := PolicyRule.threats
  passwordPolicy := PolicyRule.passwordPolicy
  logging := PolicyRule.logging
  authenticationKeywords := [
    { types := ["resource.aws_iam_group_policy", "resource.aws_iam_user_policy"], keyword := "aws:multifactorauthpresent", value := "true" }]
  memberResources := ["resource.google_project_iam_binding", "resource.google_project_iam_member",
    "resource.google_folder_iam_binding", "resource.google_folder_iam_member",
    "resource.google_organization_iam_binding", "resource.google_organization_iam_member"]
  attachable := ["aws_instance", "aws_eip", "aws_elb", "aws_lb", "aws_alb",
    "aws_cloudfront_distribution", "aws_api_gateway_domain_name", "aws_s3_bucket",
    "aws_elastic_beanstalk_environment", "aws_globalaccelerator_accelerator"]
  databaseFlags := [
    { name := "log_checkpoints", value := "on", required := true },
    { name := "log_connections", value := "on", required := true },
    { name := "log_disconnections", value := "on", required := true },
    { name := "log_lock_waits", value := "on", required := true },
    { name := "log_temp_files", value := "0", required := true },
    { name := "log_min_duration_statement", value := "-1", required := false }]

end InfraSmells
