import InfraSmells.Security.Comments
import InfraSmells.Security.Images
import InfraSmells.Security.Integrity

/-!
# The security checkers

The checkers of security smells, in the order in which they are registered.
-/

namespace InfraSmells.Security

/-- A registration of the security family, for a checker that never breaks down. -/
def register (name : String) (codes : List String)
    (check : Config → Context → Element → String → List Finding)
    (technology : Technology := .any) : Registration where
  name := name
  family := .security
  technology := technology
  codes := codes
  check config c e path := some (check config c e path)

/-- The checkers of images that an orchestrator has. -/
def imageCheckers (t : Technology) : List Registration := [
  register (t.name ++ "-non-official-image") ["sec_non_official_image"] containerImage t,
  register (t.name ++ "-image-tags")
    ["sec_no_image_tag", "sec_unstable_tag", "sec_image_integrity"] imageTags t,
  register (t.name ++ "-deprecated-image") ["sec_depr_off_imgs"] deprecatedImage t]

/-- The security checkers. -/
def checkers : List Registration := [
  register "insecure-url" ["sec_https"] insecureUrl,
  register "weak-crypto" ["sec_weak_crypt"] weakCrypto,
  register "hardcoded-secret"
    ["sec_hard_secr", "sec_hard_pass", "sec_hard_user", "sec_empty_pass"] hardcodedSecret,
  register "admin-by-default" ["sec_def_admin"] adminByDefault,
  register "invalid-bind" ["sec_invalid_bind"] invalidBind,
  register "missing-integrity-check" ["sec_no_int_check"] integrityCheck,
  register "nomad-artifact-checksum" ["sec_no_int_check"] fun _ => artifactChecksum,
  register "suspicious-comment" ["sec_susp_comm"] suspiciousComment,
  register "no-default-switch" ["sec_no_default_switch"] fun _ => noDefaultSwitch,
  register "mounted-docker-socket" ["sec_mounted_docker_socket"] fun _ => mountedSocket,
  register "privileged-container" ["sec_privileged_containers"] fun _ => privilegedContainer,
  register "docker-non-official-image" ["sec_non_official_image"] baseImage .docker] ++
  imageCheckers .nomad ++ imageCheckers .swarm

end InfraSmells.Security
