import InfraSmells.Policy.Documents
import InfraSmells.Policy.References
import InfraSmells.Policy.Rules

/-!
# Access and permissions

Checks of who may do what: policy documents that grant too much, roles and members that stand for
everybody, and accounts that come with a service.
-/

namespace InfraSmells.Policy

/-- The code of access that is open to too many. -/
def accessCode : String := "sec_access_control"

/-- Does the attribute hold a document that allows what a keyword rule describes? -/
def isOpenDocument (config : Config) (p : Pair) : Bool :=
  (documentText? config p).any fun doc =>
    allows doc && config.policy.accessKeywords.any (matchesKeyword · doc)

/-- Is the name `base`, or an item of it such as `base[0]`? -/
def isItemOf (base name : String) : Bool :=
  match Text.afterStart base.toList name.toList with
  | some [] => true
  | some ('[' :: rest) =>
    let digits := rest.takeWhile Text.isDigit
    !digits.isEmpty && rest.drop digits.length == [']']
  | _ => false

/-- Does the text hold `needle` behind some character of the same line? -/
def hasBehind (needle : String) (s : String) : Bool :=
  (endsOf s.toList).any fun
    | c :: cs => c != '\n' && Text.beginsWith needle.toList cs
    | [] => false

/-- Is the account the one that comes with a virtual machine? -/
def isMachineAccount (s : String) : Bool :=
  hasBehind "-compute@developer.gserviceaccount.com" s

/-- Is the member an account that comes with a service, or a single user? -/
def isDefaultMember (s : String) : Bool :=
  isMachineAccount s || hasBehind "@appspot.gserviceaccount.com" s || Text.contains s "user:"

/-- Does an attribute of the resource, in a block of this name, open it to too many? -/
def isOpenAttribute (r : Resource) (p : Pair) (parent : String) : Bool :=
  let lists (s : String) : Bool := (literals p.value).contains s
  (r.type == "resource.azurerm_role_definition" && parent == "permissions" &&
    isItemOf "actions" p.name && lists "*") ||
  (((r.type == "resource.google_storage_bucket_iam_binding" && isItemOf "members" p.name) ||
    (r.type == "resource.google_storage_bucket_iam_member" && p.name == "member")) &&
    (lists "allusers" || lists "allauthenticatedusers")) ||
  (r.type == "resource.google_compute_instance" && parent == "service_account" &&
    p.name == "email" && isMachineAccount p.value.literal)

/-- The findings about the method of an interface that needs no authorization. -/
def openMethod (r : Resource) (path : String) : List Finding :=
  let missing (name : String) : List Finding :=
    [(Finding.of accessCode (.resource r) path).suggest (requiredAdvice name)]
  match attribute? r "http_method", attribute? r "authorization" with
  | some _, none => missing "authorization"
  | some method, some auth =>
    if method.value.literal == "get" && auth.value.literal == "none" then
      match attribute? r "api_key_required" with
      | none => missing "api_key_required"
      | some key =>
        if key.value.literal == "true" then [] else [Finding.of accessCode (.pair key) path]
    else []
  | none, _ => []

/-- The findings about a repository that is not private. Where its visibility is written, the table
of rules judges it. -/
def openRepository (r : Resource) (path : String) : List Finding :=
  match attribute? r "visibility", attribute? r "private" with
  | some _, _ => []
  | none, none =>
    [(Finding.of accessCode (.resource r) path).suggest
      "check for a required attribute with name 'visibility' or 'private'"]
  | none, some p =>
    if p.value.literal == "true" then [] else [Finding.of accessCode (.pair p) path]

/-- Reports access that is open to too many. -/
def accessControl (config : Config) (_ : Context) (e : Element) (path : String) : List Finding :=
  match e with
  | .resource r =>
    let special := match r.type with
      | "resource.aws_api_gateway_method" => openMethod r path
      | "resource.github_repository" => openRepository r path
      | _ => []
    let isOpen (x : Pair × String) : Bool :=
      isOpenDocument config x.1 ||
        (!x.1.value.isAbsent && !x.1.hasVariable && isOpenAttribute r x.1 x.2)
    evaluate accessCode config.policy.access r path ++ special ++
      ((attributesOf r).filter isOpen).map fun (p, _) => Finding.of accessCode (.pair p) path
  | _ => []

/-- Reports permissions that are given to a user, or to an account that comes with a service. -/
def permissions (config : Config) (c : Context) (r : Resource) (path : String) : List Finding :=
  let code := "sec_permission_iam_policies"
  let report (p : Pair) : Finding := Finding.of code (.pair p) path
  let isUser (p : Pair) : Bool := (referencedResource? c "aws_iam_user" p.value).isSome
  let users :=
    if r.type == "resource.aws_iam_user_policy" ||
        r.type == "resource.aws_iam_user_policy_attachment" then
      ((valued? (attribute? r "user")).filter isUser).toList
    else []
  let isOpenMember (p : Pair) : Bool :=
    !p.value.isAbsent && (p.name == "member" || p.name == "members") &&
      (literals p.value).any isDefaultMember
  let members :=
    if config.policy.memberResources.contains r.type then
      ((attributesOf r).map Prod.fst).filter isOpenMember
    else []
  (users ++ members).map report

end InfraSmells.Policy
