import InfraSmells.Security.Values

/-!
# Smells of containers

Checks of container settings: mounted control sockets, privileged containers, and images that are
not official, not maintained or not pinned. `Image.parse` takes a reference to an image apart.
-/

namespace InfraSmells.Security

/-- Is the item a volume that mounts the control socket? -/
def mountsSocket : Expr → Bool
  | .string _ s => Text.startsWith (Text.before ":" s) "/var/run/docker.sock"
  | _ => false

/-- The first volume of a list that mounts the control socket. -/
def socketVolume? : Expr → Option Expr
  | .array _ items => items.find? mountsSocket
  | _ => none

/-- Reports a container that mounts the control socket. -/
def mountedSocket (_ : Context) (e : Element) (path : String) : List Finding :=
  match e with
  | .pair p =>
    let volume := match keyName p, p.value with
      | "volumes", v => socketVolume? v
      | "config", .hash _ entries => entries.findSome? fun ((k, v) : Expr × Expr) =>
        if k.string? == some "volumes" then socketVolume? v else none
      | _, _ => none
    volume.toList.map fun v => Finding.of "sec_mounted_docker_socket" (.expr v) path
  | _ => []

/-- The texts that stand for no. -/
def falsyTexts : List String := ["", "false", "no", "0"]

/-- Does the value stand for yes? -/
def isTruthy : Expr → Bool
  | .boolean _ b => b
  | .string _ s => !falsyTexts.contains (Text.lower (Text.trim s))
  | .number _ x => !x.isZero
  | _ => false

/-- Reports a container that runs in privileged mode. -/
def privilegedContainer (_ : Context) (e : Element) (path : String) : List Finding :=
  match e with
  | .pair p =>
    match keyName p, p.value with
    | "privileged", .boolean _ true => [Finding.of "sec_privileged_containers" e path]
    | "config", .hash _ entries =>
      let key := entries.find? fun ((k, v) : Expr × Expr) => k.string? == some "privileged" && isTruthy v
      key.toList.map fun ((k, _) : Expr × Expr) => Finding.of "sec_privileged_containers" (.expr k) path
    | _, _ => []
  | _ => []

/-- A reference to an image, taken apart. -/
structure Image where
  name : String
  tag : String
  digest : String
  deriving DecidableEq, Repr, Inhabited

/-- Takes a reference to an image apart. A colon before the last slash belongs to a port, not to a
tag. -/
def Image.parse (ref : String) : Image :=
  let cs := ref.toList
  let (named, digest) := match Text.cutAt ['@'] cs, Url.cutLast '@' cs with
    | some (before, _), some (_, after) => (before, after)
    | _, _ => (cs, [])
  match Url.cutLast ':' named with
  | some (name, tag) =>
    if tag.contains '/' then ⟨String.ofList named, "", String.ofList digest⟩
    else ⟨String.ofList name, String.ofList tag, String.ofList digest⟩
  | none => ⟨String.ofList named, "", String.ofList digest⟩

/-- The image that a pair names, and the element to report. -/
def imageOf? (p : Pair) : Option (String × Element) :=
  match keyName p, p.value with
  | "image", .string _ s => some (s, .pair p)
  | "config", .hash _ entries => do
    let v ← Expr.lookup "image" entries
    guard (!v.containsReference)
    return (v.text, .expr v)
  | _, _ => none

/-- The beginnings of a name that lead to the library of official images. -/
def libraryPaths : List String :=
  ["", "docker.io/library/", "library/", "registry.hub.docker.com/library/"]

/-- Does the name, without the path of the library, satisfy `p`? -/
def inLibrary (p : String → Bool) (name : String) : Bool :=
  libraryPaths.any fun start => (Text.dropStart? start name).any p

/-- Is the image an official one, maintained or not? -/
def isLibraryImage (config : Config) (name : String) : Bool :=
  config.isOfficialImage name || config.isDeprecatedImage name

/-- Reports services that use an image which is not official. -/
def containerImage (config : Config) (_ : Context) (e : Element) (path : String) : List Finding :=
  match e with
  | .pair p =>
    match imageOf? p with
    | some (ref, shown) =>
      let name := (Image.parse ref).name
      if name == "" || inLibrary (isLibraryImage config) name then []
      else [Finding.of "sec_non_official_image" shown path]
    | none => []
  | _ => []

/-- Is the digest one of SHA-256 that lacks digits or has too many? -/
def isTruncated (digest : String) : Bool :=
  digest != "" && Text.before ":" digest == "sha256" &&
    Text.byteLength ((Text.after? ":" digest).getD "") != 64

/-- The codes for a reference to an image that is not pinned. -/
def pinningCodes (config : Config) (image : Image) : List String :=
  let tag := Text.lower image.tag
  let moves := config.security.dangerousTags.any fun t => Text.contains tag (Text.lower t)
  (if isTruncated image.digest then ["sec_image_integrity"] else []) ++
    (if image.tag != "" && image.digest == "" then ["sec_image_integrity"] else []) ++
    (if image.tag != "" && moves then ["sec_unstable_tag"] else []) ++
    (if image.tag == "" && image.digest == "" then ["sec_no_image_tag"] else [])

/-- Reports services whose image is not pinned. -/
def imageTags (config : Config) (_ : Context) (e : Element) (path : String) : List Finding :=
  match e with
  | .pair p =>
    match imageOf? p with
    | some (ref, shown) =>
      if ref == "" then []
      else (pinningCodes config (Image.parse ref)).map fun code => Finding.of code shown path
    | none => []
  | _ => []

/-- Reports services that use an official image which is maintained no more. -/
def deprecatedImage (config : Config) (_ : Context) (e : Element) (path : String) : List Finding :=
  match e with
  | .pair p =>
    match imageOf? p with
    | some (ref, shown) =>
      let name := (Image.parse ref).name
      if name != "" && inLibrary config.isDeprecatedImage name then
        [Finding.of "sec_depr_off_imgs" shown path]
      else []
    | none => []
  | _ => []

/-- Reports build stages whose base image, after which their block is named, is not official. -/
def baseImage (config : Config) (_ : Context) (e : Element) (path : String) : List Finding :=
  match e with
  | .block b =>
    if b.name == "" || Text.contains b.name "Dockerfile" ||
        isLibraryImage config (Text.before ":" b.name) then []
    else [Finding.of "sec_non_official_image" e path]
  | _ => []

end InfraSmells.Security
