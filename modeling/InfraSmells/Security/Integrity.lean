import InfraSmells.Files.Path
import InfraSmells.Security.Values

/-!
# Downloads without verification

A resource that downloads an archive should verify it. Either an attribute of the resource names a
checksum, or a later resource of the same block mentions the downloaded file together with the word
for a checksum.
-/

namespace InfraSmells.Security

/-- A download that nothing has verified so far. -/
structure Download where
  /-- The name of the downloaded file. -/
  file : String
  finding : Finding

/-- Does an attribute of the resource name a checksum? -/
def hasChecksum (config : Config) (r : Resource) : Bool :=
  r.attributes.any fun a =>
    config.security.checksums.any fun word => Text.contains (keyName a) (Text.lower word)

/-- The download of a resource, in its name or else in its first attribute that holds one. -/
def download? (config : Config) (path : String) (r : Resource) : Option Download :=
  let code := "sec_no_int_check"
  let byName := r.literalName?.bind fun name =>
    if config.isDownload name then
      some ⟨Path.base name, Finding.of code (.resource r) path⟩
    else none
  let byValue := r.attributes.findSome? fun a =>
    let value := Text.lower (Text.trim a.value.text)
    if config.isDownload value then
      some ⟨Path.base value, Finding.about code (.resource r) path (Element.pair a).summary⟩
    else none
  if hasChecksum config r then none else byName <|> byValue

/-- The string literals of a resource. -/
def resourceStrings (r : Resource) : List String :=
  r.name.strings ++ r.attributes.flatMap fun a => a.value.strings

/-- Does one of the texts mention a file and a word for a checksum? -/
def mentionsChecksum (config : Config) (texts : List String) (file : String) : Bool :=
  texts.any fun t =>
    Text.contains (Text.lower t) (Text.lower file) &&
      config.security.checksums.any fun word => Text.contains (Text.lower t) (Text.lower word)

/-- The downloads of the resources that no later resource verifies, `pending` being those before. -/
def unverified (config : Config) (path : String) (pending : List Download) :
    List Resource → List Download
  | [] => pending
  | r :: rs =>
    match download? config path r with
    | some d => unverified config path (pending ++ [d]) rs
    | none =>
      let texts := resourceStrings r
      unverified config path (pending.filter fun d => !mentionsChecksum config texts d.file) rs

/-- Reports downloads that are not verified. -/
def integrityCheck (config : Config) (_ : Context) (e : Element) (path : String) : List Finding :=
  match e with
  | .block b => (unverified config path [] b.resources).map (·.finding)
  | _ => []

/-- Does the artifact name a checksum, among its options or in the query of its source? -/
def artifactHasChecksum (entries : List (Expr × Expr)) : Bool :=
  entries.any fun (k, v) =>
    match k.string?, v with
    | some "options", .hash _ options => (Expr.lookup "checksum" options).isSome
    | some "source", .string _ s => (Url.parse? s).any fun u => u.queryValue "checksum" != ""
    | _, _ => false

/-- Reports artifacts that are fetched without a checksum. -/
def artifactChecksum (_ : Context) (e : Element) (path : String) : List Finding :=
  match e with
  | .pair p =>
    match p.value with
    | .hash _ entries =>
      if keyName p == "artifact" && !artifactHasChecksum entries then
        [Finding.of "sec_no_int_check" e path]
      else []
    | _ => []
  | _ => []

end InfraSmells.Security
