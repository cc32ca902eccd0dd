import InfraSmells.Checker.Basic
import InfraSmells.Text.Compose
import InfraSmells.Tree.Traversal
import InfraSmells.Url

/-!
# Smells of values

Checks of attributes and variables by their names and values: addresses without encryption, weak
algorithms, secrets written into the script, administrators by default, and services that listen
everywhere. Names are compared without surrounding blanks, in lower case and in composed form.
-/

namespace InfraSmells.Security

/-- The form in which the name of a pair is compared. -/
def keyName (p : Pair) : String :=
  Text.compose (Text.lower (Text.trim p.name))

/-- Is the text a host name: words of letters and digits with single marks between them, the last
one of two to five letters behind a dot? -/
def isHostName (cs : List Char) : Bool :=
  let isSeparator (c : Char) : Bool := c == '_' || c == '-' || c == '.'
  let isPart (c : Char) : Bool := ('a' ≤ c && c ≤ 'z') || Text.isDigit c
  let unified := cs.map fun c => if isSeparator c then '.' else c
  let words := Text.splitChars '.' unified
  let last := words.getLast?.getD []
  2 ≤ words.length && words.all (fun w => !w.isEmpty && w.all isPart) &&
    (cs.reverse.drop last.length).head? == some '.' &&
    2 ≤ last.length && last.length ≤ 5 && last.all fun c => 'a' ≤ c && c ≤ 'z'

/-- Is the text a web address, with or without a scheme: a host name, possibly a port, possibly a
path of one line? -/
def isWebAddress (s : String) : Bool :=
  let cs := s.toList
  let rest := (Text.afterStart "http://".toList cs <|> Text.afterStart "https://".toList cs).getD cs
  let authority := rest.takeWhile (· != '/')
  let (host, port) := (Text.cutAt [':'] authority).getD (authority, ['0'])
  isHostName host && 1 ≤ port.length && port.length ≤ 5 && port.all Text.isDigit &&
    !(rest.dropWhile (· != '/')).contains '\n'

/-- The host of a web address. -/
def webHost (s : String) : String :=
  let rest := (Text.after? "://" s).getD s
  String.ofList (rest.toList.takeWhile fun c => !"/:?#".toList.contains c)

/-- Is the text an address without encryption, of a host that is not excepted? -/
def isPlainAddress (config : Config) (s : String) : Bool :=
  if isWebAddress s && (Text.contains s "http" || Text.contains s "www") &&
      !Text.contains s "https" then
    !config.allowsPlainHost (webHost s)
  else
    match Url.parse? s with
    | some u => u.scheme == "http" && !config.allowsPlainHost u.hostname
    | none => false

/-- Does the text name a weak algorithm? An excepted word in it makes it harmless. -/
def namesWeakAlgorithm (config : Config) (s : String) : Bool :=
  config.security.weakAlgorithms.any (Text.contains s) &&
    !config.security.weakExceptions.any (Text.contains s)

/-- The hashes among the values of entries. -/
def nestedHashes (entries : List (Expr × Expr)) : List (List (Expr × Expr)) :=
  entries.filterMap fun (_, v) =>
    match v with
    | .hash _ inner => some inner
    | _ => none

/-- The depth of hashes nested through their values. -/
def hashDepth : Expr → Nat
  | .hash _ entries => depthOf entries + 1
  | _ => 0
where
  /-- The greatest depth of the values. -/
  depthOf : List (Expr × Expr) → Nat
    | [] => 0
    | (_, v) :: rest => max (hashDepth v) (depthOf rest)

/-- The values of the entries of a level of hashes, then those of the hashes among them, down to
`depth` levels. -/
def entryValues : Nat → List (List (Expr × Expr)) → List Expr
  | 0, _ => []
  | depth + 1, level =>
    level.flatMap (·.map Prod.snd) ++ entryValues depth (level.flatMap nestedHashes)

/-- Reports the parts of a value in which a string satisfies `p`: entries of a hash at any depth and
items of an array for themselves, any other value through its pair. -/
def matchingValues (p : Pair) (path code : String) (pred : String → Bool) : List Finding :=
  let report (e : Expr) : Option Finding :=
    if e.matchesString pred then some (Finding.of code (.expr e) path) else none
  match p.value with
  | .hash s entries => (entryValues (hashDepth (.hash s entries)) [entries]).filterMap report
  | .array _ items => items.filterMap report
  | v => if v.matchesString pred then [Finding.of code (.pair p) path] else []

/-- Reports addresses without encryption. -/
def insecureUrl (config : Config) (_ : Context) (e : Element) (path : String) : List Finding :=
  match e with
  | .pair p => matchingValues p path "sec_https" (isPlainAddress config)
  | _ => []

/-- Reports weak algorithms. -/
def weakCrypto (config : Config) (_ : Context) (e : Element) (path : String) : List Finding :=
  match e with
  | .pair p => matchingValues p path "sec_weak_crypt" (namesWeakAlgorithm config)
  | _ => []

/-- The codes for a value whose name matches a keyword of this kind. -/
def secretCodes (kind : KeywordKind) (value : Expr) : List String :=
  match kind with
  | .password =>
    if value.string? = some "" then ["sec_empty_pass"] else ["sec_hard_secr", "sec_hard_pass"]
  | .user => ["sec_hard_secr", "sec_hard_user"]
  | .secret | .role => ["sec_hard_secr"]

/-- The codes for a value that is written under a name. -/
def secretsOf (config : Config) (name value : Expr) : List String :=
  let keyword :=
    if name.matchesString config.allowsSecret || value.containsReference then none
    else config.secretKeywords.find? fun k => name.matchesString k.isIn
  let isKeyFile (s : String) : Bool := Text.contains s "/id_rsa"
  let keyFiles := config.security.sshDirectories.filter fun dir =>
    name.matchesString (Text.contains · (Text.lower dir)) && value.matchesString isKeyFile
  keyword.elim [] (fun k => secretCodes k.kind value) ++ keyFiles.map fun _ => "sec_hard_secr"

/-- Reports passwords, secrets, users and private keys that are written into the script. -/
def hardcodedSecret (config : Config) (_ : Context) (e : Element) (path : String) : List Finding :=
  match e with
  | .pair p =>
    let codes := match p.value with
      | .hash _ entries => entries.flatMap fun (k, v) => secretsOf config k v
      | v => secretsOf config (.string .nowhere (keyName p)) v
    codes.map fun code => Finding.of code e path
  | _ => []

/-- Reports roles and users that are given to an administrator. -/
def adminByDefault (config : Config) (_ : Context) (e : Element) (path : String) : List Finding :=
  match e with
  | .pair p =>
    let namesAdmin := config.security.admins.any fun a => p.value.matchesString (Text.contains · a)
    if config.adminKeywords.any (·.isIn (keyName p)) && !p.value.containsReference && namesAdmin then
      [Finding.of "sec_def_admin" e path]
    else []
  | _ => []

/-- Does the text begin with four zeros, one character between each two? -/
def isZeros : List Char → Bool
  | '0' :: a :: '0' :: b :: '0' :: c :: '0' :: _ => a != '\n' && b != '\n' && c != '\n'
  | _ => false

/-- Does the text begin with the address of every network, possibly behind a scheme? -/
def isAnyAddress (s : String) : Bool :=
  let cs := Text.characters s
  isZeros cs || ["http://", "https://"].any fun scheme =>
    (Text.afterStart scheme.toList cs).any isZeros

/-- Reports services that listen on every address. -/
def invalidBind (config : Config) (_ : Context) (e : Element) (path : String) : List Finding :=
  match e with
  | .pair p =>
    let name := keyName p
    let binds := config.isBindCommand name
    let isOn := match p.value with
      | .boolean _ b => b
      | _ => false
    if p.value.matchesString isAnyAddress || (binds && isOn) ||
        ((name == "ip" || binds) && p.value.matchesString fun s => s == "*" || s == "::") then
      [Finding.of "sec_invalid_bind" e path]
    else []
  | _ => []

end InfraSmells.Security
