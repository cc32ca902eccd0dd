import InfraSmells.Proofs.Config.Keywords
import InfraSmells.Proofs.Security.Secrets

/-!
# Secrets in hashes and in dynamic values

The entries of a hash are judged like the pair around them, each by its key and its value
(`Security.codes_hash`). The name of a pair is brought to a normal form before, a key is taken as it is
written: so a key is judged like the name whose normal form it is, and in capitals too, if keywords and
name have no others and no private key is looked for (`Security.entries_alike`). A value that refers to a
variable is judged by no keyword; only the path of a private key in it is reported
(`Security.dynamic_values`).
-/

namespace InfraSmells.Security

variable {config : Config} {c : Context} {p : Pair} {path : String} {name value : Expr}

/-! ## Entries -/

/-- The codes of the secrets that are reported about a pair. -/
def secretCodesAt (config : Config) (c : Context) (p : Pair) (path : String) : List String :=
  (hardcodedSecret config c (.pair p) path).map (·.code)

/-- A pair without a hash has the codes of its value under its name. -/
theorem codes_pair (hvalue : ∀ span entries, p.value ≠ .hash span entries) :
    secretCodesAt config c p path = secretsOf config (.string .nowhere (keyName p)) p.value := by
  rw [secretCodesAt, hardcodedSecret_pair config c path hvalue, List.map_map]
  exact List.map_id _

/-- A pair with a hash has the codes of its entries. -/
theorem codes_hash {span : Span} {entries : List (Expr × Expr)} (hvalue : p.value = .hash span entries) :
    secretCodesAt config c p path = entries.flatMap fun (k, v) => secretsOf config k v := by
  rw [secretCodesAt, hardcodedSecret]
  simp only [hvalue]
  rw [List.map_map]
  exact List.map_id _

/-- All words that name secrets are written in ASCII without capitals. -/
def PlainWords (s : SecurityConfig) : Prop :=
  ∀ w ∈ s.passwords ++ s.secrets ++ s.users, w.toList.all Text.isSmall = true

/-- Words without capitals name a text in capitals if they name the text. -/
theorem namedBy_upper {words : List String} {s : String} (span : Span)
    (hwords : ∀ w ∈ words, w.toList.all Text.isSmall = true)
    (hs : s.toList.all Text.isSmall = true) :
    namedBy words (.string span (Text.upper s)) = namedBy words (.string span s) := by
  rw [namedBy, namedBy, Bool.eq_iff_iff, List.any_eq_true, List.any_eq_true]
  refine exists_congr fun w => and_congr_right fun hw => ?_
  have hisIn : (Keyword.mk w .secret true).isIn (Text.upper s) =
      (Keyword.mk w .secret true).isIn s := Keyword.isIn_upper rfl (hwords w hw) hs
  rw [Expr.matchesString, Expr.matchesString, hisIn]

/-- Names are excepted in any letter case. -/
theorem allowsSecret_upper (config : Config) {s : String} (hs : s.toList.all Text.isSmall = true) :
    config.allowsSecret (Text.upper s) = config.allowsSecret s := by
  rw [Config.allowsSecret, Config.allowsSecret, Config.among, Config.among, Text.lower_upper hs]

/-- Only the path of a private key is reported as one. -/
theorem keyFileCodes_of_not (s : SecurityConfig) (name : Expr)
    (h : value.matchesString (Text.contains · "/id_rsa") = false) : keyFileCodes s name value = [] := by
  rw [keyFileCodes, if_neg (Bool.eq_false_iff.1 h)]

/-- A value that is no path of a private key has the same codes under a name and under its capitals. -/
theorem secretsOf_upper {s : String} (span : Span) (hwords : PlainWords config.security)
    (hs : s.toList.all Text.isSmall = true)
    (hkey : value.matchesString (Text.contains · "/id_rsa") = false) :
    secretsOf config (.string span (Text.upper s)) value = secretsOf config (.string span s) value := by
  have hlists {words : List String} (h : words ⊆ config.security.passwords ++
      config.security.secrets ++ config.security.users) :
      namedBy words (.string span (Text.upper s)) = namedBy words (.string span s) :=
    namedBy_upper span (fun w hw => hwords w (h hw)) hs
  have hpasswords := hlists fun w hw => List.mem_append_left _ (List.mem_append_left _ hw)
  have hsecrets := hlists fun w hw => List.mem_append_left _ (List.mem_append_right _ hw)
  have husers := hlists fun w hw => List.mem_append_right _ hw
  have hcodes : codesByList config.security (.string span (Text.upper s)) value =
      codesByList config.security (.string span s) value := by
    rw [codesByList, codesByList, hpasswords, hsecrets, husers]
  rw [secretsOf_eq, secretsOf_eq, Expr.matchesString, Expr.matchesString, allowsSecret_upper config hs,
    hcodes, keyFileCodes_of_not _ _ hkey, keyFileCodes_of_not _ _ hkey]

/-- A value that is no hash has the codes of an entry of a hash with this value whose key is the normal
form of the name. The key in capitals has them, too, if the words and the key are written in ASCII
without capitals and the value is no path of a private key. -/
theorem entries_alike (config : Config) (c : Context) {p q : Pair} (path : String)
    {span keySpan : Span} {key : String} (hvalue : ∀ span entries, p.value ≠ .hash span entries)
    (hentry : q.value = .hash span [(.string keySpan key, p.value)]) :
    (key = keyName p → secretCodesAt config c q path = secretCodesAt config c p path) ∧
      (key = Text.upper (keyName p) → PlainWords config.security →
        (keyName p).toList.all Text.isSmall = true →
        p.value.matchesString (Text.contains · "/id_rsa") = false →
        secretCodesAt config c q path = secretCodesAt config c p path) := by
  have hcodes : secretCodesAt config c q path = secretsOf config (.string .nowhere key) p.value := by
    rw [codes_hash hentry, List.flatMap_singleton]
    rfl
  rw [hcodes, codes_pair hvalue]
  refine ⟨fun hkey => by rw [hkey], fun hkey hwords hname hfile => ?_⟩
  rw [hkey]
  exact secretsOf_upper .nowhere hwords hname hfile

/-- A configuration with one password, and with the names under which private keys are looked for. -/
def onePassword : Config :=
  { (default : Config) with
    security := { passwords := ["password"], sshDirectories := ["source"] } }

/-- A pair with a literal value. -/
def literalPair (name value : String) : Pair :=
  ⟨.nowhere, .attr, name, .string .nowhere value, false, []⟩

/-- A pair whose value is a hash with one entry. -/
def entryPair (key value : String) : Pair :=
  ⟨.nowhere, .attr, "login", .hash .nowhere [(.string .nowhere key, .string .nowhere value)], false, []⟩

/-- The name ` Password ` and the keys `password` and `PASSWORD` have the same codes. -/
theorem entries_alike_password :
    let p := literalPair " Password " "hunter2"
    secretCodesAt onePassword default p "a.tf" = ["sec_hard_secr", "sec_hard_pass"] ∧
      secretCodesAt onePassword default (entryPair "password" "hunter2") "a.tf" =
        secretCodesAt onePassword default p "a.tf" ∧
      secretCodesAt onePassword default (entryPair "PASSWORD" "hunter2") "a.tf" =
        secretCodesAt onePassword default p "a.tf" := by
  intro p
  have hvalue : ∀ span entries, p.value ≠ .hash span entries := fun _ _ h => nomatch h
  have hname : "password" = keyName p := by decide +kernel
  have hcapitals : "PASSWORD" = Text.upper (keyName p) := by decide +kernel
  have hwords : PlainWords onePassword.security := by
    rw [PlainWords]
    decide +kernel
  have hsmall : (keyName p).toList.all Text.isSmall = true := by decide +kernel
  have hfile : p.value.matchesString (Text.contains · "/id_rsa") = false := by decide +kernel
  exact ⟨by decide +kernel,
    (entries_alike onePassword default (q := entryPair "password" "hunter2") "a.tf" hvalue rfl).1 hname,
    (entries_alike onePassword default (q := entryPair "PASSWORD" "hunter2") "a.tf" hvalue rfl).2
      hcapitals hwords hsmall hfile⟩

/-- The names `Password` and ` password ` are those of a password, the same keys are not. -/
theorem entries_unlike :
    (secretCodesAt onePassword default (literalPair "Password" "hunter2") "a.tf" =
        ["sec_hard_secr", "sec_hard_pass"] ∧
      secretCodesAt onePassword default (entryPair "Password" "hunter2") "a.tf" = []) ∧
    (secretCodesAt onePassword default (literalPair " password " "hunter2") "a.tf" =
        ["sec_hard_secr", "sec_hard_pass"] ∧
      secretCodesAt onePassword default (entryPair " password " "hunter2") "a.tf" = []) := by
  decide +kernel

/-! ## Dynamic values -/

/-- A value that refers to a variable has no code of a keyword. -/
theorem secretsOf_dynamic (config : Config) (name : Expr) (h : value.containsReference = true) :
    secretsOf config name value = keyFileCodes config.security name value := by
  rw [secretsOf_eq, h, Bool.or_true, if_pos rfl, List.nil_append]

/-- A private key is reported for its path under a name in which there is a directory of such keys. -/
theorem keyFileCodes_eq_nil_iff {s : SecurityConfig} {span : Span} {n : String} :
    keyFileCodes s (.string span n) value = [] ↔
      value.matchesString (Text.contains · "/id_rsa") = false ∨
        ∀ dir ∈ s.sshDirectories, Text.contains n (Text.lower dir) = false := by
  rw [keyFileCodes]
  cases value.matchesString (Text.contains · "/id_rsa") with
  | false => simp
  | true => simp [Expr.matchesString, List.filter_eq_nil_iff]

/-- A value that refers to a variable and is no hash is never that of an administrator. What is reported
as a secret is the path of a private key in it, under a name in which there is a directory of such keys,
and nothing else. -/
theorem dynamic_values (config : Config) (c : Context) {p : Pair} (path : String)
    (hvalue : ∀ span entries, p.value ≠ .hash span entries)
    (hdynamic : p.value.containsReference = true) :
    let name := Expr.string .nowhere (keyName p)
    adminByDefault config c (.pair p) path = [] ∧
      hardcodedSecret config c (.pair p) path =
        (keyFileCodes config.security name p.value).map (fun code => Finding.of code (.pair p) path) ∧
      (hardcodedSecret config c (.pair p) path = [] ↔
        p.value.matchesString (Text.contains · "/id_rsa") = false ∨
          ∀ dir ∈ config.security.sshDirectories,
            Text.contains (keyName p) (Text.lower dir) = false) := by
  intro name
  have hsecrets : hardcodedSecret config c (.pair p) path =
      (keyFileCodes config.security name p.value).map fun code => Finding.of code (.pair p) path := by
    rw [hardcodedSecret_pair config c path hvalue, secretsOf_dynamic config name hdynamic]
  refine ⟨?_, hsecrets, ?_⟩
  · rw [adminByDefault]
    simp [hdynamic]
  · rw [hsecrets, List.map_eq_nil_iff]
    exact keyFileCodes_eq_nil_iff

/-- The path of a private key in the directory of a variable. -/
def keyOfVariable (name : String) : Pair :=
  ⟨.nowhere, .attr, name,
    .binary .nowhere "+" (.reference .nowhere "var.home") (.string .nowhere "/.ssh/id_rsa"), true, []⟩

/-- Under the name of a password the path is passed over. -/
theorem dynamic_values_password :
    let p := keyOfVariable "password"
    p.value.containsReference = true ∧ adminByDefault onePassword default (.pair p) "a.tf" = [] ∧
      hardcodedSecret onePassword default (.pair p) "a.tf" = [] := by
  intro p
  have hvalue : ∀ span entries, p.value ≠ .hash span entries := fun _ _ h => nomatch h
  have hdynamic : p.value.containsReference = true := rfl
  obtain ⟨hadmin, -, hsecrets⟩ := dynamic_values onePassword default "a.tf" hvalue hdynamic
  exact ⟨hdynamic, hadmin, hsecrets.2 (.inr (by decide +kernel))⟩

/-- Under the name `source` the path is reported, although it refers to a variable. -/
theorem dynamic_key_reported :
    (keyOfVariable "source").value.containsReference = true ∧
      secretCodesAt onePassword default (keyOfVariable "source") "a.tf" = ["sec_hard_secr"] := by
  decide +kernel

end InfraSmells.Security
