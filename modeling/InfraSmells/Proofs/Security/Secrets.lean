import InfraSmells.Security.Values

/-!
# Secrets and the lists that name them

What a pair is reported for follows from the first of the lists of passwords, secrets and users that
has a word of its name (`secrets_by_precedence`). Which word this is, and where it stands in its list,
does not matter: keywords are searched list by list (`find?_secretKeywords`), and the codes depend on
nothing but the list (`secretsOf_eq`). Private keys are looked for apart from the keywords, but never in
an empty string (`keyFileCodes_of_empty`).
-/

namespace InfraSmells.Security

variable {config config' : Config} {name value : Expr} {path : String}

/-! ## The first list with a word of a name -/

/-- Is one of the words found in a name? -/
def namedBy (words : List String) (name : Expr) : Bool :=
  words.any fun w => name.matchesString (Keyword.mk w .secret true).isIn

/-- The codes that the first of the lists of passwords, secrets and users with a word of the name gives
to a value. -/
def codesByList (s : SecurityConfig) (name value : Expr) : List String :=
  if namedBy s.passwords name then
    if value.string? = some "" then ["sec_empty_pass"] else ["sec_hard_secr", "sec_hard_pass"]
  else if namedBy s.secrets name then ["sec_hard_secr"]
  else if namedBy s.users name then ["sec_hard_secr", "sec_hard_user"]
  else []

/-- One code for each directory of private keys in the name, if the value is the path of a key. -/
def keyFileCodes (s : SecurityConfig) (name value : Expr) : List String :=
  let dirs := s.sshDirectories.filter fun dir => name.matchesString (Text.contains · (Text.lower dir))
  if value.matchesString (Text.contains · "/id_rsa") then dirs.map fun _ => "sec_hard_secr" else []

/-- A list of keywords has a match if it has a word of the name, and the match is of its kind. -/
theorem find?_keywordsOf (kind : KeywordKind) (words : List String) (name : Expr) :
    ((Config.keywordsOf kind true words).find? fun k => name.matchesString k.isIn).map (·.kind) =
      if namedBy words name then some kind else none := by
  induction words with
  | nil => rfl
  | cons w words ih =>
    have hword : name.matchesString (Keyword.mk w kind true).isIn =
        name.matchesString (Keyword.mk w .secret true).isIn := rfl
    rw [Config.keywordsOf, List.map_cons, List.find?_cons, hword, namedBy, List.any_cons]
    cases name.matchesString (Keyword.mk w .secret true).isIn with
    | true => rfl
    | false => exact ih

/-- The first keyword that matches a name is of the first list with a word of the name. -/
theorem find?_secretKeywords (config : Config) (name : Expr) :
    (config.secretKeywords.find? fun k => name.matchesString k.isIn).map (·.kind) =
      if namedBy config.security.passwords name then some .password
      else if namedBy config.security.secrets name then some .secret
      else if namedBy config.security.users name then some .user
      else none := by
  rw [Config.secretKeywords, List.find?_append, List.find?_append, Option.map_or, Option.map_or,
    find?_keywordsOf, find?_keywordsOf, find?_keywordsOf]
  cases namedBy config.security.passwords name
  · cases namedBy config.security.secrets name <;> rfl
  · rfl

/-! ## Codes -/

/-- An excepted name and a value that refers to a variable have no keyword; all others have the codes of
their list. Private keys are reported apart from this. -/
theorem secretsOf_eq (config : Config) (name value : Expr) :
    secretsOf config name value =
      (if name.matchesString config.allowsSecret || value.containsReference then []
        else codesByList config.security name value) ++
      keyFileCodes config.security name value := by
  have hkeys : ((config.security.sshDirectories.filter fun dir =>
      name.matchesString (Text.contains · (Text.lower dir)) &&
        value.matchesString (Text.contains · "/id_rsa")).map fun _ => "sec_hard_secr") =
      keyFileCodes config.security name value := by
    unfold keyFileCodes
    cases value.matchesString (Text.contains · "/id_rsa") <;> simp
  have hlist : (config.secretKeywords.find? fun k => name.matchesString k.isIn).elim []
      (fun k => secretCodes k.kind value) = codesByList config.security name value := by
    -- Of the keyword that was found only its kind is used.
    have hkind (k? : Option Keyword) : k?.elim [] (fun k => secretCodes k.kind value) =
        (k?.map (·.kind)).elim [] fun kind => secretCodes kind value := by cases k? <;> rfl
    rw [hkind, find?_secretKeywords]
    unfold codesByList
    cases namedBy config.security.passwords name
    · cases namedBy config.security.secrets name
      · cases namedBy config.security.users name <;> rfl
      · rfl
    · rfl
  unfold secretsOf
  dsimp only
  rw [hkeys]
  congr 1
  split
  · rfl
  · exact hlist

/-- The empty string is no path of a key. -/
theorem keyFileCodes_of_empty {s : SecurityConfig} (h : value.string? = some "") :
    keyFileCodes s name value = [] := by
  have hempty : Text.contains "" "/id_rsa" = false := by decide +kernel
  have hvalue : value.matchesString (Text.contains · "/id_rsa") = false := by
    cases value with
    | string _ v =>
      obtain rfl : v = "" := Option.some.inj h
      exact hempty
    | _ => exact nomatch h
  unfold keyFileCodes
  rw [hvalue]
  rfl

/-- The empty password comes alone, and only from the list of passwords. -/
theorem empty_mem_codesByList {s : SecurityConfig} (h : "sec_empty_pass" ∈ codesByList s name value) :
    value.string? = some "" ∧ codesByList s name value = ["sec_empty_pass"] := by
  unfold codesByList at h ⊢
  split at h
  · next hname =>
    rw [if_pos hname]
    split at h
    · next hempty => exact ⟨hempty, if_pos hempty⟩
    · simp at h
  · split at h
    · simp at h
    · split at h <;> simp at h

/-! ## Lists in another order -/

/-- The words of each list that is searched for secrets are the same, in whatever order. -/
structure Reordered (s t : SecurityConfig) : Prop where
  passwords : s.passwords.Perm t.passwords
  secrets : s.secrets.Perm t.secrets
  users : s.users.Perm t.users
  exceptions : s.secretExceptions.Perm t.secretExceptions
  profiles : s.profiles.Perm t.profiles
  directories : s.sshDirectories.Perm t.sshDirectories

/-- Words find a name in any order. -/
theorem namedBy_perm {words words' : List String} (h : words.Perm words') (name : Expr) :
    namedBy words name = namedBy words' name :=
  h.any_eq

theorem Reordered.codesByList {s t : SecurityConfig} (h : Reordered s t) (name value : Expr) :
    codesByList s name value = Security.codesByList t name value := by
  unfold Security.codesByList
  rw [namedBy_perm h.passwords, namedBy_perm h.secrets, namedBy_perm h.users]

theorem Reordered.keyFileCodes {s t : SecurityConfig} (h : Reordered s t) (name value : Expr) :
    keyFileCodes s name value = Security.keyFileCodes t name value := by
  unfold Security.keyFileCodes
  simp only [List.map_const']
  rw [(h.directories.filter _).length_eq]

theorem Reordered.allowsSecret (h : Reordered config.security config'.security) :
    config.allowsSecret = config'.allowsSecret := by
  funext s
  exact ((h.exceptions.append h.profiles).map Text.lower).contains_eq

/-- The codes of a value do not depend on the order of the words. -/
theorem Reordered.secretsOf (h : Reordered config.security config'.security) (name value : Expr) :
    secretsOf config name value = Security.secretsOf config' name value := by
  rw [secretsOf_eq, secretsOf_eq, h.allowsSecret, h.codesByList, h.keyFileCodes]

/-- Neither do the reports about an element. -/
theorem Reordered.hardcodedSecret (h : Reordered config.security config'.security) (c : Context)
    (e : Element) (path : String) :
    hardcodedSecret config c e path = Security.hardcodedSecret config' c e path := by
  unfold Security.hardcodedSecret
  cases e with
  | pair p =>
    dsimp only
    split
    · simp only [h.secretsOf]
    · rw [h.secretsOf]
  | _ => rfl

/-! ## Reports -/

/-- A pair whose value is no hash is judged by its name in normal form. -/
theorem hardcodedSecret_pair (config : Config) (c : Context) {p : Pair} (path : String)
    (hvalue : ∀ span entries, p.value ≠ .hash span entries) :
    hardcodedSecret config c (.pair p) path =
      (secretsOf config (.string .nowhere (keyName p)) p.value).map
        fun code => Finding.of code (.pair p) path := by
  unfold hardcodedSecret
  dsimp only
  split
  · next span entries heq => exact absurd heq (hvalue span entries)
  · rfl

/-- An empty password is the only code of its pair. -/
theorem secretsOf_of_empty_mem (h : "sec_empty_pass" ∈ secretsOf config name value) :
    secretsOf config name value = ["sec_empty_pass"] := by
  rw [secretsOf_eq] at h ⊢
  have hkeys : "sec_empty_pass" ∉ keyFileCodes config.security name value := by
    unfold keyFileCodes
    split <;> simp
  have hlist := (List.mem_append.1 h).resolve_right hkeys
  split at hlist
  · exact nomatch hlist
  · next hjudged =>
    obtain ⟨hempty, honly⟩ := empty_mem_codesByList hlist
    rw [if_neg hjudged, honly, keyFileCodes_of_empty hempty, List.append_nil]

/-- For a value that is no hash, what is reported because of keywords follows from the first of the lists
of passwords, secrets and users that has a word of the name, and nothing is if the name is excepted. The
order of the words does not matter, and an empty password is reported alone. -/
theorem secrets_by_precedence (config : Config) (c : Context) (p : Pair) (path : String)
    (hvalue : ∀ span entries, p.value ≠ .hash span entries) :
    let name := Expr.string .nowhere (keyName p)
    let found := hardcodedSecret config c (.pair p) path
    let report (code : String) := Finding.of code (.pair p) path
    let keyFiles := (keyFileCodes config.security name p.value).map report
    (config.allowsSecret (keyName p) = false → p.value.containsReference = false →
        found = (codesByList config.security name p.value).map report ++ keyFiles) ∧
      (config.allowsSecret (keyName p) = true → found = keyFiles) ∧
      (∀ config', Reordered config.security config'.security →
        hardcodedSecret config' c (.pair p) path = found) ∧
      (report "sec_empty_pass" ∈ found → found = [report "sec_empty_pass"]) := by
  intro name found report keyFiles
  have hfound : found = (secretsOf config name p.value).map report :=
    hardcodedSecret_pair config c path hvalue
  have hname : name.matchesString config.allowsSecret = config.allowsSecret (keyName p) := rfl
  refine ⟨fun hallowed hvariable => ?_, fun hallowed => ?_, fun config' h => ?_, fun hempty => ?_⟩
  · rw [hfound, secretsOf_eq, hname, hallowed, hvariable, List.map_append]
    rfl
  · rw [hfound, secretsOf_eq, hname, hallowed]
    rfl
  · exact (h.hardcodedSecret c (.pair p) path).symm
  · rw [hfound] at hempty ⊢
    obtain ⟨code, hmem, heq⟩ := List.mem_map.1 hempty
    obtain rfl : code = "sec_empty_pass" := congrArg Finding.code heq
    rw [secretsOf_of_empty_mem hmem]
    rfl

/-- A configuration in which the name `db_user_password` has words of two lists. -/
def twoLists : Config :=
  { (default : Config) with
    security := { passwords := ["pass", "password"], users := ["user", "user_password"] } }

/-- The configuration with its words the other way round. -/
def twoListsReversed : Config :=
  { (default : Config) with
    security := { passwords := ["password", "pass"], users := ["user_password", "user"] } }

/-- The empty value of the name `DB_User_Password`, written with blanks around it, is an empty password,
although the name also has a word of the users. -/
theorem secrets_by_precedence_empty :
    let p : Pair := ⟨.nowhere, .attr, " DB_User_Password ", .string .nowhere "", false, []⟩
    let empty := Finding.of "sec_empty_pass" (.pair p) "a.tf"
    (∀ span entries, p.value ≠ .hash span entries) ∧
      twoLists.allowsSecret (keyName p) = false ∧ p.value.containsReference = false ∧
      Reordered twoLists.security twoListsReversed.security ∧
      hardcodedSecret twoLists default (.pair p) "a.tf" = [empty] ∧
      hardcodedSecret twoListsReversed default (.pair p) "a.tf" = [empty] := by
  intro p empty
  have hvalue : ∀ span entries, p.value ≠ .hash span entries := fun _ _ h => nomatch h
  have hallowed : twoLists.allowsSecret (keyName p) = false := by decide +kernel
  have hvariable : p.value.containsReference = false := rfl
  have hreordered : Reordered twoLists.security twoListsReversed.security :=
    ⟨.swap _ _ _, .nil, .swap _ _ _, .nil, .nil, .nil⟩
  obtain ⟨hcodes, -, hsame, -⟩ := secrets_by_precedence twoLists default p "a.tf" hvalue
  have hlist : codesByList twoLists.security (.string .nowhere (keyName p)) p.value =
      ["sec_empty_pass"] := by decide +kernel
  have hempty : hardcodedSecret twoLists default (.pair p) "a.tf" = [empty] := by
    rw [hcodes hallowed hvariable, hlist, keyFileCodes_of_empty rfl]
    rfl
  exact ⟨hvalue, hallowed, hvariable, hreordered, hempty, (hsame _ hreordered).trans hempty⟩

end InfraSmells.Security
