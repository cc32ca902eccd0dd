import InfraSmells.Proofs.Checker.Declared
import InfraSmells.Security.Checkers

/-!
# The security checkers keep to their codes

One lemma for each checker of the security family, and `Security.keepsToCodes` for all that are
registered. Checkers that pick one of several codes do so through `secretsOf` and `pinningCodes`,
whose codes are all declared; downloads carry their findings along until the block ends.
-/

namespace InfraSmells.Security

variable {config : Config} {c : Context} {e : Element} {path : String}

/-! ## Values -/

/-- The parts of a value that match are reported under the given code. -/
theorem declared_matchingValues (p : Pair) (code : String) (pred : String → Bool) :
    AllDeclared [code] path (matchingValues p path code pred) := by
  unfold matchingValues
  have hreport (x : Expr) (f : Finding)
      (hf : (if x.matchesString pred then some (Finding.of code (.expr x) path) else none) =
        some f) :
      f.Declared [code] path := by
    obtain ⟨-, hf⟩ := Option.ite_none_right_eq_some.1 hf
    simp [← Option.some.inj hf]
  split
  · simpa only [allDeclared_filterMap] using fun x _ f hf => hreport x f hf
  · simpa only [allDeclared_filterMap] using fun x _ f hf => hreport x f hf
  · simp

theorem declared_insecureUrl : AllDeclared ["sec_https"] path (insecureUrl config c e path) := by
  unfold insecureUrl
  split
  · exact declared_matchingValues _ _ _
  · simp

theorem declared_weakCrypto :
    AllDeclared ["sec_weak_crypt"] path (weakCrypto config c e path) := by
  unfold weakCrypto
  split
  · exact declared_matchingValues _ _ _
  · simp

/-- The codes of secrets. -/
def codesOfSecrets : List String :=
  ["sec_hard_secr", "sec_hard_pass", "sec_hard_user", "sec_empty_pass"]

/-- A keyword of any kind leads to codes of secrets. -/
theorem secretCodes_subset (kind : KeywordKind) (value : Expr) :
    secretCodes kind value ⊆ codesOfSecrets := by
  cases kind with
  | password =>
    unfold secretCodes
    dsimp only
    split <;> simp [codesOfSecrets]
  | user | secret | role => simp [secretCodes, codesOfSecrets]

/-- What is written under a name leads to codes of secrets. -/
theorem secretsOf_subset (name value : Expr) : secretsOf config name value ⊆ codesOfSecrets := by
  have hkeyword (keyword : Option Keyword) :
      keyword.elim [] (fun k => secretCodes k.kind value) ⊆ codesOfSecrets := by
    cases keyword with
    | none => exact List.nil_subset _
    | some k => exact secretCodes_subset k.kind value
  refine List.append_subset.2 ⟨hkeyword _, fun code hcode => ?_⟩
  obtain ⟨_, -, rfl⟩ := List.mem_map.1 hcode
  exact .head _

theorem declared_hardcodedSecret :
    AllDeclared codesOfSecrets path (hardcodedSecret config c e path) := by
  unfold hardcodedSecret
  split
  · simp only [allDeclared_map, Finding.declared_of]
    split
    · intro code hcode
      obtain ⟨_, -, hcode⟩ := List.mem_flatMap.1 hcode
      exact secretsOf_subset _ _ hcode
    · exact fun code hcode => secretsOf_subset _ _ hcode
  · simp

theorem declared_adminByDefault :
    AllDeclared ["sec_def_admin"] path (adminByDefault config c e path) := by
  unfold adminByDefault
  split <;> simp

theorem declared_invalidBind :
    AllDeclared ["sec_invalid_bind"] path (invalidBind config c e path) := by
  unfold invalidBind
  split <;> simp

/-! ## Downloads -/

/-- A download is reported as one. -/
theorem declared_download {r : Resource} {d : Download} (h : download? config path r = some d) :
    d.finding.Declared ["sec_no_int_check"] path := by
  unfold download? at h
  obtain ⟨-, h⟩ := Option.ite_none_left_eq_some.1 h
  rw [Option.orElse_eq_orElse, Option.orElse_eq_or] at h
  rcases Option.or_eq_some_iff.1 h with h | ⟨-, h⟩
  · obtain ⟨name, -, h⟩ := Option.bind_eq_some_iff.1 h
    obtain ⟨-, h⟩ := Option.ite_none_right_eq_some.1 h
    simp [← Option.some.inj h]
  · obtain ⟨a, -, h⟩ := List.exists_of_findSome?_eq_some h
    obtain ⟨-, h⟩ := Option.ite_none_right_eq_some.1 h
    simp [← Option.some.inj h]

/-- Downloads that stay unverified are among those that were pending or come later. -/
theorem declared_unverified : ∀ (rs : List Resource) {pending : List Download},
    (∀ d ∈ pending, d.finding.Declared ["sec_no_int_check"] path) →
      ∀ d ∈ unverified config path pending rs, d.finding.Declared ["sec_no_int_check"] path
  | [], _, h => h
  | r :: rs, pending, h => by
    unfold unverified
    split
    · next d hd =>
      refine declared_unverified rs fun x hx => ?_
      rcases List.mem_append.1 hx with hx | hx
      · exact h x hx
      · rw [List.mem_singleton.1 hx]
        exact declared_download hd
    · exact declared_unverified rs fun d hd => h d (List.mem_filter.1 hd).1

theorem declared_integrityCheck :
    AllDeclared ["sec_no_int_check"] path (integrityCheck config c e path) := by
  unfold integrityCheck
  split
  · rw [allDeclared_map]
    exact declared_unverified _ fun _ hd => nomatch hd
  · simp

theorem declared_artifactChecksum :
    AllDeclared ["sec_no_int_check"] path (artifactChecksum c e path) := by
  unfold artifactChecksum
  split
  · split <;> simp
  · simp

/-! ## Comments and conditionals -/

theorem declared_suspiciousComment :
    AllDeclared ["sec_susp_comm"] path (suspiciousComment config c e path) := by
  unfold suspiciousComment
  split
  · dsimp only
    generalize hfound : List.find? _ _ = found
    cases found with
    | none => simp
    | some fs =>
      -- The findings are those of one of the words.
      obtain ⟨word, -, rfl⟩ := List.mem_map.1 (List.mem_of_find?_eq_some hfound)
      simp only [Option.getD_some, allDeclared_filterMap]
      intro line _ f hf
      obtain ⟨-, hf⟩ := Option.ite_none_right_eq_some.1 hf
      simp [← Option.some.inj hf]
  · simp

theorem declared_noDefaultSwitch :
    AllDeclared ["sec_no_default_switch"] path (noDefaultSwitch c e path) := by
  unfold noDefaultSwitch
  split <;> simp

/-! ## Containers -/

theorem declared_mountedSocket :
    AllDeclared ["sec_mounted_docker_socket"] path (mountedSocket c e path) := by
  unfold mountedSocket
  split <;> simp

theorem declared_privilegedContainer :
    AllDeclared ["sec_privileged_containers"] path (privilegedContainer c e path) := by
  unfold privilegedContainer
  split
  · split <;> simp
  · simp

theorem declared_containerImage :
    AllDeclared ["sec_non_official_image"] path (containerImage config c e path) := by
  unfold containerImage
  split
  · split <;> simp
  · simp

/-- The codes of images that are not pinned. -/
def codesOfPinning : List String :=
  ["sec_no_image_tag", "sec_unstable_tag", "sec_image_integrity"]

/-- What is wrong with the pinning of an image leads to codes of pinning. -/
theorem pinningCodes_subset (image : Image) : pinningCodes config image ⊆ codesOfPinning := by
  have hcode {p : Prop} [Decidable p] {code : String} (h : code ∈ codesOfPinning) :
      (if p then [code] else []) ⊆ codesOfPinning := by
    split
    · simpa using h
    · exact List.nil_subset _
  simp only [pinningCodes, List.append_subset]
  exact ⟨⟨⟨hcode (by decide), hcode (by decide)⟩, hcode (by decide)⟩, hcode (by decide)⟩

theorem declared_imageTags : AllDeclared codesOfPinning path (imageTags config c e path) := by
  unfold imageTags
  split
  · split
    · simp only [allDeclared_ite, allDeclared_nil, allDeclared_map, Finding.declared_of]
      exact ⟨fun _ => trivial, fun _ code hcode => pinningCodes_subset _ hcode⟩
    · simp
  · simp

theorem declared_deprecatedImage :
    AllDeclared ["sec_depr_off_imgs"] path (deprecatedImage config c e path) := by
  unfold deprecatedImage
  split
  · split <;> simp
  · simp

theorem declared_baseImage :
    AllDeclared ["sec_non_official_image"] path (baseImage config c e path) := by
  unfold baseImage
  split <;> simp

/-! ## All checkers -/

/-- A registration of the security family keeps to its codes if all that its check finds does. -/
theorem keepsToCodes_register {name : String} {codes : List String}
    {check : Config → Context → Element → String → List Finding} {technology : Technology}
    (h : ∀ config c e path, AllDeclared codes path (check config c e path)) :
    (register name codes check technology).KeepsToCodes := by
  intro config c e path
  exact Verdict.declared_some.2 (h config c e path)

/-- The checkers of images keep to their codes, whatever the orchestrator. -/
theorem keepsToCodes_imageCheckers (t : Technology) : ∀ r ∈ imageCheckers t, r.KeepsToCodes := by
  simp only [imageCheckers, List.forall_mem_cons, List.not_mem_nil, false_implies, implies_true,
    and_true]
  refine ⟨?_, ?_, ?_⟩
  · exact keepsToCodes_register fun _ _ _ _ => declared_containerImage
  · exact keepsToCodes_register fun _ _ _ _ => declared_imageTags
  · exact keepsToCodes_register fun _ _ _ _ => declared_deprecatedImage

/-- Every checker of the security family keeps to its codes. -/
theorem keepsToCodes : ∀ r ∈ checkers, r.KeepsToCodes := by
  simp only [checkers, List.forall_mem_append, List.forall_mem_cons, List.not_mem_nil,
    false_implies, implies_true, and_true]
  refine ⟨⟨⟨?_, ?_, ?_, ?_, ?_, ?_, ?_, ?_, ?_, ?_, ?_, ?_⟩, keepsToCodes_imageCheckers .nomad⟩,
    keepsToCodes_imageCheckers .swarm⟩
  · exact keepsToCodes_register fun _ _ _ _ => declared_insecureUrl
  · exact keepsToCodes_register fun _ _ _ _ => declared_weakCrypto
  · exact keepsToCodes_register fun _ _ _ _ => declared_hardcodedSecret
  · exact keepsToCodes_register fun _ _ _ _ => declared_adminByDefault
  · exact keepsToCodes_register fun _ _ _ _ => declared_invalidBind
  · exact keepsToCodes_register fun _ _ _ _ => declared_integrityCheck
  · exact keepsToCodes_register fun _ _ _ _ => declared_artifactChecksum
  · exact keepsToCodes_register fun _ _ _ _ => declared_suspiciousComment
  · exact keepsToCodes_register fun _ _ _ _ => declared_noDefaultSwitch
  · exact keepsToCodes_register fun _ _ _ _ => declared_mountedSocket
  · exact keepsToCodes_register fun _ _ _ _ => declared_privilegedContainer
  · exact keepsToCodes_register fun _ _ _ _ => declared_baseImage

end InfraSmells.Security
