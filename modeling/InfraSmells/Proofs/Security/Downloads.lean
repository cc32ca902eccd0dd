import InfraSmells.Security.Integrity

/-!
# Downloads that stay unverified

The resources of a block are passed from left to right with the downloads that are still pending. A
download that no resource has verified stays pending beside those before it; every other resource takes
away the downloads it verifies (`Security.unverified_cons`). So what is pending at the end is decided for
each download by the resources behind it (`Security.unverified_eq`), and the reports are those of the
downloads that none of them verifies (`Security.unverified_downloads`).
-/

namespace InfraSmells.Security

variable {config : Config} {path : String}

/-! ## Downloads -/

/-- The texts in which a resource may hold a download, each with the element that shows it: its name, if
this is a literal, and the values of its attributes, without blanks around them and in lower case. -/
def downloadTexts (r : Resource) : List (String × Element) :=
  (r.literalName?.map fun name => (name, .resource r)).toList ++
    r.attributes.map fun a => (Text.lower (Text.trim a.value.text), .pair a)

/-- The first of these texts with the address of a download, and its element. -/
def downloadSource (config : Config) (r : Resource) : String × Element :=
  ((downloadTexts r).find? fun t => config.isDownload t.1).getD ("", .resource r)

/-- The base name of the file that a resource downloads. -/
def downloadedFile (config : Config) (r : Resource) : String :=
  Path.base (downloadSource config r).1

/-- The finding about a download, shown by the element that holds its address. -/
def downloadFinding (config : Config) (path : String) (r : Resource) : Finding :=
  Finding.about "sec_no_int_check" (.resource r) path (downloadSource config r).2.summary

/-- The resource holds the address of a download, and none of its attributes names a checksum. -/
def IsUnverified (config : Config) (r : Resource) : Prop :=
  (∃ t ∈ downloadTexts r, config.isDownload t.1 = true) ∧
    ∀ a ∈ r.attributes, ∀ word ∈ config.security.checksums,
      Text.contains (keyName a) (Text.lower word) = false

/-- A string of the resource has both the file and a word for a checksum in it, in any letter case. -/
def Verifies (config : Config) (file : String) (r : Resource) : Prop :=
  ∃ t ∈ resourceStrings r, Text.contains (Text.lower t) (Text.lower file) = true ∧
    ∃ word ∈ config.security.checksums, Text.contains (Text.lower t) (Text.lower word) = true

instance : DecidablePred (IsUnverified config) := fun r =>
  inferInstanceAs (Decidable ((∃ t ∈ downloadTexts r, config.isDownload t.1 = true) ∧
    ∀ a ∈ r.attributes, ∀ word ∈ config.security.checksums,
      Text.contains (keyName a) (Text.lower word) = false))

instance (file : String) : DecidablePred (Verifies config file) := fun r =>
  inferInstanceAs (Decidable (∃ t ∈ resourceStrings r,
    Text.contains (Text.lower t) (Text.lower file) = true ∧
      ∃ word ∈ config.security.checksums, Text.contains (Text.lower t) (Text.lower word) = true))

/-- No resource behind it that is no unverified download itself verifies the file. -/
def StaysUnverified (config : Config) (file : String) (later : List Resource) : Prop :=
  ∀ r ∈ later, ¬IsUnverified config r → ¬Verifies config file r

instance (file : String) : DecidablePred (StaysUnverified config file) := fun later =>
  inferInstanceAs (Decidable (∀ r ∈ later, ¬IsUnverified config r → ¬Verifies config file r))

/-- The download of a resource. -/
def downloadOf (config : Config) (path : String) (r : Resource) : Download :=
  ⟨downloadedFile config r, downloadFinding config path r⟩

theorem hasChecksum_eq_false_iff {r : Resource} : hasChecksum config r = false ↔
    ∀ a ∈ r.attributes, ∀ word ∈ config.security.checksums,
      Text.contains (keyName a) (Text.lower word) = false := by
  simp [hasChecksum]

theorem mentionsChecksum_iff {r : Resource} {file : String} :
    mentionsChecksum config (resourceStrings r) file = true ↔ Verifies config file r := by
  simp [mentionsChecksum, Verifies]

/-- The download of a resource is found in its texts. -/
theorem download?_eq_find? (r : Resource) : download? config path r =
    if hasChecksum config r then none
    else ((downloadTexts r).find? fun t => config.isDownload t.1).map fun t =>
      ⟨Path.base t.1, Finding.about "sec_no_int_check" (.resource r) path t.2.summary⟩ := by
  have hvalue (as : List Pair) : (as.findSome? fun a =>
        let value := Text.lower (Text.trim a.value.text)
        if config.isDownload value then
          some (Download.mk (Path.base value)
            (Finding.about "sec_no_int_check" (.resource r) path (Element.pair a).summary))
        else none) =
      ((as.map fun a => (Text.lower (Text.trim a.value.text), Element.pair a)).find?
          fun t => config.isDownload t.1).map fun t =>
        ⟨Path.base t.1, Finding.about "sec_no_int_check" (.resource r) path t.2.summary⟩ := by
    induction as with
    | nil => rfl
    | cons a as ih =>
      rw [List.findSome?_cons, List.map_cons, List.find?_cons]
      dsimp only
      cases config.isDownload (Text.lower (Text.trim a.value.text)) with
      | true => rfl
      | false => exact ih
  rw [download?, downloadTexts]
  congr 1
  rw [List.find?_append, Option.map_or, ← hvalue, Option.orElse_eq_orElse, Option.orElse_eq_or]
  congr 1
  cases r.literalName? with
  | none => rfl
  | some name => cases h : config.isDownload name <;> simp [h, Finding.of]

/-- A resource has a download to verify exactly if it is an unverified one. -/
theorem download?_eq (r : Resource) : download? config path r =
    if IsUnverified config r then some (downloadOf config path r) else none := by
  rw [download?_eq_find?]
  by_cases hchecksum : hasChecksum config r = true
  · rw [if_pos hchecksum, if_neg]
    exact fun h => absurd (hasChecksum_eq_false_iff.2 h.2) (by simp [hchecksum])
  · rw [if_neg hchecksum]
    have hnone := hasChecksum_eq_false_iff.1 (Bool.eq_false_iff.2 hchecksum)
    cases hfind : (downloadTexts r).find? fun t => config.isDownload t.1 with
    | none =>
      rw [if_neg]
      · rfl
      · rintro ⟨⟨t, ht, hdownload⟩, -⟩
        exact List.find?_eq_none.1 hfind t ht hdownload
    | some t =>
      have hsource : downloadSource config r = t := by rw [downloadSource, hfind]; rfl
      obtain ⟨hdownload, -⟩ := List.find?_eq_some_iff_append.1 hfind
      rw [if_pos ⟨⟨t, List.mem_of_find?_eq_some hfind, hdownload⟩, hnone⟩, downloadOf,
        downloadedFile, downloadFinding, hsource]
      rfl

/-! ## The pass over a block -/

/-- An unverified download joins the pending ones, any other resource takes away those it verifies. -/
theorem unverified_cons (pending : List Download) (r : Resource) (rs : List Resource) :
    unverified config path pending (r :: rs) =
      if IsUnverified config r then unverified config path (pending ++ [downloadOf config path r]) rs
      else unverified config path (pending.filter fun d => ¬Verifies config d.file r) rs := by
  rw [unverified, download?_eq]
  by_cases h : IsUnverified config r
  · simp only [if_pos h]
  · simp only [if_neg h]
    congr 1
    refine List.filter_congr fun d _ => ?_
    rw [Bool.eq_iff_iff, decide_eq_true_iff, Bool.not_eq_true', ← Bool.not_eq_true,
      mentionsChecksum_iff]

/-- Each pending download is decided by the resources to come. -/
theorem unverified_eq (rs : List Resource) (pending : List Download) :
    unverified config path pending rs =
      (pending.filter fun d => StaysUnverified config d.file rs) ++ unverified config path [] rs := by
  induction rs generalizing pending with
  | nil =>
    have hall : (pending.filter fun d => StaysUnverified config d.file []) = pending :=
      List.filter_eq_self.2 fun d _ => decide_eq_true fun _ hr => nomatch hr
    rw [hall, unverified, unverified, List.append_nil]
  | cons r rs ih =>
    rw [unverified_cons, unverified_cons]
    by_cases h : IsUnverified config r
    · have hkeeps (d : Download) : StaysUnverified config d.file (r :: rs) ↔
          StaysUnverified config d.file rs := by simp [StaysUnverified, h]
      simp only [if_pos h, hkeeps]
      rw [ih, List.nil_append, ih [downloadOf config path r], List.filter_append, List.append_assoc]
    · have hkeeps (d : Download) : StaysUnverified config d.file (r :: rs) ↔
          StaysUnverified config d.file rs ∧ ¬Verifies config d.file r := by
        simp [StaysUnverified, h, and_comm]
      simp only [if_neg h, hkeeps, List.filter_nil]
      rw [ih, List.filter_filter]
      simp only [Bool.decide_and]

/-- The resource at this place is an unverified download, and no resource behind it that is none itself
verifies the file. -/
def IsReported (config : Config) (rs : List Resource) (i : Fin rs.length) : Prop :=
  IsUnverified config rs[i] ∧ ∀ j : Fin rs.length, i < j →
    ¬IsUnverified config rs[j] → ¬Verifies config (downloadedFile config rs[i]) rs[j]

instance (rs : List Resource) : DecidablePred (IsReported config rs) := fun i =>
  inferInstanceAs (Decidable (IsUnverified config rs[i] ∧ ∀ j : Fin rs.length, i < j →
    ¬IsUnverified config rs[j] → ¬Verifies config (downloadedFile config rs[i]) rs[j]))

/-- The first resource is judged by all others. -/
theorem isReported_zero {r : Resource} {rs : List Resource} :
    IsReported config (r :: rs) ⟨0, Nat.succ_pos _⟩ ↔
      IsUnverified config r ∧ StaysUnverified config (downloadedFile config r) rs := by
  refine and_congr_right fun _ => ?_
  rw [StaysUnverified, List.forall_mem_iff_forall_getElem]
  constructor
  · exact fun h j hj => h ⟨j + 1, Nat.succ_lt_succ hj⟩ (Nat.succ_pos j)
  · rintro h ⟨_ | j, hj⟩ hlt
    · exact absurd hlt (Nat.lt_irrefl 0)
    · exact h j (Nat.lt_of_succ_lt_succ hj)

/-- What stands in front of a resource does not matter. -/
theorem isReported_succ {r : Resource} {rs : List Resource} (i : Fin rs.length) :
    IsReported config (r :: rs) i.succ ↔ IsReported config rs i := by
  refine and_congr_right fun _ => ?_
  constructor
  · exact fun h j hlt => h j.succ (Fin.succ_lt_succ_iff.2 hlt)
  · rintro h ⟨_ | j, hj⟩ hlt
    · exact absurd hlt (Nat.not_lt_zero _)
    · exact h ⟨j, Nat.lt_of_succ_lt_succ hj⟩ (Fin.succ_lt_succ_iff.1 hlt)

/-- The downloads at the end are the reported ones, in order. -/
theorem unverified_nil_eq (rs : List Resource) : unverified config path [] rs =
    ((List.finRange rs.length).filter (IsReported config rs ·)).map
      fun i => downloadOf config path rs[i] := by
  induction rs with
  | nil => rfl
  | cons r rs ih =>
    have hrest : (((List.finRange rs.length).map Fin.succ).filter (IsReported config (r :: rs) ·)).map
        (fun i => downloadOf config path (r :: rs)[i]) = unverified config path [] rs := by
      simp only [ih, List.filter_map, List.map_map, Function.comp_def, isReported_succ]
      rfl
    have hplaces : List.finRange (r :: rs).length =
        ⟨0, Nat.succ_pos _⟩ :: (List.finRange rs.length).map Fin.succ :=
      List.finRange_succ
    rw [hplaces, List.filter_cons, unverified_cons]
    simp only [isReported_zero, decide_eq_true_eq, List.nil_append, List.filter_nil]
    by_cases h : IsUnverified config r
    · have hpending : ([downloadOf config path r].filter fun d => StaysUnverified config d.file rs) =
          if StaysUnverified config (downloadedFile config r) rs then [downloadOf config path r]
          else [] := by simp [List.filter_cons, downloadOf]
      simp only [h, if_true, true_and]
      rw [unverified_eq, ← hrest, hpending]
      split <;> rfl
    · simp only [h, false_and, if_false]
      exact hrest.symm

/-- The reports about a block are those of the unverified downloads that stay so, in their order. -/
theorem unverified_downloads (config : Config) (c : Context) (b : Block) (path : String) :
    integrityCheck config c (.block b) path =
      ((List.finRange b.resources.length).filter (IsReported config b.resources ·)).map
        fun i => downloadFinding config path b.resources[i] := by
  rw [integrityCheck, unverified_nil_eq, List.map_map]
  rfl

/-- A configuration with archives as downloads. -/
def archiveDownloads : Config :=
  { (default : Config) with
    security := { downloadExtensions := ["zip"], checksums := ["sha256sum"] } }

/-- A resource that fetches a file. -/
def fetching (url : String) : Resource :=
  ⟨.nowhere, .string .nowhere "tool", "get_url",
    [⟨.nowhere, .attr, "url", .string .nowhere url, false, []⟩], []⟩

/-- An address in capitals is that of no download as it is written, and yet it is reported as one. -/
theorem capitals_reported :
    let r := fetching "HTTPS://EXAMPLE.ORG/TOOL.ZIP"
    let b : Block := ⟨.nowhere, "", .script, "a.yml", [r], [], [], [], [], [], []⟩
    (∀ name, r.literalName? = some name → archiveDownloads.isDownload name = false) ∧
      (∀ a ∈ r.attributes, archiveDownloads.isDownload a.value.text = false) ∧
      integrityCheck archiveDownloads default (.block b) "a.yml" =
        [downloadFinding archiveDownloads "a.yml" r] := by
  intro r b
  refine ⟨?_, by decide +kernel, by decide +kernel⟩
  rintro name hname
  obtain rfl : "tool" = name := Option.some.inj hname
  decide +kernel

end InfraSmells.Security
