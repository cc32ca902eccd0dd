import InfraSmells.Proofs.Text.Cut
import InfraSmells.Security.Images

/-!
# References to images

A reference holds the name of an image, a tag behind a colon and a digest behind an at sign; a colon in
front of the last slash belongs to the port of a registry. Taking a reference apart gives the parts it
was made of, and the parts make up the reference again, apart from marks with nothing behind them
(`Image.parts_of_references`).

A service is judged by the name of its image, a build stage by the text up to the first colon. This text
is the name unless the reference has a port, or a digest without a tag (`Image.before_colon_eq_name_iff`).
So the two judgements agree only on references without these, whose name has no library path either
(`Security.stages_like_services`).
-/

namespace InfraSmells.Security

namespace Image

variable {s : String} {named head rest : List Char}

/-! ## Taking a reference apart -/

/-- The name and the tag in what stands before the first at sign. -/
def ofNamed (named : List Char) : Image :=
  match Url.cutLast ':' named with
  | some (name, tag) =>
    if tag.contains '/' then ⟨String.ofList named, "", ""⟩
    else ⟨String.ofList name, String.ofList tag, ""⟩
  | none => ⟨String.ofList named, "", ""⟩

/-- The last colon begins a tag, unless there is a slash behind it. -/
theorem ofNamed_append (htag : ':' ∉ rest) (hslash : '/' ∉ rest) :
    ofNamed (head ++ ':' :: rest) = ⟨String.ofList head, String.ofList rest, ""⟩ := by
  rw [ofNamed, Url.cutLast_eq_some_iff.2 ⟨rfl, htag⟩]
  simp [hslash]

/-- All is the name, or a tag without colons and slashes stands behind a colon. -/
theorem ofNamed_cases (named : List Char) :
    ofNamed named = ⟨String.ofList named, "", ""⟩ ∨
      ∃ name tag, named = name ++ ':' :: tag ∧ ':' ∉ tag ∧ '/' ∉ tag ∧
        ofNamed named = ⟨String.ofList name, String.ofList tag, ""⟩ := by
  cases hcut : Url.cutLast ':' named with
  | none => exact .inl (by rw [ofNamed, hcut])
  | some parts =>
    obtain ⟨name, tag⟩ := parts
    obtain ⟨hnamed, htag⟩ := Url.cutLast_eq_some_iff.1 hcut
    by_cases hslash : '/' ∈ tag
    · exact .inl (by simp [ofNamed, hcut, hslash])
    · exact .inr ⟨name, tag, hnamed, htag, hslash, by rw [hnamed, ofNamed_append htag hslash]⟩

theorem ofNamed_digest (named : List Char) : (ofNamed named).digest = "" := by
  rcases ofNamed_cases named with heq | ⟨_, _, -, -, -, heq⟩ <;> rw [heq]

/-- Without an at sign there is no digest. -/
theorem parse_of_notMem (h : '@' ∉ s.toList) : parse s = ofNamed s.toList := by
  rw [parse, Text.cutAt_eq_none_iff.2 h, Url.cutLast_eq_none_iff.2 h]
  rfl

/-- Name and tag stand before the first at sign, the digest behind the last one. -/
theorem parse_of_mem {before digest : List Char} (hfirst : s.toList = named ++ '@' :: rest)
    (hnamed : '@' ∉ named) (hlast : s.toList = before ++ '@' :: digest) (hdigest : '@' ∉ digest) :
    parse s = { ofNamed named with digest := String.ofList digest } := by
  rw [parse, ofNamed, Text.cutAt_eq_some_iff.2 ⟨hfirst, hnamed⟩,
    Url.cutLast_eq_some_iff.2 ⟨hlast, hdigest⟩]
  dsimp only
  cases Url.cutLast ':' named with
  | none => rfl
  | some parts => by_cases hslash : '/' ∈ parts.2 <;> simp [hslash]

/-- A reference has no at sign, or it is taken apart at the first and at the last one. -/
theorem parse_cases (s : String) :
    ('@' ∉ s.toList ∧ parse s = ofNamed s.toList) ∨
      ∃ named rest digest, s.toList = named ++ '@' :: rest ∧ '@' ∉ named ∧
        parse s = { ofNamed named with digest := String.ofList digest } ∧
        ('@' ∉ rest → digest = rest) := by
  cases hfirst : Text.cutAt ['@'] s.toList with
  | none =>
    have hs := Text.cutAt_eq_none_iff.1 hfirst
    exact .inl ⟨hs, parse_of_notMem hs⟩
  | some parts =>
    obtain ⟨named, rest⟩ := parts
    obtain ⟨hs, hnamed⟩ := Text.cutAt_eq_some_iff.1 hfirst
    cases hlast : Url.cutLast '@' s.toList with
    | none => exact absurd (Url.cutLast_eq_none_iff.1 hlast) (by simp [hs])
    | some parts =>
      obtain ⟨before, digest⟩ := parts
      obtain ⟨hs', hdigest⟩ := Url.cutLast_eq_some_iff.1 hlast
      refine .inr ⟨named, rest, digest, hs, hnamed, parse_of_mem hs hnamed hs' hdigest, fun hrest => ?_⟩
      have hcut := Url.cutLast_eq_some_iff.2 ⟨hs, hrest⟩
      rw [hlast] at hcut
      exact congrArg Prod.snd (Option.some.inj hcut)

/-! ## Parts and references -/

/-- What stands behind the last slash. -/
def lastPart (s : String) : List Char :=
  (s.toList.reverse.takeWhile (· != '/')).reverse

/-- A name has no at sign, and no colon behind its last slash. -/
def IsName (s : String) : Prop :=
  '@' ∉ s.toList ∧ ':' ∉ lastPart s

/-- A tag is not empty and has no mark of a reference. -/
def IsTag (s : String) : Prop :=
  s ≠ "" ∧ '/' ∉ s.toList ∧ ':' ∉ s.toList ∧ '@' ∉ s.toList

/-- A digest is not empty and has no at sign. -/
def IsDigest (s : String) : Prop :=
  s ≠ "" ∧ '@' ∉ s.toList

instance : DecidablePred IsName := fun s =>
  inferInstanceAs (Decidable ('@' ∉ s.toList ∧ ':' ∉ lastPart s))

instance : DecidablePred IsTag := fun s =>
  inferInstanceAs (Decidable (s ≠ "" ∧ '/' ∉ s.toList ∧ ':' ∉ s.toList ∧ '@' ∉ s.toList))

instance : DecidablePred IsDigest := fun s =>
  inferInstanceAs (Decidable (s ≠ "" ∧ '@' ∉ s.toList))

/-- Every colon of a name has a slash behind it. -/
theorem IsName.slash_mem (h : IsName s) (hs : s.toList = head ++ ':' :: rest) : '/' ∈ rest := by
  by_contra hslash
  refine h.2 ?_
  have hall : ∀ c ∈ rest.reverse, (c != '/') = true := by
    simpa using fun c hc => ne_of_mem_of_not_mem hc hslash
  simp [lastPart, hs, List.takeWhile_append_of_pos hall]

/-- All of a name is the name. -/
theorem IsName.ofNamed_eq (h : IsName s) : ofNamed s.toList = ⟨s, "", ""⟩ := by
  rcases ofNamed_cases s.toList with heq | ⟨name, tag, hs, -, hslash, -⟩
  · rw [heq, String.ofList_toList]
  · exact absurd (h.slash_mem hs) hslash

/-- A reference to a name alone. -/
theorem parse_name (h : IsName s) : parse s = ⟨s, "", ""⟩ := by
  rw [parse_of_notMem h.1, h.ofNamed_eq]

/-- A tag behind a name is found again. -/
theorem parse_tagged {name tag : String} (hname : '@' ∉ name.toList) (htag : IsTag tag) :
    parse (name ++ ":" ++ tag) = ⟨name, tag, ""⟩ := by
  obtain ⟨-, hslash, hcolon, hat⟩ := htag
  have hs : (name ++ ":" ++ tag).toList = name.toList ++ ':' :: tag.toList := by
    simp [String.toList_append]
  rw [parse_of_notMem (by simp [hs, hname, hat]), hs, ofNamed_append hcolon hslash,
    String.ofList_toList, String.ofList_toList]

/-- A digest behind a reference without one is found again, and leaves name and tag as they are. -/
theorem parse_digested {ref digest : String} (href : '@' ∉ ref.toList) (hdigest : '@' ∉ digest.toList) :
    parse (ref ++ "@" ++ digest) = { parse ref with digest := digest } := by
  have hs : (ref ++ "@" ++ digest).toList = ref.toList ++ '@' :: digest.toList := by
    simp [String.toList_append]
  rw [parse_of_mem hs href hs hdigest, parse_of_notMem href, String.ofList_toList]

/-- What marks a part: its mark, which may also lack in front of an empty part. -/
def IsMarkOf (mark part s : String) : Prop :=
  s = mark ∨ s = "" ∧ part = ""

/-- Without an at sign, name and tag make up the reference. -/
theorem exists_marks_ofNamed (named : List Char) :
    ∃ colon, IsMarkOf ":" (ofNamed named).tag colon ∧
      String.ofList named = (ofNamed named).name ++ colon ++ (ofNamed named).tag := by
  rcases ofNamed_cases named with heq | ⟨name, tag, rfl, -, -, heq⟩
  · exact ⟨"", .inr ⟨rfl, by rw [heq]⟩, by simp [heq]⟩
  · refine ⟨":", .inl rfl, ?_⟩
    rw [heq, ← String.toList_inj]
    simp [String.toList_append]

/-- A reference with one at sign at most is made of its parts. -/
theorem exists_marks {ref : String} (h : ref.toList.count '@' ≤ 1) :
    ∃ colon sign, IsMarkOf ":" (parse ref).tag colon ∧ IsMarkOf "@" (parse ref).digest sign ∧
      ref = (parse ref).name ++ colon ++ (parse ref).tag ++ sign ++ (parse ref).digest := by
  rcases parse_cases ref with ⟨-, heq⟩ | ⟨named, rest, digest, hs, hnamed, heq, hdigest⟩
  · obtain ⟨colon, hcolon, hparts⟩ := exists_marks_ofNamed ref.toList
    rw [String.ofList_toList] at hparts
    have hnone : (ofNamed ref.toList).digest = "" := ofNamed_digest _
    rw [heq, hnone]
    exact ⟨colon, "", hcolon, .inr ⟨rfl, rfl⟩, by simpa using hparts⟩
  · obtain ⟨colon, hcolon, hparts⟩ := exists_marks_ofNamed named
    have hrest : '@' ∉ rest := by
      rw [hs, List.count_append, List.count_cons_self] at h
      exact List.count_eq_zero.1 (by omega)
    obtain rfl := hdigest hrest
    rw [heq]
    refine ⟨colon, "@", hcolon, .inl rfl, ?_⟩
    dsimp only
    rw [← hparts, ← String.toList_inj, hs]
    simp [String.toList_append]

/-- A name, with or without a tag and a digest, is taken apart into the parts it was made of; and a
reference with one at sign at most is made of the parts it is taken apart into, where the mark of an
empty part may lack. -/
theorem parts_of_references :
    (∀ name tag digest, IsName name → IsTag tag → IsDigest digest →
      parse name = ⟨name, "", ""⟩ ∧
      parse (name ++ ":" ++ tag) = ⟨name, tag, ""⟩ ∧
      parse (name ++ "@" ++ digest) = ⟨name, "", digest⟩ ∧
      parse (name ++ ":" ++ tag ++ "@" ++ digest) = ⟨name, tag, digest⟩) ∧
    ∀ ref : String, ref.toList.count '@' ≤ 1 →
      ∃ colon sign, IsMarkOf ":" (parse ref).tag colon ∧ IsMarkOf "@" (parse ref).digest sign ∧
        ref = (parse ref).name ++ colon ++ (parse ref).tag ++ sign ++ (parse ref).digest := by
  refine ⟨fun name tag digest hname htag hdigest => ?_, fun ref h => exists_marks h⟩
  have hplain := parse_name hname
  have htagged := parse_tagged hname.1 htag
  have hsign : '@' ∉ (name ++ ":" ++ tag).toList := by
    simp [String.toList_append, hname.1, htag.2.2.2]
  refine ⟨hplain, htagged, ?_, ?_⟩
  · rw [parse_digested hname.1 hdigest.2, hplain]
  · rw [parse_digested hsign hdigest.2, htagged]

/-- The name may have a port, and the digest a colon. -/
theorem parts_of_references_port :
    let name := "registry.local:5000/team/app"
    let ref := name ++ ":" ++ "2.1" ++ "@" ++ "sha256:0f"
    IsName name ∧ IsTag "2.1" ∧ IsDigest "sha256:0f" ∧ ref.toList.count '@' ≤ 1 ∧
      parse name = ⟨name, "", ""⟩ ∧ parse ref = ⟨name, "2.1", "sha256:0f"⟩ ∧
      ∃ colon sign, IsMarkOf ":" "2.1" colon ∧ IsMarkOf "@" "sha256:0f" sign ∧
        ref = name ++ colon ++ "2.1" ++ sign ++ "sha256:0f" := by
  intro name ref
  have hname : IsName name := by decide +kernel
  have htag : IsTag "2.1" := by decide +kernel
  have hdigest : IsDigest "sha256:0f" := by decide +kernel
  have hcount : ref.toList.count '@' ≤ 1 := by decide +kernel
  obtain ⟨hplain, -, -, hfull⟩ := parts_of_references.1 name "2.1" "sha256:0f" hname htag hdigest
  have hmarks := parts_of_references.2 ref hcount
  rw [hfull] at hmarks
  exact ⟨hname, htag, hdigest, hcount, hplain, hfull, hmarks⟩

/-! ## The text up to the first colon -/

/-- A name is cut off in front of a colon or an at sign. -/
theorem exists_name_append (s : String) : ∃ rest, s.toList = (parse s).name.toList ++ rest ∧
    '@' ∉ (parse s).name.toList ∧ ∀ c ∈ rest.head?, c = ':' ∨ c = '@' := by
  have hofNamed (named : List Char) : ∃ rest, named = (ofNamed named).name.toList ++ rest ∧
      ∀ c ∈ rest.head?, c = ':' := by
    rcases ofNamed_cases named with heq | ⟨name, tag, hnamed, -, -, heq⟩
    · exact ⟨[], by simp [heq], fun _ hc => nomatch hc⟩
    · exact ⟨':' :: tag, by rw [heq, String.toList_ofList]; exact hnamed, by simp⟩
  rcases parse_cases s with ⟨hsign, heq⟩ | ⟨named, more, digest, hs, hsign, heq, -⟩
  · obtain ⟨rest, hrest, hhead⟩ := hofNamed s.toList
    rw [heq]
    exact ⟨rest, hrest, fun h => hsign (hrest ▸ List.mem_append_left _ h), fun c hc => .inl (hhead c hc)⟩
  · obtain ⟨rest, hrest, hhead⟩ := hofNamed named
    rw [heq]
    refine ⟨rest ++ '@' :: more, ?_, fun h => hsign (hrest ▸ List.mem_append_left _ h), ?_⟩
    · rw [hs, ← List.append_assoc, ← hrest]
    · cases rest with
      | nil => simp
      | cons x rest => exact fun c hc => .inl (hhead c hc)

/-- The text up to the first colon has none. -/
theorem colon_notMem_before (s : String) : ':' ∉ (Text.before ":" s).toList := by
  rw [Text.toList_before (c := ':') rfl]
  exact fun h => absurd (List.mem_takeWhile_imp h) (by simp)

/-- The first colon of a reference to a name with a port is that of the port. -/
theorem before_colon_of_port (h : ':' ∈ (parse s).name.toList) :
    Text.before ":" s = Text.before ":" (parse s).name := by
  obtain ⟨rest, hs, -, -⟩ := exists_name_append s
  have hname : ((parse s).name.toList.takeWhile (· != ':')).length ≠ (parse s).name.toList.length := by
    intro hlength
    have hall := (List.takeWhile_prefix _).eq_of_length hlength
    rw [← hall] at h
    exact absurd (List.mem_takeWhile_imp h) (by simp)
  rw [← String.toList_inj, Text.toList_before (c := ':') rfl, Text.toList_before (c := ':') rfl, hs,
    List.takeWhile_append, if_neg hname]

/-- The text up to the first colon is the name, unless this has a port or a digest stands behind it. -/
theorem before_colon_eq_name_iff : Text.before ":" s = (parse s).name ↔
    ':' ∉ (parse s).name.toList ∧ '@' ∉ (Text.before ":" s).toList := by
  obtain ⟨rest, hs, hsign, hhead⟩ := exists_name_append s
  constructor
  · intro h
    rw [← h] at hsign ⊢
    exact ⟨colon_notMem_before s, hsign⟩
  · rintro ⟨hport, hdigest⟩
    have hall : ∀ c ∈ (parse s).name.toList, (c != ':') = true := fun c hc =>
      bne_iff_ne.2 (ne_of_mem_of_not_mem hc hport)
    rw [Text.toList_before (c := ':') rfl, hs, List.takeWhile_append_of_pos hall] at hdigest
    rw [← String.toList_inj, Text.toList_before (c := ':') rfl, hs, List.takeWhile_append_of_pos hall]
    cases rest with
    | nil => simp
    | cons c rest =>
      rcases hhead c rfl with rfl | rfl
      · simp
      · simp at hdigest

end Image

/-! ## Stages and services -/

section
variable {config : Config} {c : Context} {path : String} {b : Block} {p : Pair}

/-- A stage is judged by the text up to the first colon. -/
theorem baseImage_eq (hname : b.name ≠ "") (hfile : Text.contains b.name "Dockerfile" = false) :
    baseImage config c (.block b) path =
      if isLibraryImage config (Text.before ":" b.name) then []
      else [Finding.of "sec_non_official_image" (.block b) path] := by
  simp [baseImage, hname, hfile]

/-- A service is judged by the name of its image. -/
theorem containerImage_eq {span : Span} {ref : String} (hkey : keyName p = "image")
    (hvalue : p.value = .string span ref) (hname : (Image.parse ref).name ≠ "") :
    containerImage config c (.pair p) path =
      if inLibrary (isLibraryImage config) (Image.parse ref).name then []
      else [Finding.of "sec_non_official_image" (.pair p) path] := by
  have himage : imageOf? p = some (ref, .pair p) := by
    unfold imageOf?
    rw [hkey, hvalue]
    rfl
  have hempty : ((Image.parse ref).name == "") = false := beq_eq_false_iff_ne.2 hname
  unfold containerImage
  simp only [himage, hempty, Bool.false_or]

/-- The empty beginning leaves all of a text. -/
theorem dropStart?_empty (s : String) : Text.dropStart? "" s = some s :=
  congrArg some String.ofList_toList

/-- A name in the lists is in the library, without any path. -/
theorem inLibrary_of_listed {judge : String → Bool} {name : String} (h : judge name = true) :
    inLibrary judge name = true :=
  List.any_eq_true.2 ⟨"", .head _, by rw [dropStart?_empty]; exact h⟩

/-- A name with no path of the library is in the library only if it is in the lists. -/
theorem inLibrary_eq {judge : String → Bool} {name : String}
    (h : ∀ start ∈ libraryPaths, start ≠ "" → Text.startsWith name start = false) :
    inLibrary judge name = judge name := by
  refine Bool.eq_iff_iff.2 ⟨fun hin => ?_, inLibrary_of_listed⟩
  obtain ⟨start, hstart, hjudge⟩ := List.any_eq_true.1 hin
  by_cases hempty : start = ""
  · rwa [hempty, dropStart?_empty] at hjudge
  · have hnone : Text.dropStart? start name = none := by
      rw [Text.dropStart?, Option.not_isSome_iff_eq_none.1 (Bool.eq_false_iff.1 (h start hstart hempty))]
      rfl
    rw [hnone] at hjudge
    exact nomatch hjudge

/-- A stage and a service with the same reference are judged alike if the name of the image is what
stands before the first colon and has no path of the library; with such a path the judgement of the stage
is the stricter one. Of a name with a port the stage is judged by the host alone, and a digest that
follows the name itself is taken for a part of it, so that the stage is reported whatever the name. -/
theorem stages_like_services (config : Config) (c : Context) (path : String) {b : Block} {p : Pair}
    {span : Span} (hkey : keyName p = "image") (hvalue : p.value = .string span b.name)
    (hfile : Text.contains b.name "Dockerfile" = false) (hname : (Image.parse b.name).name ≠ "") :
    let name := (Image.parse b.name).name
    let cut := Text.before ":" b.name
    let inStage := baseImage config c (.block b) path
    let inService := containerImage config c (.pair p) path
    (inStage = [] ↔ isLibraryImage config cut = true) ∧
      (inService = [] ↔ inLibrary (isLibraryImage config) name = true) ∧
      (':' ∉ name.toList → '@' ∉ cut.toList →
        (inStage = [] → inService = []) ∧
        ((∀ start ∈ libraryPaths, start ≠ "" → Text.startsWith name start = false) →
          (inStage = [] ↔ inService = []))) ∧
      (':' ∈ name.toList → (inStage = [] ↔ isLibraryImage config (Text.before ":" name) = true)) ∧
      ('@' ∈ cut.toList →
        (∀ word ∈ config.security.officialImages ++ config.security.deprecatedImages,
          '@' ∉ word.toList) → inStage ≠ []) := by
  intro name cut inStage inService
  have hblock : b.name ≠ "" := by
    rintro hempty
    rw [hempty] at hname
    exact hname rfl
  have hstage : inStage = [] ↔ isLibraryImage config cut = true := by
    show baseImage config c (.block b) path = [] ↔ _
    rw [baseImage_eq hblock hfile]
    simp [cut]
  have hservice : inService = [] ↔ inLibrary (isLibraryImage config) name = true := by
    show containerImage config c (.pair p) path = [] ↔ _
    rw [containerImage_eq hkey hvalue hname]
    simp [name]
  refine ⟨hstage, hservice, fun hport hdigest => ?_, fun hport => ?_, fun hdigest hwords => ?_⟩
  · have hcut : cut = name := Image.before_colon_eq_name_iff.2 ⟨hport, hdigest⟩
    rw [hstage, hservice, hcut]
    exact ⟨inLibrary_of_listed, fun hpath => by rw [inLibrary_eq hpath]⟩
  · have hcut : cut = Text.before ":" name := Image.before_colon_of_port hport
    rw [hstage, hcut]
  · rw [ne_eq, hstage, isLibraryImage, Config.isOfficialImage, Config.isDeprecatedImage,
      Bool.or_eq_true, List.contains_iff_mem, List.contains_iff_mem, ← List.mem_append]
    exact fun hlisted => hwords cut hlisted hdigest

end

/-- A configuration with two images in the library. -/
def twoImages : Config :=
  { (default : Config) with security := { officialImages := ["nginx", "registry"] } }

/-- A build stage on an image. -/
def stageOn (ref : String) : Block :=
  ⟨.nowhere, ref, .script, "Dockerfile", [], [], [], [], [], [], []⟩

/-- The image of a service. -/
def imagePair (ref : String) : Pair :=
  ⟨.nowhere, .attr, "image", .string .nowhere ref, false, []⟩

/-- With a tag and a digest stage and service are judged alike. -/
theorem stages_like_services_pinned :
    let ref := "nginx:1.25@sha256:0f"
    keyName (imagePair ref) = "image" ∧ Text.contains ref "Dockerfile" = false ∧
      (Image.parse ref).name ≠ "" ∧
      baseImage twoImages default (.block (stageOn ref)) "Dockerfile" = [] ∧
      containerImage twoImages default (.pair (imagePair ref)) "Dockerfile" = [] := by
  intro ref
  have hkey : keyName (imagePair ref) = "image" := by decide +kernel
  have hfile : Text.contains ref "Dockerfile" = false := by decide +kernel
  have hname : (Image.parse ref).name ≠ "" := by decide +kernel
  obtain ⟨hstage, -, halike, -, -⟩ :=
    stages_like_services twoImages default "Dockerfile" (b := stageOn ref) hkey rfl hfile hname
  have haccepted := hstage.2 (by decide +kernel)
  exact ⟨hkey, hfile, hname, haccepted,
    (halike (by decide +kernel) (by decide +kernel)).1 haccepted⟩

/-- A registry that is named like an image of the library hides what it serves from the judgement of a
stage; the path of the library, and a digest without a tag, have a stage reported. -/
theorem stages_unlike_services :
    let stage ref := baseImage twoImages default (.block (stageOn ref)) "Dockerfile"
    let service ref := containerImage twoImages default (.pair (imagePair ref)) "Dockerfile"
    (∀ ref ∈ ["registry:5000/team/app:1", "library/nginx:1.25", "nginx@sha256:0f"],
      Text.contains ref "Dockerfile" = false ∧ (Image.parse ref).name ≠ "") ∧
    (stage "registry:5000/team/app:1" = [] ∧ service "registry:5000/team/app:1" ≠ []) ∧
    (stage "library/nginx:1.25" ≠ [] ∧ service "library/nginx:1.25" = []) ∧
    (stage "nginx@sha256:0f" ≠ [] ∧ service "nginx@sha256:0f" = []) := by
  decide +kernel

end InfraSmells.Security
