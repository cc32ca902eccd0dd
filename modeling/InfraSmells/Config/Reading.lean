import InfraSmells.Config.BuiltIn
import InfraSmells.Config.Lists
import InfraSmells.Config.Tables
import InfraSmells.Datum.Toml
import InfraSmells.Files.System

/-!
# Reading a configuration

A configuration of the user replaces the built-in one altogether, so every key that a checker needs
must be there. `Config.ofToml` reads one from a TOML document and says what is wrong with it: first
that the document cannot be read, then a value of the wrong form, then the first key that is missing.
-/

namespace InfraSmells

/-- Why there is no configuration. -/
inductive ConfigError where
  /-- The text is no TOML document, or a plain value has the wrong type. -/
  | unreadable (source : String)
  /-- A list is not of the kind that is needed. -/
  | list (source : String) (e : ListError)
  | missingKey (source sectionName key : String)
  /-- The file could not be read. -/
  | file (e : FileError)
  deriving DecidableEq, Repr

/-- The message of an error, if it has a text of its own. -/
def ConfigError.message? : ConfigError → Option String
  | .unreadable _ => none
  | .list source e => e.message?.map fun m => source ++ ": failed to parse TOML: " ++ m
  | .missingKey source sectionName key =>
    some (source ++ ": missing [" ++ sectionName ++ "]." ++ key)
  | .file e => some ("failed to read config: " ++ e.message)

namespace Config

/-- Sets a part of a section that is a list, starting from the list it is. -/
def setPart {σ α : Type} (source : String) (p : Part σ (List α)) (s : σ)
    (assign : ExceptT ListError (StateM (List α)) Unit) : Except ConfigError σ :=
  match Id.run (assign.run.run (p.get s)) with
  | (.ok (), xs) => .ok (p.set s xs)
  | (.error e, _) => .error (.list source e)

/-- Sets what a key of a section sets. -/
def applySetting {σ : Type} (source : String) (s : σ) (d : Datum) : Setting σ → Except ConfigError σ
  | .text p =>
    match d with
    | .text x => .ok (p.set s x)
    | _ => .error (.unreadable source)
  | .flag p =>
    match d with
    | .flag x => .ok (p.set s x)
    | _ => .error (.unreadable source)
  | .texts p => setPart source p s (Lists.assign Lists.readTexts d)
  | .rules p => setPart source p s (Lists.assign Lists.readRules d)
  | .keywords p => setPart source p s (Lists.assign Lists.readKeywords d)
  | .flags p => setPart source p s (Lists.assign Lists.readFlags d)

/-- Sets the keys of a section, in the order of their names. -/
def readSection {σ : Type} (source : String) (keys : List (SectionKey σ)) (s : σ) (d : Datum) :
    Except ConfigError σ :=
  match d with
  | .table ms => (Datum.sortMembers ms).foldlM (readMember source keys) s
  | _ => .error (.unreadable source)
where
  /-- Sets one key; a key that the section does not have says nothing. -/
  readMember (source : String) (keys : List (SectionKey σ)) (s : σ) (m : String × Datum) :
      Except ConfigError σ :=
    match Lists.memberName? (keys.map (·.name)) m.1 with
    | none => .ok s
    | some name =>
      match keys.find? (·.name == name) with
      | none => .ok s
      | some key => applySetting source s m.2 key.setting

/-- Sets one section; a section of another name says nothing. -/
def readTopLevel (c : Config) (m : String × Datum) : Except ConfigError Config := do
  match Lists.memberName? ["design", "security", "terraform"] m.1 with
  | some "design" =>
    return { c with design := ← readSection c.source DesignConfig.keys c.design m.2 }
  | some "security" =>
    return { c with security := ← readSection c.source SecurityConfig.keys c.security m.2 }
  | some "terraform" =>
    return { c with policy := ← readSection c.source PolicyConfig.keys c.policy m.2 }
  | _ => return c

/-- The first key that a section needs and does not have. -/
def missing? {σ : Type} (d : Datum) (name : String) (keys : List (SectionKey σ)) :
    Option (String × String) :=
  let given := ((d.get? name).getD .null).members.map Prod.fst
  (keys.find? fun k => k.needed && !given.contains k.name).map fun k => (name, k.name)

/-- The configuration of a document. Only scripts of Terraform need the policy section. -/
def ofDatum (source : String) (t : Technology) (d : Datum) : Except ConfigError Config := do
  let c ← (Datum.sortMembers d.members).foldlM readTopLevel { technology := t, source := source }
  let absent := missing? d "design" DesignConfig.keys <|>
    missing? d "security" SecurityConfig.keys <|>
    (if t = .terraform then missing? d "terraform" PolicyConfig.keys else none)
  match absent with
  | some (sectionName, key) => throw (.missingKey source sectionName key)
  | none => return c

/-- Reads a configuration from a TOML document. -/
def ofToml (source : String) (t : Technology) (text : String) : Except ConfigError Config :=
  match Datum.ofToml? text with
  | some d => ofDatum source t d
  | none => .error (.unreadable source)

/-- The configuration of a file; a blank path asks for the built-in one. -/
def load (fs : FileSystem) (path : String) (t : Technology) : Except ConfigError Config :=
  if Text.trim path = "" then .ok (builtIn t)
  else
    match fs.read path with
    | .error e => .error (.file e)
    | .ok bytes => ofToml path t (Text.ofBytes bytes)

end Config

end InfraSmells
