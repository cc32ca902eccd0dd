import InfraSmells.Config.Basic
import InfraSmells.Text.Letter

/-!
# Words of a configuration

Matching names and texts against the words of a configuration. A keyword is found in a name when the
name begins with it, possibly behind letters, digits and the marks `_ $ / . [ ] -`, and the keyword
ends at the end of a word. A download is an address with one of the configured extensions.
-/

namespace InfraSmells

/-- The list that a keyword comes from. -/
inductive KeywordKind where
  | password | secret | user | role
  deriving DecidableEq, Repr, Inhabited

/-- A word that gives away what a name stands for. -/
structure Keyword where
  word : String
  kind : KeywordKind
  /-- Does the word also match in upper case? -/
  eitherCase : Bool
  deriving DecidableEq, Repr, Inhabited

namespace Keyword

/-- A character that may stand before a keyword. -/
def mayPrecede (c : Char) : Bool :=
  Text.isWordChar c || "$/.[]-".toList.contains c

/-- Does a word end or begin between two characters? The end of the text is no part of a word. -/
def isBoundary (before after : Option Char) : Bool :=
  (before.any Text.isWordChar) != (after.any Text.isWordChar)

/-- Does `word` stand at the head of the characters, and does a word end or begin behind it? `before`
is the character in front of them. -/
def standsAt (word : List Char) (before : Option Char) (cs : List Char) : Bool :=
  match Text.afterStart word cs with
  | some rest => isBoundary (word.getLast? <|> before) rest.head?
  | none => false

/-- Does `word` stand somewhere with only characters before it that may precede it? -/
def standsWithin (word : List Char) (before : Option Char) : List Char → Bool
  | [] => standsAt word before []
  | c :: cs =>
    standsAt word before (c :: cs) || (mayPrecede c && standsWithin word (some c) cs)

/-- Is the keyword found in a name? -/
def isIn (k : Keyword) (name : String) : Bool :=
  let cs := Text.characters name
  standsWithin (Text.characters k.word) none cs ||
    (k.eitherCase && standsWithin (Text.characters (Text.upper k.word)) none cs)

end Keyword

/-- The rest of the characters behind `needle`, with neither a blank nor a comma before it. -/
def reaches (needle : List Char) : List Char → Bool
  | [] => needle.isEmpty
  | c :: cs => Text.beginsWith needle (c :: cs) || (c != ' ' && c != ',' && reaches needle cs)

/-- Does the text hold an address that ends in a given extension? -/
def isDownload (extension : String) : List Char → Bool
  | [] => false
  | c :: cs =>
    let needle := '.' :: Text.characters extension
    let from? (scheme : String) : Bool :=
      match Text.afterStart scheme.toList (c :: cs) with
      | some rest => reaches needle rest
      | none => false
    from? "http" || from? "www" || isDownload extension cs

namespace Config

/-- The words of a list as keywords. -/
def keywordsOf (kind : KeywordKind) (eitherCase : Bool) (words : List String) : List Keyword :=
  words.map fun w => ⟨w, kind, eitherCase⟩

/-- Passwords, secrets and users, in this order: the first match decides what a name stands for. -/
def secretKeywords (c : Config) : List Keyword :=
  keywordsOf .password true c.security.passwords ++ keywordsOf .secret true c.security.secrets ++
    keywordsOf .user true c.security.users

/-- Roles and then users. -/
def adminKeywords (c : Config) : List Keyword :=
  keywordsOf .role false c.security.roles ++ keywordsOf .user false c.security.users

/-- Is the text among the words, whatever its letter case? -/
def among (words : List String) (s : String) : Bool :=
  (words.map Text.lower).contains (Text.lower s)

/-- Is the name excepted from the search for secrets? -/
def allowsSecret (c : Config) (name : String) : Bool :=
  among (c.security.secretExceptions ++ c.security.profiles) name

/-- May the host be reached without encryption? -/
def allowsPlainHost (c : Config) (host : String) : Bool :=
  among c.security.plainHosts host

/-- Do resources of this type run commands? -/
def isExec (c : Config) (type : String) : Bool :=
  c.design.execTypes.contains type

/-- Does the attribute bind to all addresses? -/
def isBindCommand (c : Config) (name : String) : Bool :=
  c.security.bindCommands.contains name

/-- Is the image an official one that is maintained? -/
def isOfficialImage (c : Config) (name : String) : Bool :=
  c.security.officialImages.contains name

/-- Is the image an official one that is maintained no more? -/
def isDeprecatedImage (c : Config) (name : String) : Bool :=
  c.security.deprecatedImages.contains name

/-- Does the attribute hold a policy document? -/
def isPolicyKeyword (c : Config) (name : String) : Bool :=
  among c.policy.keywords name

/-- Does the text hold the address of a download? -/
def isDownload (c : Config) (s : String) : Bool :=
  c.security.downloadExtensions.any fun x => InfraSmells.isDownload x (Text.characters s)

end Config

end InfraSmells
