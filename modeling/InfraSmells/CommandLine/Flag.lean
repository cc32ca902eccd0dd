import InfraSmells.Csv.Reading
import InfraSmells.Decimal.Radix
import InfraSmells.Text.Quoted

/-!
# Flags

A flag is a named option of a command, written `--name value` or `--name=value`; a Boolean one may
stand without a value, and some have a letter, written `-x`. `Flags.parse` reads the arguments of a
command: flags and other arguments may alternate, and two dashes end the flags.
-/

namespace InfraSmells.CommandLine

/-- The value of a flag, which also tells its kind. -/
inductive FlagValue where
  | text (s : String)
  | flag (b : Bool)
  | integer (n : Int)
  | texts (xs : List String)
  deriving DecidableEq, Repr, Inhabited

/-- A flag of a command. -/
structure Flag where
  name : String
  /-- The value without which the flag has been given. -/
  initial : FlagValue
  usage : String
  letter : Option Char := none
  deriving DecidableEq, Repr, Inhabited

/-- May the flag stand without a value? -/
def Flag.isBoolean (f : Flag) : Bool :=
  match f.initial with
  | .flag _ => true
  | _ => false

/-- Why arguments cannot be read. -/
inductive FlagError where
  | malformed (argument : String)
  | unknownName (name : String)
  | unknownLetter (letter : Char) (letters : String)
  | needsValue (name : String)
  | invalid (value : String) (flag : Flag) (cause : String)
  deriving DecidableEq, Repr

/-- A character between quotes. -/
def quoteLetter (c : Char) : String :=
  let inside :=
    if c = '\'' then ['\\', '\'']
    else if c = '"' then ['"']
    else Text.quoteChar c
  String.ofList ('\'' :: inside ++ ['\''])

/-- The message of an error. -/
def FlagError.message : FlagError → String
  | .malformed argument => "bad flag syntax: " ++ argument
  | .unknownName name => "unknown flag: --" ++ name
  | .unknownLetter letter letters =>
    "unknown shorthand flag: " ++ quoteLetter letter ++ " in -" ++ letters
  | .needsValue name => "flag needs an argument: --" ++ name
  | .invalid value flag cause =>
    let name := match flag.letter with
      | some c => "-" ++ c.toString ++ ", --" ++ flag.name
      | none => "--" ++ flag.name
    "invalid argument " ++ Text.quote value ++ " for " ++ Text.quote name ++ " flag: " ++ cause

/-- The truth a text spells. -/
def truthOf? (s : String) : Option Bool :=
  if ["1", "t", "T", "TRUE", "true", "True"].contains s then some true
  else if ["0", "f", "F", "FALSE", "false", "False"].contains s then some false
  else none

/-- The texts of a list between commas. A single empty text counts as none. -/
def textsOf (s : String) : Except Csv.Fault (List String) :=
  if s = "" then .ok [] else Csv.readRow s

/-- What was given for flags, by their names, and the other arguments in their order. -/
structure Given where
  values : List (String × FlagValue) := []
  arguments : List String := []
  deriving Inhabited

namespace Given

/-- The value given for a flag, or its initial one. -/
def value (g : Given) (f : Flag) : FlagValue :=
  ((g.values.find? (·.1 == f.name)).map Prod.snd).getD f.initial

/-- Was the flag of a name given? -/
def has (g : Given) (name : String) : Bool :=
  g.values.any (·.1 == name)

/-- Sets the value of a flag. -/
def set (g : Given) (f : Flag) (v : FlagValue) : Given :=
  { g with values := (f.name, v) :: g.values.filter (·.1 != f.name) }

/-- Reads the value of a flag from a text. Texts of a list are added to those given before. -/
def assign (g : Given) (f : Flag) (s : String) : Except FlagError Given :=
  match f.initial with
  | .text _ => .ok (g.set f (.text s))
  | .flag _ =>
    match truthOf? s with
    | some b => .ok (g.set f (.flag b))
    | none =>
      .error (.invalid s f ("strconv.ParseBool: parsing " ++ Text.quote s ++ ": invalid syntax"))
  | .integer _ =>
    match parseRadixInteger s with
    | .ok n => .ok (g.set f (.integer n))
    | .error e => .error (.invalid s f e.radixMessage)
  | .texts _ =>
    match textsOf s with
    | .error e => .error (.invalid s f e.message)
    | .ok xs =>
      let before := match (g.values.find? (·.1 == f.name)).map Prod.snd with
        | some (.texts ys) => ys
        | _ => []
      .ok (g.set f (.texts (before ++ xs)))

/-- Adds an argument that is no flag. -/
def add (g : Given) (argument : String) : Given :=
  { g with arguments := g.arguments ++ [argument] }

/-- The text given for the flag of a name among flags. -/
def text (g : Given) (flags : List Flag) (name : String) : String :=
  match (flags.find? (·.name == name)).map g.value with
  | some (.text s) => s
  | _ => ""

/-- The truth given for the flag of a name. -/
def flag (g : Given) (flags : List Flag) (name : String) : Bool :=
  match (flags.find? (·.name == name)).map g.value with
  | some (.flag b) => b
  | _ => false

/-- The integer given for the flag of a name. -/
def integer (g : Given) (flags : List Flag) (name : String) : Int :=
  match (flags.find? (·.name == name)).map g.value with
  | some (.integer n) => n
  | _ => 0

/-- The texts given for the flag of a name. A single empty text counts as none. -/
def texts (g : Given) (flags : List Flag) (name : String) : List String :=
  match (flags.find? (·.name == name)).map g.value with
  | some (.texts xs) => if xs = [""] then [] else xs
  | _ => []

end Given

namespace Flags

/-- The flag of a name. -/
def named? (flags : List Flag) (name : String) : Option Flag :=
  flags.find? (·.name == name)

/-- The flag of a letter. -/
def lettered? (flags : List Flag) (c : Char) : Option Flag :=
  flags.find? (·.letter == some c)

/-- The letter by which a message names a character that is no flag. Letters are bytes: of a
character past ASCII, the message shows how the text of its first byte, taken as a character, would
begin. -/
def namedLetter (c : Char) : Char :=
  match Text.charBytes c with
  | b :: _ => if b < 0x80 then c else if b < 0xC0 then Char.ofNat 0xC2 else Char.ofNat 0xC3
  | [] => c

/-- The beginning of letters that are left alone. -/
def foreignLetters : List Char := "test.".toList

/-- Reads the letters of an argument with one dash. All flags that have a letter are Boolean. -/
def parseLetters (flags : List Flag) (g : Given) : List Char → Except FlagError Given
  | [] => .ok g
  | c :: cs =>
    if Text.beginsWith foreignLetters (c :: cs) then .ok g
    else
      match lettered? flags c with
      | none => .error (.unknownLetter (namedLetter c) (String.ofList (c :: cs)))
      | some f =>
        match cs with
        | '=' :: d :: ds => g.assign f (String.ofList (d :: ds))
        | cs => do parseLetters flags (← g.assign f "true") cs

/-- The name and the value in an argument with two dashes. -/
def splitValue (s : String) : String × Option String :=
  (Text.before "=" s, Text.after? "=" s)

/-- Reads the arguments of a command. -/
def parse (flags : List Flag) (g : Given) : List String → Except FlagError Given
  | [] => .ok g
  | arg :: rest =>
    match arg.toList with
    | ['-', '-'] => .ok { g with arguments := g.arguments ++ rest }
    | '-' :: '-' :: body =>
      let (name, value?) := splitValue (String.ofList body)
      if name = "" || Text.startsWith name "-" then .error (.malformed arg)
      else
        match named? flags name, value? with
        | none, _ => .error (.unknownName name)
        | some f, some value => do parse flags (← g.assign f value) rest
        | some f, none =>
          if f.isBoolean then do parse flags (← g.assign f "true") rest
          else
            match rest with
            | [] => .error (.needsValue name)
            | value :: rest => do parse flags (← g.assign f value) rest
    | '-' :: c :: cs => do parse flags (← parseLetters flags g (c :: cs)) rest
    | _ => parse flags (g.add arg) rest

end Flags

end InfraSmells.CommandLine
