import InfraSmells.Datum.Json
import InfraSmells.Text.Case

/-!
# Addresses

`Url.parse?` takes an address apart: scheme, host with port, path, query and fragment. An address is
refused when it holds a control character, a malformed escape or a host that cannot be one; a
relative reference is an address without scheme and host.
-/

namespace InfraSmells

/-- The parts of an address that checks look at. -/
structure Url where
  /-- In lower case; empty for a relative reference. -/
  scheme : String := ""
  /-- The host and its port, with escapes resolved. -/
  host : String := ""
  /-- The text between the question mark and the fragment, as it is written. -/
  query : String := ""
  deriving DecidableEq, Repr, Inhabited

namespace Url

/-- What a text of an address stands in, which decides what may be escaped there. -/
inductive Component where
  | host | zone | other | query
  deriving DecidableEq, Repr

/-- An ASCII letter or digit. -/
def isAlphanumeric (c : Char) : Bool :=
  ('a' ≤ c && c ≤ 'z') || ('A' ≤ c && c ≤ 'Z') || ('0' ≤ c && c ≤ '9')

/-- A character that a host may hold as it is. -/
def isHostChar (c : Char) : Bool :=
  0x80 ≤ c.toNat || isAlphanumeric c || "-_.~!$&'()*+,;=:[]<>\"".toList.contains c

/-- May the byte of an escape be escaped in this component? In a host only bytes outside ASCII and
the percent sign may; in a zone also blanks and what may stand there anyway. -/
def mayEscape (k : Component) (byte : Nat) : Bool :=
  match k with
  | .host => 0x80 ≤ byte || byte == 0x25
  | .zone => byte == 0x25 || byte == 0x20 || (byte < 0x80 && isHostChar (Char.ofNat byte))
  | .other | .query => true

/-- May the character stand in this component without escape? -/
def mayStand (k : Component) (c : Char) : Bool :=
  match k with
  | .host | .zone => isHostChar c
  | .other | .query => true

/-- The bytes of a text with its escapes resolved; in a query a plus sign is a blank. -/
def unescapeBytes (k : Component) : List Char → Option (List UInt8)
  | [] => some []
  | '%' :: a :: b :: cs => do
    let byte := 16 * (← Json.hex? a) + (← Json.hex? b)
    guard (mayEscape k byte)
    return UInt8.ofNat byte :: (← unescapeBytes k cs)
  | c :: cs => do
    guard (c != '%' && mayStand k c)
    let bytes := if c = '+' && k = .query then [0x20] else Text.charBytes c
    return bytes ++ (← unescapeBytes k cs)

/-- The text with its escapes resolved. -/
def unescape? (k : Component) (cs : List Char) : Option String :=
  (unescapeBytes k cs).map Text.ofBytes

/-- The scheme before the first colon, and the rest; none if the address begins with a colon. A text
that cannot be a scheme leaves it empty. -/
def splitScheme (cs : List Char) : Option (List Char × List Char) :=
  let isPart (c : Char) : Bool := isAlphanumeric c || c == '+' || c == '-' || c == '.'
  match cs.takeWhile isPart, cs.dropWhile isPart with
  | [], ':' :: _ => none
  | s :: scheme, ':' :: rest =>
    if ('a' ≤ s && s ≤ 'z') || ('A' ≤ s && s ≤ 'Z') then some (s :: scheme, rest) else some ([], cs)
  | _, _ => some ([], cs)

/-- Nothing, or a colon and digits. -/
def isPort : List Char → Bool
  | [] => true
  | c :: ds => c == ':' && ds.all fun d => '0' ≤ d && d ≤ '9'

/-- The part of the characters before the last `c`, and the part behind it. -/
def cutLast (c : Char) (cs : List Char) : Option (List Char × List Char) :=
  match Text.cutAt [c] cs.reverse with
  | some (after, before) => some (before.reverse, after.reverse)
  | none => none

/-- Four decimal numbers of a byte each, between points and without leading zeros. -/
def isOctets (cs : List Char) : Bool :=
  let isOctet (ds : List Char) : Bool :=
    !ds.isEmpty && ds.all Text.isDigit && (ds.length == 1 || ds.head? != some '0') &&
      ds.length ≤ 3 && Json.digitsValue ds ≤ 255
  let parts := Text.splitChars '.' cs
  parts.length == 4 && parts.all isOctet

/-- Groups of at most four hexadecimal digits between colons, of which eight make an address. Two
colons stand for at least one group of zeros, once; four octets may stand for the last two groups.
`count` groups have been read, and `gap` tells whether two colons were among them. The characters are
taken away, so their number is fuel enough. -/
def isGroups : Nat → Nat → Bool → List Char → Bool
  | 0, _, _, _ => false
  | fuel + 1, count, gap, cs =>
    let isWhole (count : Nat) (gap : Bool) : Bool := if gap then count < 8 else count == 8
    let digits := cs.takeWhile fun c => (Json.hex? c).isSome
    if 8 ≤ count || digits.isEmpty || 4 < digits.length then false
    else
      match cs.drop digits.length with
      | [] => isWhole (count + 1) gap
      | '.' :: _ => (gap || count == 6) && count ≤ 6 && isOctets cs && isWhole (count + 2) gap
      | [':'] => false
      | [':', ':'] => !gap && isWhole (count + 1) true
      | ':' :: ':' :: more => !gap && isGroups fuel (count + 1) true more
      | ':' :: more => isGroups fuel (count + 1) gap more
      | _ => false

/-- An address of eight groups, possibly with the name of a zone behind a percent sign. -/
def isGroupAddress (cs : List Char) : Bool :=
  let (address, zone) := (Text.cutAt ['%'] cs).getD (cs, ['0'])
  !zone.isEmpty && address.contains ':' &&
    match address with
    | [':', ':'] => true
    | ':' :: ':' :: more => isGroups (more.length + 1) 0 true more
    | address => isGroups (address.length + 1) 0 false address

/-- The text between the brackets of a host, with its escapes resolved. -/
def bracketed? (cs : List Char) : Option String :=
  match Text.cutAt ['%', '2', '5'] cs with
  | some (address, zone) => do
    let address ← unescape? .host address
    let zone ← unescape? .zone ('%' :: '2' :: '5' :: zone)
    return address ++ zone
  | none => unescape? .host cs

/-- A host with an optional port. Only an address of groups stands in brackets. -/
def parseHost? (cs : List Char) : Option String :=
  match cs with
  | '[' :: rest => do
    guard (!rest.contains '[')
    let (inner, port) ← cutLast ']' rest
    guard (isPort port)
    let address ← bracketed? inner
    guard (isGroupAddress address.toList)
    return "[" ++ address ++ "]" ++ String.ofList port
  | _ => do
    guard (!cs.contains '[')
    match cutLast ':' cs with
    | some (_, port) => guard (isPort (':' :: port))
    | none => pure ()
    unescape? .host cs

/-- A character that the name and password of a user may hold. -/
def isUserChar (c : Char) : Bool :=
  isAlphanumeric c || "-._:~!$&'()*+,;=%@".toList.contains c

/-- The host of an authority, which may name a user before it. -/
def parseAuthority? (cs : List Char) : Option String :=
  match cutLast '@' cs with
  | none => parseHost? cs
  | some (user, host) => do
    let host ← parseHost? host
    guard (user.all isUserChar)
    let _ ← unescapeBytes .other user
    return host

/-- An address without its fragment. -/
def parseWithout? (cs : List Char) : Option Url := do
  guard (cs.all fun c => 0x20 ≤ c.toNat && c.toNat != 0x7F)
  if cs = ['*'] then return {}
  let (scheme, rest) ← splitScheme cs
  let (rest, query) := (Text.cutAt ['?'] rest).getD (rest, [])
  let url : Url := { scheme := Text.lower (String.ofList scheme), query := String.ofList query }
  if rest.head? != some '/' then
    if !scheme.isEmpty then return url
    guard (!(rest.takeWhile (· != '/')).contains ':')
  let isLocal := scheme.isEmpty && Text.beginsWith ['/', '/', '/'] rest
  match rest with
  | '/' :: '/' :: authority =>
    if isLocal then
      let _ ← unescapeBytes .other rest
      return url
    else
      let host ← parseAuthority? (authority.takeWhile (· != '/'))
      let _ ← unescapeBytes .other (authority.dropWhile (· != '/'))
      return { url with host := host }
  | _ =>
    let _ ← unescapeBytes .other rest
    return url

/-- Takes an address apart. -/
def parse? (s : String) : Option Url := do
  match Text.cutAt ['#'] s.toList with
  | none => parseWithout? s.toList
  | some (cs, fragment) =>
    let url ← parseWithout? cs
    let _ ← unescapeBytes .other fragment
    return url

/-- The host without its port and without brackets. -/
def hostname (u : Url) : String :=
  let cs := u.host.toList
  let host := match cutLast ':' cs with
    | some (host, port) => if isPort (':' :: port) then host else cs
    | none => cs
  match host with
  | '[' :: inner => if inner.getLast? = some ']' then String.ofList inner.dropLast else String.ofList host
  | _ => String.ofList host

/-- A name and a value of a query; a malformed one, or one with a semicolon, does not count. -/
def queryPair? (cs : List Char) : Option (String × String) := do
  guard (!cs.contains ';' && !cs.isEmpty)
  let (name, value) := (Text.cutAt ['='] cs).getD (cs, [])
  return (← unescape? .query name, ← unescape? .query value)

/-- The first value of a name of the query; empty if there is none. -/
def queryValue (u : Url) (name : String) : String :=
  let pairs := (Text.splitChars '&' u.query.toList).filterMap queryPair?
  ((pairs.find? (·.1 == name)).map Prod.snd).getD ""

end Url

end InfraSmells
