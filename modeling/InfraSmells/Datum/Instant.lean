import InfraSmells.Text.Letter
import InfraSmells.Text.Search

/-!
# Dates and times

A date, a time of day or both, the latter possibly with an offset from universal time. `Instant.read?`
reads one and `Instant.text` writes it in full: a date alone stands for its first moment, a time alone
for that time on the first day of year zero, and without an offset universal time is meant.
-/

namespace InfraSmells

/-- A date and a time of day, with an offset in minutes. -/
structure Instant where
  year : Nat := 0
  month : Nat := 1
  day : Nat := 1
  hour : Nat := 0
  minute : Nat := 0
  second : Nat := 0
  /-- The digits of a fraction of a second. -/
  fraction : List Char := []
  offset : Int := 0
  deriving DecidableEq, Repr, Inhabited

namespace Instant

/-- The value of `n` digits at the head of `cs`, and the rest. -/
def digits? (n : Nat) (cs : List Char) : Option (Nat × List Char) :=
  let ds := cs.take n
  if ds.length = n && ds.all Text.isDigit then
    some (ds.foldl (fun v c => 10 * v + (c.toNat - '0'.toNat)) 0, cs.drop n)
  else none

/-- The rest of `cs` after the character `c`. -/
def mark? (c : Char) : List Char → Option (List Char)
  | x :: cs => if x = c then some cs else none
  | [] => none

/-- Is there a 29th of February in the year? -/
def isLeap (year : Nat) : Bool :=
  year % 4 == 0 && (year % 100 != 0 || year % 400 == 0)

/-- The number of days of a month. -/
def daysIn (year month : Nat) : Nat :=
  if month = 2 then (if isLeap year then 29 else 28)
  else if month = 4 || month = 6 || month = 9 || month = 11 then 30
  else 31

/-- A date `year-month-day`, put into `t`. -/
def readDate? (t : Instant) (cs : List Char) : Option (Instant × List Char) := do
  let (year, cs) ← digits? 4 cs
  let (month, cs) ← digits? 2 (← mark? '-' cs)
  let (day, cs) ← digits? 2 (← mark? '-' cs)
  guard (1 ≤ month && month ≤ 12 && 1 ≤ day && day ≤ daysIn year month)
  return ({ t with year := year, month := month, day := day }, cs)

/-- A time `hour:minute:second` with an optional fraction, put into `t`. The hour may have a single
digit. -/
def readTime? (t : Instant) (cs : List Char) : Option (Instant × List Char) := do
  let (hour, cs) ← digits? 2 cs <|> digits? 1 cs
  let (minute, cs) ← digits? 2 (← mark? ':' cs)
  let (second, cs) ← digits? 2 (← mark? ':' cs)
  guard (hour < 24 && minute < 60 && second < 60)
  let t := { t with hour := hour, minute := minute, second := second }
  match cs with
  | '.' :: c :: rest =>
    if Text.isDigit c then
      let ds := (c :: rest).takeWhile Text.isDigit
      return ({ t with fraction := ds.take 9 }, (c :: rest).dropWhile Text.isDigit)
    else return (t, cs)
  | _ => return (t, cs)

/-- An offset: `Z`, or a sign with hours and minutes. -/
def readOffset? (t : Instant) : List Char → Option (Instant × List Char)
  | 'Z' :: cs => some (t, cs)
  | c :: cs => do
    guard (c = '+' || c = '-')
    let (hours, cs) ← digits? 2 cs
    let (minutes, cs) ← digits? 2 (← mark? ':' cs)
    guard (hours ≤ 24 && minutes ≤ 60)
    let offset : Int := 60 * hours + minutes
    return ({ t with offset := if c = '-' then -offset else offset }, cs)
  | [] => none

/-- Reads a date, a time, or a date and a time with the letter `T` between them. -/
def read? (cs : List Char) : Option Instant :=
  let whole (r : Option (Instant × List Char)) : Option Instant :=
    match r with
    | some (t, []) => some t
    | _ => none
  let both := do
    let (t, cs) ← readDate? {} cs
    readTime? t (← mark? 'T' cs)
  whole (both.bind fun (t, cs) => readOffset? t cs) <|> whole both <|> whole (readDate? {} cs) <|>
    whole (readTime? {} cs)

/-- A number with at least `width` digits. -/
def padded (width n : Nat) : String :=
  let ds := Nat.toDigits 10 n
  String.ofList (List.replicate (width - ds.length) '0' ++ ds)

/-- The full text of a date and time. -/
def text (t : Instant) : String :=
  let fraction := (t.fraction.reverse.dropWhile (· == '0')).reverse
  let offset :=
    if t.offset = 0 then "Z"
    else
      let n := t.offset.natAbs
      (if t.offset < 0 then "-" else "+") ++ padded 2 (n / 60) ++ ":" ++ padded 2 (n % 60)
  padded 4 t.year ++ "-" ++ padded 2 t.month ++ "-" ++ padded 2 t.day ++ "T" ++
    padded 2 t.hour ++ ":" ++ padded 2 t.minute ++ ":" ++ padded 2 t.second ++
    (if fraction.isEmpty then "" else "." ++ String.ofList fraction) ++ offset

/-- The date of a number of days since the first day of year zero, which may be negative. Four hundred
years have always the same number of days. -/
def ofDays (days : Int) : Int × Nat × Nat :=
  let era := days.fdiv 146097
  let day := (days - 146097 * era).toNat
  let (year, day) := yearOf 400 0 day
  let (month, day) := monthOf year 12 1 day
  (400 * era + year, month, day + 1)
where
  /-- The year of a day, counted from a year on. -/
  yearOf : Nat → Nat → Nat → Nat × Nat
    | 0, year, day => (year, day)
    | fuel + 1, year, day =>
      let length := if isLeap year then 366 else 365
      if day < length then (year, day) else yearOf fuel (year + 1) (day - length)
  /-- The month of a day, counted from a month on. -/
  monthOf (year : Nat) : Nat → Nat → Nat → Nat × Nat
    | 0, month, day => (month, day)
    | fuel + 1, month, day =>
      if day < daysIn year month then (month, day)
      else monthOf year fuel (month + 1) (day - daysIn year month)

/-- The number of days between the first days of year zero and of 1970. -/
def daysTo1970 : Int := 719528

/-- The text of the moment so many seconds and nanoseconds after the beginning of 1970, in universal
time. -/
def momentText (seconds : Int) (nanoseconds : Nat) : String :=
  let seconds := seconds + (nanoseconds / 1000000000 : Nat)
  let nanoseconds := nanoseconds % 1000000000
  let (year, month, day) := ofDays (seconds.fdiv 86400 + daysTo1970)
  let rest := (seconds - 86400 * seconds.fdiv 86400).toNat
  let fraction := ((padded 9 nanoseconds).toList.reverse.dropWhile (· == '0')).reverse
  (if year < 0 then "-" else "") ++ padded 4 year.natAbs ++ "-" ++ padded 2 month ++ "-" ++
    padded 2 day ++ " " ++ padded 2 (rest / 3600) ++ ":" ++ padded 2 (rest / 60 % 60) ++ ":" ++
    padded 2 (rest % 60) ++ (if fraction.isEmpty then "" else "." ++ String.ofList fraction) ++
    " +0000 UTC"

end Instant

end InfraSmells
