import ModelServer.Text.Digits

/-!
# Dates and times

A date names a day of the calendar from the year 1 to 9999; a time of day has a fraction of up to six
places; a date with a time may tell how far its clock is from universal time. `date?`, `time?` and
`moment?` read one from the front of a text.
-/

namespace ModelServer.Toml

/-- A day of the calendar. -/
structure Date where
  year : Nat
  month : Nat
  day : Nat
  deriving DecidableEq, Repr

/-- A time of day. -/
structure Time where
  hour : Nat
  minute : Nat
  second : Nat
  micros : Nat
  deriving DecidableEq, Repr

/-- What a document can tell about time. -/
inductive Moment where
  | date (d : Date)
  | time (t : Time)
  /-- A time on a day; `offset` is how many minutes its clock is ahead, if that is told. -/
  | dateTime (d : Date) (t : Time) (offset : Option Int)
  deriving DecidableEq, Repr

namespace Moment

/-- A leap year has a day more. -/
def isLeap (year : Nat) : Bool :=
  year % 4 == 0 && (year % 100 != 0 || year % 400 == 0)

/-- How many days a month has. -/
def daysIn (year month : Nat) : Nat :=
  if month = 2 then (if isLeap year then 29 else 28)
  else if month = 4 ∨ month = 6 ∨ month = 9 ∨ month = 11 then 30
  else 31

/-- The date is a day of the calendar. -/
def isDay (d : Date) : Bool :=
  1 ≤ d.year && 1 ≤ d.month && d.month ≤ 12 && 1 ≤ d.day && d.day ≤ daysIn d.year d.month

/-- The number that the first `n` characters denote, which must be digits, and the rest. -/
def fixed? (n : Nat) (cs : List Char) : Option (Nat × List Char) :=
  let ds := cs.take n
  if ds.length = n ∧ ds.all Text.isAsciiDigit then some (Text.natOfDigits ds, cs.drop n) else none

/-- The rest behind a character. -/
def behind? (c : Char) : List Char → Option (List Char)
  | d :: rest => if d = c then some rest else none
  | [] => none

/-- Three numbers of a date, the second and third no larger than a month and a day can be. -/
def date? (cs : List Char) : Option (Date × List Char) := do
  let (year, cs) ← fixed? 4 cs
  let (month, cs) ← fixed? 2 (← behind? '-' cs)
  let (day, cs) ← fixed? 2 (← behind? '-' cs)
  if 1 ≤ month ∧ month ≤ 12 ∧ 1 ≤ day ∧ day ≤ 31 then return (⟨year, month, day⟩, cs) else none

/-- The hour and minute at the front. -/
def clock? (cs : List Char) : Option (Nat × Nat × List Char) := do
  let (hour, cs) ← fixed? 2 cs
  let (minute, cs) ← fixed? 2 (← behind? ':' cs)
  if hour < 24 ∧ minute < 60 then return (hour, minute, cs) else none

/-- The fraction of a second at the front, in millionths: further places are not counted. -/
def micros : List Char → Nat × List Char
  | '.' :: rest =>
    match rest.span Text.isAsciiDigit with
    | ([], _) => (0, '.' :: rest)
    | (ds, rest') => (Text.natOfDigits ((ds ++ List.replicate 6 '0').take 6), rest')
  | cs => (0, cs)

/-- The time of day at the front. -/
def time? (cs : List Char) : Option (Time × List Char) := do
  let (hour, minute, cs) ← clock? cs
  let (second, cs) ← fixed? 2 (← behind? ':' cs)
  if second < 60 then
    let (fraction, cs) := micros cs
    return (⟨hour, minute, second, fraction⟩, cs)
  else none

/-- How many minutes a clock is ahead, if the front tells. -/
def offset : List Char → Option Int × List Char
  | 'Z' :: rest | 'z' :: rest => (some 0, rest)
  | sign :: rest =>
    match clock? rest with
    | some (hour, minute, rest') =>
      let ahead : Int := 60 * hour + minute
      if sign = '+' then (some ahead, rest')
      else if sign = '-' then (some (-ahead), rest')
      else (none, sign :: rest)
    | none => (none, sign :: rest)
  | [] => (none, [])

/-- The time behind a date, and what is told of its clock. -/
def timeBehind? : List Char → Option (Time × Option Int × List Char)
  | c :: rest =>
    if c = 'T' ∨ c = 't' ∨ c = ' ' then do
      let (t, cs) ← time? rest
      let (ahead, cs) := offset cs
      return (t, ahead, cs)
    else none
  | [] => none

/-- What the front tells about time; a date may turn out to be no day of the calendar. -/
def read? (cs : List Char) : Option (Moment × List Char) :=
  match date? cs with
  | some (d, rest) =>
    match timeBehind? rest with
    | some (t, ahead, rest') => some (.dateTime d t ahead, rest')
    | none => some (.date d, rest)
  | none => (time? cs).map fun r ↦ (.time r.1, r.2)

/-- What is told lies in the calendar. -/
def isValid : Moment → Bool
  | date d => isDay d
  | time _ => true
  | dateTime d _ _ => isDay d

end Moment

end ModelServer.Toml
