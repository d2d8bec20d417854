import Storyline.Yaml.Fault

/-!
# Dates in a YAML text

Dates and times of day as they are written, and the days and moments they name.

## Main definitions

* `Stamp`: the numbers of a date as they are written
* `Stamp.read?`: the date that a text spells
* `Stamp.value`: the day or moment that a date names
-/

namespace Storyline.Yaml

open Text

/-- A time of day as it is written. -/
structure Clock where
  hour : Nat
  minute : Nat
  second : Nat
  /-- The digits behind the point of the seconds. -/
  fraction : List Char
  /-- The offset from universal time in minutes. -/
  offset : Option Int
  deriving Repr

/-- A date as it is written. -/
structure Stamp where
  year : Nat
  month : Nat
  day : Nat
  /-- Whether month and day have two digits. -/
  full : Bool
  clock : Option Clock
  deriving Repr

/-- The number that ASCII digits spell. -/
def digitsValue (s : List Char) : Nat :=
  ofDigits 10 (s.map fun c => c.toNat - 0x30)

/-- The run of digits that a text begins with, if it has from `least` to `most` of them, and the
rest. -/
def digitRun? (least most : Nat) (s : List Char) : Option (List Char × List Char) :=
  let ds := s.takeWhile Char.isDigit
  if least ≤ ds.length && ds.length ≤ most then some (ds, s.dropWhile Char.isDigit) else none

/-- The rest of a text after a character. -/
def after? (c : Char) : List Char → Option (List Char)
  | d :: r => if d = c then some r else none
  | [] => none

/-- A space or a tab. -/
def isSpaceOrTab (c : Char) : Bool :=
  c == ' ' || c == '\t'

/-- An offset from universal time after blanks, or nothing at all. -/
def offset? (s : List Char) : Option (Option Int) :=
  match s.dropWhile isSpaceOrTab with
  | [] => if s.isEmpty then some none else none
  | ['Z'] => some (some 0)
  | sign :: r => do
    let negative ← if sign = '-' then some true else if sign = '+' then some false else none
    let (hours, r) ← digitRun? 1 2 r
    let minutes ← match r with
      | [] => some []
      | r => do
        let (ms, r) ← digitRun? 2 2 (← after? ':' r)
        if r.isEmpty then some ms else none
    let n : Int := digitsValue hours * 60 + digitsValue minutes
    return some (if negative then -n else n)

/-- A time of day with its fraction and offset. -/
def clock? (s : List Char) : Option Clock := do
  let (hour, s) ← digitRun? 1 2 s
  let (minute, s) ← digitRun? 2 2 (← after? ':' s)
  let (second, s) ← digitRun? 2 2 (← after? ':' s)
  let (fraction, s) := match s with
    | '.' :: r => (r.takeWhile Char.isDigit, r.dropWhile Char.isDigit)
    | _ => ([], s)
  let offset ← offset? s
  return ⟨digitsValue hour, digitsValue minute, digitsValue second, fraction, offset⟩

/-- The date that a text spells, with or without a time of day. -/
def Stamp.read? (s : List Char) : Option Stamp := do
  let (year, s) ← digitRun? 4 4 s
  let (month, s) ← digitRun? 1 2 (← after? '-' s)
  let (day, s) ← digitRun? 1 2 (← after? '-' s)
  let clock ← match s with
    | [] => some none
    | c :: r =>
      if c = 'T' || c = 't' then (clock? r).map some
      else if isSpaceOrTab c then (clock? (r.dropWhile isSpaceOrTab)).map some
      else none
  return ⟨digitsValue year, digitsValue month, digitsValue day,
    month.length == 2 && day.length == 2, clock⟩

/-- The day that year, month and day name. -/
def dateOf (year month day : Nat) : Except Defect Date :=
  if year = 0 then .error (.year year)
  else if month = 0 || 12 < month then .error .month
  else if day = 0 || Value.daysInMonth year month < day then .error .day
  else .ok ⟨year, month, day⟩

/-- The microseconds that the digits behind a point spell; more than six digits are cut off. -/
def microseconds (fraction : List Char) : Nat :=
  let ds := fraction.take 6
  digitsValue (ds ++ List.replicate (6 - ds.length) '0')

/-- The day or moment that a date names. -/
def Stamp.value (s : Stamp) : Except Defect Value :=
  match s.clock with
  | none => (dateOf s.year s.month s.day).map .date
  | some c => do
    match c.offset with
    | some m => if 24 * 60 ≤ m.natAbs then throw (.offset m)
    | none => pure ()
    let date ← dateOf s.year s.month s.day
    if 23 < c.hour then throw .hour
    if 59 < c.minute then throw .minute
    if 59 < c.second then throw .second
    return .moment
      { date, hour := c.hour, minute := c.minute, second := c.second
        microsecond := microseconds c.fraction, offset := c.offset }

end Storyline.Yaml
