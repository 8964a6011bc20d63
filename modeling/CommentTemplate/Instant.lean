import CommentTemplate.Text.Blank

/-!
# Instants

An instant is a date and time of day in UTC with nanoseconds.  It is written in the Internet date
and time format: with the designator `Z`, and with as many groups of three fraction digits as it
needs.

## Main definitions

* `Date.next`, `Date.previous` — neighbouring days of the Gregorian calendar
* `Instant.text` — the written form
* `Instant.parse?` — the instant that a text denotes, with any offset from UTC

## Design decisions

**Reading is lenient.**  Numbers may be preceded by blanks and have fewer digits than usual, the
date and time may be separated by `T`, `t` or a blank, and the offset may be written `Z`, `UTC` or
as hours and minutes with any colons and blanks between them.  Further fraction digits than nine
are dropped.

**Offsets move by at most a day.**  An offset is less than a day, so the date in UTC is the
written date or a neighbour of it.

**Leap seconds.**  A sixtieth second is kept as it is.
-/

namespace CommentTemplate

/-- A day of the Gregorian calendar. -/
structure Date where
  /-- The year, in astronomical numbering. -/
  year : Int
  (month day : Nat)
deriving DecidableEq, Repr

namespace Date

/-- Whether a year has a leap day. -/
def isLeap (year : Int) : Bool := year % 4 = 0 && (year % 100 ≠ 0 || year % 400 = 0)

/-- The number of days of a month. -/
def monthLength (year : Int) (month : Nat) : Nat :=
  if month = 2 then (if isLeap year then 29 else 28)
  else if month = 4 ∨ month = 6 ∨ month = 9 ∨ month = 11 then 30
  else 31

/-- Whether month and day exist. -/
def isValid (d : Date) : Bool :=
  1 ≤ d.month && d.month ≤ 12 && 1 ≤ d.day && d.day ≤ monthLength d.year d.month

/-- The day after. -/
def next (d : Date) : Date :=
  if d.day < monthLength d.year d.month then { d with day := d.day + 1 }
  else if d.month < 12 then ⟨d.year, d.month + 1, 1⟩
  else ⟨d.year + 1, 1, 1⟩

/-- The day before. -/
def previous (d : Date) : Date :=
  if 1 < d.day then { d with day := d.day - 1 }
  else if 1 < d.month then ⟨d.year, d.month - 1, monthLength d.year (d.month - 1)⟩
  else ⟨d.year - 1, 12, 31⟩

end Date

/-- A moment, as date and time of day in UTC. -/
structure Instant where
  /-- The day. -/
  date : Date
  /-- The minute of the day. -/
  minute : Nat
  /-- The second of the minute, sixty in a leap second. -/
  second : Nat
  /-- The fraction of the second in nanoseconds. -/
  nanosecond : Nat
deriving DecidableEq, Repr

namespace Instant

/-! ## Writing -/

/-- A number with at least `width` digits. -/
def padded (width n : Nat) : Text :=
  let digits := Text.ofNat n
  List.replicate (width - digits.length) '0' ++ digits

/-- A year: four digits for the years 0 to 9999, otherwise a sign and at least four digits. -/
def yearText (year : Int) : Text :=
  if 0 ≤ year ∧ year ≤ 9999 then padded 4 year.toNat
  else (if year < 0 then '-' else '+') :: padded 4 year.natAbs

/-- The fraction of a second: nothing, or a point and three, six or nine digits. -/
def fractionText (nanosecond : Nat) : Text :=
  if nanosecond = 0 then []
  else if nanosecond % 1000000 = 0 then '.' :: padded 3 (nanosecond / 1000000)
  else if nanosecond % 1000 = 0 then '.' :: padded 6 (nanosecond / 1000)
  else '.' :: padded 9 nanosecond

/-- The written form. -/
def text (i : Instant) : Text :=
  yearText i.date.year ++ '-' :: (padded 2 i.date.month ++ '-' :: (padded 2 i.date.day ++ 'T' ::
    (padded 2 (i.minute / 60) ++ ':' :: (padded 2 (i.minute % 60) ++ ':' ::
      (padded 2 i.second ++ (fractionText i.nanosecond ++ ['Z']))))))

/-! ## Reading -/

/-- The number written by some digits. -/
def digitsValue (ds : Text) : Nat := ds.foldl (fun n d => 10 * n + (d.toNat - '0'.toNat)) 0

/-- A number of at least one and at most `width` digits, and the rest. -/
def number (width : Nat) (s : Text) : Option (Nat × Text) :=
  let ds := (s.take width).takeWhile Char.isDigit
  if ds = [] then none else some (digitsValue ds, s.drop ds.length)

/-- A number of any length, and the rest. -/
def longNumber (s : Text) : Option (Nat × Text) := number s.length s

/-- A year: at most four digits, or a sign and any number of digits. -/
def year (s : Text) : Option (Int × Text) :=
  match Text.trimStart s with
  | '-' :: t => (longNumber t).map fun r => (-r.1, r.2)
  | '+' :: t => (longNumber t).map fun r => (r.1, r.2)
  | t => (number 4 t).map fun r => (r.1, r.2)

/-- One given character after blanks, and the rest. -/
def mark (c : Char) (s : Text) : Option Text :=
  match Text.trimStart s with
  | d :: t => if d = c then some t else none
  | [] => none

/-- At most two digits after blanks, and the rest. -/
def twoDigits (s : Text) : Option (Nat × Text) := number 2 (Text.trimStart s)

/-- A fraction of a second in nanoseconds, if there is one, and the rest. -/
def fraction (s : Text) : Option (Nat × Text) :=
  match s with
  | '.' :: t =>
    let ds := t.takeWhile Char.isDigit
    if ds = [] then none
    else
      let kept := ds.take 9
      some (digitsValue kept * Nat.pow 10 (9 - kept.length), t.dropWhile Char.isDigit)
  | s => some (0, s)

/-- Exactly two digits, and the rest. -/
def digitPair : Text → Option (Nat × Text)
  | c :: d :: t =>
    if c.isDigit ∧ d.isDigit then some (digitsValue [c, d], t) else none
  | _ => none

/-- An offset from UTC in minutes, and the rest. -/
def offset (s : Text) : Option (Int × Text) :=
  let hoursAndMinutes (t : Text) : Option (Nat × Text) := do
    let (hours, t) ← digitPair t
    let (minutes, t) ← digitPair (t.dropWhile fun c => c = ':' || isBlank c)
    if minutes ≤ 59 then some (60 * hours + minutes, t) else none
  match s with
  | [] => none
  | c :: t =>
    if (s.take 3).map Char.toUpper = "UTC".toList then some (0, s.drop 3)
    else if c = 'Z' ∨ c = 'z' then some (0, t)
    else if c = '+' then (hoursAndMinutes t).map fun r => (r.1, r.2)
    else if c = '-' ∨ c = '\u2212' then (hoursAndMinutes t).map fun r => (-r.1, r.2)
    else none

/-- The instant with a date and minute of the day at an offset from UTC. -/
def atOffset (date : Date) (minute second nanosecond : Nat) (offset : Int) : Instant :=
  let utc : Int := minute - offset
  if utc < 0 then ⟨date.previous, (utc + 1440).toNat, second, nanosecond⟩
  else if 1440 ≤ utc then ⟨date.next, (utc - 1440).toNat, second, nanosecond⟩
  else ⟨date, utc.toNat, second, nanosecond⟩

/-- The years that instants may have. -/
def yearInRange (year : Int) : Bool := -262143 ≤ year && year ≤ 262142

/-- The instant that a text denotes. -/
def parse? (s : Text) : Option Instant := do
  let (year, s) ← year s
  let s ← mark '-' s
  let (month, s) ← twoDigits s
  let s ← mark '-' s
  let (day, s) ← twoDigits s
  let s ← match s with
    | c :: t => if c = 'T' ∨ c = 't' ∨ c = ' ' then some t else none
    | [] => none
  let (hour, s) ← twoDigits s
  let s ← mark ':' s
  let (minute, s) ← twoDigits s
  let s ← mark ':' s
  let (second, s) ← twoDigits s
  let (nanosecond, s) ← fraction s
  let (offset, s) ← offset (Text.trimStart s)
  let date := Date.mk year month day
  let instant := atOffset date (60 * hour + minute) second nanosecond offset
  if Text.trimStart s = [] ∧ date.isValid ∧ yearInRange year ∧ hour ≤ 23 ∧ minute ≤ 59 ∧
      second ≤ 60 ∧ offset.natAbs < 1440 ∧ yearInRange instant.date.year then
    some instant
  else none

end Instant

end CommentTemplate
