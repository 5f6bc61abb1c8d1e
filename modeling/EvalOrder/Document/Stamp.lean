/-!
# Dates and times

A date of the Gregorian calendar in the years 1 to 9999, and a time on such a date to the microsecond, which may know
how far its clock is ahead of universal time. Two times that know it are compared by the instants that they name; those
that do not are compared by what their clocks show.

These are `date` and `datetime` as a timestamp in a document gives them (`check` is the constructor, `shown` is `repr`).
Left out are arithmetic and clocks that are put forward or back.
-/

namespace EvalOrder

/-- Why numbers are no date or no time. -/
inductive StampFault where
  | year (n : Nat)
  | month
  | day
  | hour
  | minute
  | second
  /-- A clock that is a day or more, in seconds, off universal time. -/
  | offset (seconds : Int)
  deriving DecidableEq, Repr

/-- The seconds of a day. -/
def secondsPerDay : Nat := 86400

/-- A number of seconds as whole days and the seconds that remain. -/
def shownSpan (seconds : Int) : String :=
  let days := Int.fdiv seconds secondsPerDay
  let rest := Int.fmod seconds secondsPerDay
  let parts := (if days = 0 then [] else [s!"days={days}"]) ++ (if rest = 0 then [] else [s!"seconds={rest}"])
  "datetime.timedelta(" ++ (if parts.isEmpty then "0" else ", ".intercalate parts) ++ ")"

def StampFault.message : StampFault → String
  | year n => s!"year {n} is out of range"
  | month => "month must be in 1..12"
  | day => "day is out of range for month"
  | hour => "hour must be in 0..23"
  | minute => "minute must be in 0..59"
  | second => "second must be in 0..59"
  | offset seconds =>
    "offset must be a timedelta strictly between -timedelta(hours=24) and timedelta(hours=24), not " ++
      shownSpan seconds ++ "."

/-- A date. -/
structure Date where
  year : Nat
  month : Nat
  day : Nat
  deriving DecidableEq, Repr

namespace Date

def isLeap (year : Nat) : Bool := year % 4 = 0 && (year % 100 ≠ 0 || year % 400 = 0)

/-- The days of the months of a year. -/
def monthLengths (year : Nat) : List Nat :=
  [31, if isLeap year then 29 else 28, 31, 30, 31, 30, 31, 31, 30, 31, 30, 31]

/-- The number of days in a month, from 1. -/
def daysIn (year month : Nat) : Nat := (monthLengths year).getD (month - 1) 0

/-- The date of three numbers, if there is one. -/
def check (year month day : Nat) : Except StampFault Date :=
  if year < 1 ∨ 9999 < year then .error (.year year)
  else if month < 1 ∨ 12 < month then .error .month
  else if day < 1 ∨ daysIn year month < day then .error .day
  else .ok ⟨year, month, day⟩

/-- The number of days from the beginning of the year 1 to the end of a date. -/
def ordinal (d : Date) : Nat :=
  let past := d.year - 1
  365 * past + past / 4 - past / 100 + past / 400 +
    ((monthLengths d.year).take (d.month - 1)).foldl (· + ·) 0 + d.day

/-- The numbers of a date as messages show them. -/
def parts (d : Date) : List Nat := [d.year, d.month, d.day]

end Date

/-- A time of a date. -/
structure Time where
  date : Date
  hour : Nat
  minute : Nat
  second : Nat
  microsecond : Nat
  /-- How far the clock is ahead of universal time, in seconds, if that is known. -/
  offset : Option Int
  deriving DecidableEq, Repr

namespace Time

/-- The time of a clock on a date, if there is one. -/
def check (date : Date) (hour minute second microsecond : Nat) (offset : Option Int) : Except StampFault Time :=
  if 23 < hour then .error .hour
  else if 59 < minute then .error .minute
  else if 59 < second then .error .second
  else .ok ⟨date, hour, minute, second, microsecond, offset⟩

/-- Microseconds up to what a clock shows, less the clock's offset. -/
def instant (t : Time) : Int :=
  let seconds : Int := t.date.ordinal * secondsPerDay + t.hour * 3600 + t.minute * 60 + t.second
  (seconds - t.offset.getD 0) * 1000000 + t.microsecond

/-- Both times know their offsets, or neither does. -/
def comparable (s t : Time) : Bool := s.offset.isSome = t.offset.isSome

/-- The times name the same instant. -/
def same (s t : Time) : Bool := s.comparable t && s.instant = t.instant

/-- One time is before another, if they can be compared. -/
def before? (s t : Time) : Option Bool := if s.comparable t then some (s.instant < t.instant) else none

/-- The offset as messages show it. -/
def shownOffset (seconds : Int) : String :=
  if seconds = 0 then "datetime.timezone.utc" else "datetime.timezone(" ++ shownSpan seconds ++ ")"

/-- The numbers of a time as messages show them; seconds and microseconds that are zero are left out at the end. -/
def parts (t : Time) : List Nat :=
  t.date.parts ++ [t.hour, t.minute] ++
    (if t.microsecond ≠ 0 then [t.second, t.microsecond] else if t.second ≠ 0 then [t.second] else [])

end Time

/-- A date as messages show it. -/
def Date.shown (d : Date) : String :=
  "datetime.date(" ++ ", ".intercalate (d.parts.map toString) ++ ")"

/-- A time as messages show it. -/
def Time.shown (t : Time) : String :=
  let zone := match t.offset with
    | some seconds => [s!"tzinfo={shownOffset seconds}"]
    | none => []
  "datetime.datetime(" ++ ", ".intercalate (t.parts.map toString ++ zone) ++ ")"

end EvalOrder
