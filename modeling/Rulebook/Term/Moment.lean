/-!
# Dates and times

A document may hold dates of the Gregorian calendar, and times of such days with an offset from
universal time.  Programs only pass them on, compare them for equality and show them.
-/

namespace Rulebook

/-- A date, or a time of a day. -/
inductive Moment where
  | date (year month day : Nat)
  /-- The offset from universal time, if it is known, is in minutes. -/
  | time (year month day hour minute second microsecond : Nat) (offset : Option Int)
deriving DecidableEq, Inhabited

namespace Moment

def isLeap (year : Nat) : Bool :=
  year % 4 = 0 && (year % 100 ≠ 0 || year % 400 = 0)

def daysIn (year month : Nat) : Nat :=
  if month = 2 then if isLeap year then 29 else 28
  else if month = 4 || month = 6 || month = 9 || month = 11 then 30
  else 31

def isDay (year month day : Nat) : Bool :=
  1 ≤ year && 1 ≤ month && month ≤ 12 && 1 ≤ day && day ≤ daysIn year month

def minutesPerDay : Nat := 1440

/-- Whether there is such a moment.  Offsets are less than a day. -/
def isValid : Moment → Bool
  | .date year month day => isDay year month day
  | .time year month day hour minute second _ offset =>
    isDay year month day && hour < 24 && minute < 60 && second < 60 &&
      (match offset with
        | some offset => offset.natAbs < minutesPerDay
        | none => true)

/-- How an offset is shown: as a zone, whose distance is in seconds. -/
def displayOffset (offset : Int) : String :=
  if offset = 0 then "datetime.timezone.utc"
  else
    let distance :=
      if 0 < offset then "seconds=" ++ toString (60 * offset)
      else "days=-1, seconds=" ++ toString (60 * (minutesPerDay + offset))
    "datetime.timezone(datetime.timedelta(" ++ distance ++ "))"

/-- The part of a time after its minutes; zeros at the end are left out. -/
def secondsShown (second microsecond : Nat) : List Nat :=
  if microsecond ≠ 0 then [second, microsecond] else if second ≠ 0 then [second] else []

def display : Moment → String
  | .date year month day =>
    "datetime.date(" ++ ", ".intercalate ([year, month, day].map toString) ++ ")"
  | .time year month day hour minute second microsecond offset =>
    let numbers := [year, month, day, hour, minute] ++ secondsShown second microsecond
    let zone := (offset.map fun offset => "tzinfo=" ++ displayOffset offset).toList
    "datetime.datetime(" ++ ", ".intercalate (numbers.map toString ++ zone) ++ ")"

def typeName : Moment → String
  | .date .. => "date"
  | .time .. => "datetime"

end Moment

end Rulebook
