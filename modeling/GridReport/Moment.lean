import GridReport.SimTime

/-!
Moments as dates with a time of day, in universal time.

Years are counted from March, so that the day that only some years have is their last one. Four
hundred years always have the same number of days.
-/

namespace GridReport

/-- A moment, by the time since the year 1970 began. -/
structure Moment where
  seconds : Nat
  /-- The part of a second, in thousand millionths. -/
  nanoseconds : Nat
deriving Repr, DecidableEq

/-- A day of a calendar. -/
structure Date where
  year : Nat
  month : Nat
  day : Nat
deriving Repr, DecidableEq

namespace Date

/-- The days from the first of March of the year zero to the start of the year 1970. -/
def daysBefore1970 : Nat := 719468

/-- The days of four hundred years. -/
def daysOfCycle : Nat := 146097

/-- The date so many days after the start of the year 1970. -/
def ofDays (days : Nat) : Date :=
  let all := days + daysBefore1970
  let inCycle := all % daysOfCycle
  let yearInCycle := (inCycle - inCycle / 1460 + inCycle / 36524 - inCycle / 146096) / 365
  let inYear := inCycle - (365 * yearInCycle + yearInCycle / 4 - yearInCycle / 100)
  let month := (5 * inYear + 2) / 153
  let year := 400 * (all / daysOfCycle) + yearInCycle
  let day := inYear - (153 * month + 2) / 5 + 1
  if month < 10 then ⟨year, month + 3, day⟩ else ⟨year + 1, month - 9, day⟩

def render (date : Date) : String :=
  toString date.year ++ "-" ++ SimTime.twoDigits date.month ++ "-" ++ SimTime.twoDigits date.day

end Date

namespace Moment

/-- A number with zeros in front, up to `width` digits. -/
def padded (width n : Nat) : String :=
  let digits := toString n
  String.ofList (List.replicate (width - digits.length) '0') ++ digits

/-- The part of a second after a point, in as many groups of three digits as it takes. -/
def fractionText (nanoseconds : Nat) : String :=
  if nanoseconds = 0 then ""
  else if nanoseconds % 1000000 = 0 then "." ++ padded 3 (nanoseconds / 1000000)
  else if nanoseconds % 1000 = 0 then "." ++ padded 6 (nanoseconds / 1000)
  else "." ++ padded 9 nanoseconds

/-- The text of a moment: date, time of day and the distance from universal time, which is none. -/
def render (moment : Moment) : String :=
  let ofDay := moment.seconds % 86400
  (Date.ofDays (moment.seconds / 86400)).render ++ "T" ++
    SimTime.twoDigits (ofDay / 3600) ++ ":" ++ SimTime.twoDigits (ofDay / 60 % 60) ++ ":" ++
    SimTime.twoDigits (ofDay % 60) ++ fractionText moment.nanoseconds ++ "+00:00"

end Moment

end GridReport
