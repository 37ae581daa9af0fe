import GridReport.Tick

/-!
Simulated seconds written as days and a time of day.
-/

namespace GridReport.SimTime

/-- The longest span of seconds that can be written: 64 bits count its milliseconds. -/
def longest : Int := 9223372036854775

def twoDigits (n : Nat) : String := if n < 10 then "0" ++ toString n else toString n

def spanText (seconds : Nat) : String :=
  let days := seconds / 86400
  let clock :=
    twoDigits (seconds / 3600 % 24) ++ ":" ++ twoDigits (seconds / 60 % 60) ++ ":" ++
      twoDigits (seconds % 60)
  if days = 0 then clock else toString days ++ "d " ++ clock

/-- The text of a timestamp: a sign, days if there are any, hours, minutes and seconds. -/
def render (seconds : Int) : Except Defect String :=
  match Tick.checked seconds.natAbs with
  | .error defect => .error defect
  | .ok magnitude =>
    if longest < magnitude then .error .longDuration
    else .ok ((if seconds < 0 then "-" else "") ++ spanText magnitude.toNat)

end GridReport.SimTime
