import Phrasebook.Calendar.Basic

/-!
Written forms of a moment. A year has at least four digits; outside 0 to 9999 its sign is written.
-/

namespace Phrasebook.Calendar

def yearText (y : Int) : String :=
  if 0 ≤ y ∧ y ≤ 9999 then Text.padded 4 y.toNat
  else if y < 0 then "-" ++ Text.padded 4 y.natAbs
  else "+" ++ Text.padded 4 y.natAbs

def twoDigits (n : Nat) : String := Text.padded 2 n

/-- As in 2025-05-04. -/
def Date.text (d : Date) : String :=
  yearText d.year ++ "-" ++ twoDigits d.month ++ "-" ++ twoDigits d.day

/-- As in 22:19:07. -/
def Moment.clock (m : Moment) : String :=
  twoDigits m.hour ++ ":" ++ twoDigits m.minute ++ ":" ++ twoDigits m.second

/-- As in 2025-05-04T22:19:07Z, to the second. -/
def isoSeconds (ms : Int) : String :=
  let m := Moment.ofMillis ms
  m.date.text ++ "T" ++ m.clock ++ "Z"

/-- Milliseconds behind a point, when there are any. -/
def fractionText (ms : Int) : String :=
  if millisWithin ms = 0 then "" else "." ++ Text.padded 3 (millisWithin ms)

/-- To the millisecond, with the given sign for universal time at the end. -/
def isoMillis (zone : String) (ms : Int) : String :=
  let m := Moment.ofMillis ms
  m.date.text ++ "T" ++ m.clock ++ fractionText ms ++ zone

/-- As in 20250504_221907. The stamp is one of local time, which is taken to be universal time here. -/
def fileStamp (ms : Int) : String :=
  let m := Moment.ofMillis ms
  yearText m.date.year ++ twoDigits m.date.month ++ twoDigits m.date.day ++ "_" ++
    twoDigits m.hour ++ twoDigits m.minute ++ twoDigits m.second

/-- As in 2025-05-04 22:19:07, in local time, which is taken to be universal time here. -/
def listingTime (seconds : Int) : String :=
  let m := Moment.ofSeconds seconds
  m.date.text ++ " " ++ m.clock

def weekdayNames : List String := ["Mon", "Tue", "Wed", "Thu", "Fri", "Sat", "Sun"]

def monthNames : List String :=
  ["Jan", "Feb", "Mar", "Apr", "May", "Jun", "Jul", "Aug", "Sep", "Oct", "Nov", "Dec"]

/-- As in Sun, 04 May 2025 22:19:07 GMT. -/
def httpDate (seconds : Int) : String :=
  let m := Moment.ofSeconds seconds
  weekdayNames.getD (weekday (seconds.fdiv 86400)) "" ++ ", " ++ twoDigits m.date.day ++ " " ++
    monthNames.getD (m.date.month - 1) "" ++ " " ++ yearText m.date.year ++ " " ++ m.clock ++ " GMT"

end Phrasebook.Calendar
