import Phrasebook.Text.Numeral

/-!
The proleptic Gregorian calendar. Moments are counted in milliseconds or seconds since the start of
1970, in universal time and without leap seconds.
-/

namespace Phrasebook.Calendar

structure Date where
  year : Int
  month : Nat
  day : Nat
  deriving DecidableEq, Repr

def isLeapYear (y : Int) : Bool := y % 4 = 0 && (y % 100 ≠ 0 || y % 400 = 0)

def daysInMonth (y : Int) (m : Nat) : Nat :=
  if m = 2 then if isLeapYear y then 29 else 28
  else if m = 4 ∨ m = 6 ∨ m = 9 ∨ m = 11 then 30
  else 31

def Date.valid (d : Date) : Bool :=
  1 ≤ d.month && d.month ≤ 12 && 1 ≤ d.day && d.day ≤ daysInMonth d.year d.month

/-- Days since 1970-01-01. Years are counted from March, so that a leap day ends its year, and
whole cycles of 400 years are split off. -/
def Date.toDays (d : Date) : Int :=
  let y := if d.month ≤ 2 then d.year - 1 else d.year
  let cycle := y.fdiv 400
  let yearOfCycle := y - cycle * 400
  let monthFromMarch : Int := ((d.month + 9) % 12 : Nat)
  let dayOfYear := (153 * monthFromMarch + 2) / 5 + d.day - 1
  let dayOfCycle := yearOfCycle * 365 + yearOfCycle / 4 - yearOfCycle / 100 + dayOfYear
  cycle * 146097 + dayOfCycle - 719468

def Date.ofDays (n : Int) : Date :=
  let z := n + 719468
  let cycle := z.fdiv 146097
  let dayOfCycle := (z - cycle * 146097).toNat
  let yearOfCycle :=
    (dayOfCycle - dayOfCycle / 1460 + dayOfCycle / 36524 - dayOfCycle / 146096) / 365
  let dayOfYear := dayOfCycle - (365 * yearOfCycle + yearOfCycle / 4 - yearOfCycle / 100)
  let monthFromMarch := (5 * dayOfYear + 2) / 153
  let month := if monthFromMarch < 10 then monthFromMarch + 3 else monthFromMarch - 9
  let year : Int := yearOfCycle + cycle * 400
  ⟨if month ≤ 2 then year + 1 else year, month, dayOfYear - (153 * monthFromMarch + 2) / 5 + 1⟩

/-- Days of the week from Monday, which is zero. -/
def weekday (days : Int) : Nat := ((days + 3).fmod 7).toNat

/-- A moment taken apart. -/
structure Moment where
  date : Date
  hour : Nat
  minute : Nat
  second : Nat
  deriving DecidableEq, Repr

def Moment.ofSeconds (s : Int) : Moment :=
  let ofDay := (s.fmod 86400).toNat
  ⟨Date.ofDays (s.fdiv 86400), ofDay / 3600, ofDay / 60 % 60, ofDay % 60⟩

def secondsOfMillis (ms : Int) : Int := ms.fdiv 1000

def millisWithin (ms : Int) : Nat := (ms.fmod 1000).toNat

def Moment.ofMillis (ms : Int) : Moment := .ofSeconds (secondsOfMillis ms)

end Phrasebook.Calendar
