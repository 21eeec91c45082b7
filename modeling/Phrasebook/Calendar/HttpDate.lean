import Phrasebook.Calendar.Format
import Phrasebook.Text.Blank
import Phrasebook.Text.Search

/-!
Reads the date of a header, in any form that mail messages allow: the day of the week may be left
out, years may have two or three digits, seconds may be missing, the time zone may be a name or a
number, and comments in brackets may follow.
-/

namespace Phrasebook.Calendar

/-- A thing read and the text behind it. -/
abbrev Scan (α : Type) := List Char → Option (α × List Char)

/-- At least `low` and at most `high` digits. -/
def scanNumber (low high : Nat) : Scan Nat := fun cs =>
  let ds := (cs.takeWhile Text.isDigit).take high
  if ds.length < low then none else some (Text.digitsValue ds, cs.drop ds.length)

/-- At least one blank. -/
def scanSpace (cs : List Char) : Option (List Char) :=
  match cs with
  | c :: _ => if Text.isBlank c then some (Text.trimLeft cs) else none
  | [] => none

def scanChar (d : Char) (cs : List Char) : Option (List Char) :=
  match cs with
  | c :: rest => if c = d then some rest else none
  | [] => none

/-- The position of the name, in whatever case, that the text begins with. -/
def scanName (names : List String) : Scan Nat := fun cs =>
  if cs.length < 3 then none
  else
    (names.findIdx? fun name => Text.lowerList (cs.take 3) == Text.lowerList name.toList).map
      fun i => (i, cs.drop 3)

/-- Hours east of Greenwich of the zones that have a name. Single letters are taken for universal
time, but the letter J is not in use. -/
def zoneHours? (name : List Char) : Option Int :=
  match String.ofList (Text.lowerList name) with
  | "gmt" | "ut" | "z" => some 0
  | "edt" => some (-4)
  | "est" | "cdt" => some (-5)
  | "cst" | "mdt" => some (-6)
  | "mst" | "pdt" => some (-7)
  | "pst" => some (-8)
  | "j" => none
  | other => if other.length = 1 then some 0 else none

/-- Seconds east of Greenwich. -/
def scanZone : Scan Int := fun cs =>
  let name := cs.takeWhile Char.isAlpha
  if !name.isEmpty then (zoneHours? name).map fun h => (h * 3600, cs.drop name.length)
  else
    match cs with
    | sign :: h :: k :: m :: n :: rest =>
      if (sign = '+' ∨ sign = '-') ∧ [h, k, m, n].all Text.isDigit ∧ m ≤ '5' then
        let offset : Int := Text.digitsValue [h, k] * 3600 + Text.digitsValue [m, n] * 60
        some (if sign = '-' then -offset else offset, rest)
      else none
    | _ => none

/-- The text behind a comment, of which `depth` brackets are open. A backslash takes the next
character with it. -/
def skipComment : Nat → List Char → Option (List Char)
  | _, [] => none
  | depth, '\\' :: _ :: rest => skipComment depth rest
  | depth, '(' :: rest => skipComment (depth + 1) rest
  | depth, ')' :: rest =>
    match depth with
    | 0 | 1 => some rest
    | depth => skipComment (depth - 1) rest
  | depth, _ :: rest => skipComment depth rest

/-- Only comments, each behind blanks; `fuel` bounds their number. -/
def onlyComments : Nat → List Char → Bool
  | _, [] => true
  | 0, _ => false
  | fuel + 1, cs =>
    match Text.trimLeft cs with
    | '(' :: rest =>
      match skipComment 1 rest with
      | some rest => onlyComments fuel rest
      | none => false
    | _ => false

/-- Years of two digits are from 1950 to 2049, and those of three are counted from 1900. -/
def fullYear (digits year : Nat) : Int :=
  if digits = 2 then if year < 50 then year + 2000 else year + 1900
  else if digits = 3 then year + 1900
  else year

/-- The last day that a date may be. -/
def lastDay : Int := Date.toDays ⟨262142, 12, 31⟩

/-- An optional day of the week, which a comma must follow. -/
def scanWeekday (cs : List Char) : Option (Option Nat × List Char) :=
  match scanName weekdayNames cs with
  | some (i, rest) => (scanChar ',' rest).map (some i, ·)
  | none => some (none, cs)

/-- Seconds are optional. -/
def scanSeconds : Scan Nat := fun cs =>
  match scanChar ':' (Text.trimLeft cs) with
  | some rest => scanNumber 2 2 rest
  | none => some (0, cs)

/-- The seconds since 1970 that a date and time of day, read `offset` seconds east of Greenwich,
stand for; the last second of a minute may be written as its sixtieth. -/
def epochSeconds? (date : Date) (hour minute second : Nat) (offset : Int) : Option Int :=
  if date.valid && date.year ≤ 262142 && hour ≤ 23 && minute ≤ 59 && second ≤ 60 &&
      -86400 < offset && offset < 86400 then
    let t := date.toDays * 86400 + hour * 3600 + minute * 60 + min second 59 - offset
    if t < (lastDay + 1) * 86400 then some t else none
  else none

def parseHttpDate? (s : String) : Option Int := do
  let (weekday?, cs) ← scanWeekday (Text.trim s).toList
  let (day, cs) ← scanNumber 1 2 (Text.trimLeft cs)
  let (month, cs) ← scanName monthNames (← scanSpace cs)
  let cs ← scanSpace cs
  let (year, afterYear) ← scanNumber 2 cs.length cs
  let (hour, afterHour) ← scanNumber 2 2 (← scanSpace afterYear)
  let (minute, afterMinute) ←
    scanNumber 2 2 (Text.trimLeft (← scanChar ':' (Text.trimLeft afterHour)))
  let (second, afterSecond) ← scanSeconds afterMinute
  let (offset, rest) ← scanZone (← scanSpace afterSecond)
  let date : Date := ⟨fullYear (cs.length - afterYear.length) year, month + 1, day⟩
  if !onlyComments rest.length rest then none
  else if weekday?.any (· != weekday date.toDays) then none
  else epochSeconds? date hour minute second offset

end Phrasebook.Calendar
