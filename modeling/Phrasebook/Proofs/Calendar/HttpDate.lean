import Phrasebook.Calendar.HttpDate
import Phrasebook.Proofs.Calendar.Format
import Phrasebook.Proofs.Text.Canonical

/-!
Dates of headers. A date that is written in the form of a header is read back to the second, as long as
its year has four digits.
-/

namespace Phrasebook.Calendar

open Text

theorem scanNumber_append {low high : Nat} {ds : List Char} (hDigits : ∀ c ∈ ds, isDigit c = true)
    (hLow : low ≤ ds.length) (hHigh : ds.length ≤ high) {c : Char} (hEnd : isDigit c = false)
    (rest : List Char) :
    scanNumber low high (ds ++ c :: rest) = some (digitsValue ds, c :: rest) := by
  have hTake : ((ds ++ c :: rest).takeWhile isDigit).take high = ds := by
    rw [List.takeWhile_append_of_pos hDigits, List.takeWhile_cons_of_neg (by simp [hEnd]),
      List.append_nil, List.take_of_length_le hHigh]
  simp only [scanNumber, hTake, List.drop_left, if_neg (Nat.not_lt.2 hLow)]

/-- A field of digits is read up to the character behind it. -/
theorem scanNumber_lastDigits {low high k n : Nat} (hn : n < 10 ^ k) (hLow : low ≤ k) (hHigh : k ≤ high)
    {c : Char} (hEnd : isDigit c = false) (rest : List Char) :
    scanNumber low high (lastDigits k n ++ c :: rest) = some (n, c :: rest) := by
  rw [scanNumber_append (fun _ => isDigit_of_mem_lastDigits) (by rwa [length_lastDigits])
    (by rwa [length_lastDigits]) hEnd, digitsValue_lastDigits hn]

theorem scanName_append {names : List String} {name : List Char} {i : Nat} (hLength : name.length = 3)
    (hFind : (names.findIdx? fun other => lowerList name == lowerList other.toList) = some i)
    (rest : List Char) : scanName names (name ++ rest) = some (i, rest) := by
  have hTake : (name ++ rest).take 3 = name := List.take_left' hLength
  have hDrop : (name ++ rest).drop 3 = rest := List.drop_left' hLength
  have hEnough : ¬(name ++ rest).length < 3 := by
    rw [List.length_append]
    omega
  rw [scanName, if_neg hEnough, hTake, hFind, hDrop, Option.map_some]

theorem length_weekdayName : ∀ i < 7, (weekdayNames.getD i "").toList.length = 3 := by decide

theorem length_monthName : ∀ i < 12, (monthNames.getD i "").toList.length = 3 := by decide

theorem findIdx?_weekdayName : ∀ i < 7, (weekdayNames.findIdx? fun other =>
    lowerList (weekdayNames.getD i "").toList == lowerList other.toList) = some i := by decide

theorem findIdx?_monthName : ∀ i < 12, (monthNames.findIdx? fun other =>
    lowerList (monthNames.getD i "").toList == lowerList other.toList) = some i := by decide

/-- A blank is passed over when none follows it. -/
theorem trimLeft_append {front : List Char} (h : isBlank (front.headD ' ') = false) (rest : List Char) :
    trimLeft (front ++ rest) = front ++ rest := by
  cases front with
  | nil => exact absurd h (by decide)
  | cons c front => exact List.dropWhile_cons_of_neg (by simpa using h)

theorem scanSpace_append {front : List Char} (h : isBlank (front.headD ' ') = false) (rest : List Char) :
    scanSpace (' ' :: (front ++ rest)) = some (front ++ rest) :=
  congrArg some (trimLeft_append h rest)

theorem isBlank_of_isDigit {c : Char} (h : isDigit c = true) : isBlank c = false := by
  have hCode : 48 ≤ c.toNat ∧ c.toNat ≤ 57 := by simpa [isDigit, Char.le_def, UInt32.le_iff_toNat_le] using h
  simp [isBlank]
  omega

theorem isBlank_lastDigits {k : Nat} (hWidth : 0 < k) (n : Nat) :
    isBlank ((lastDigits k n).headD ' ') = false := by
  have hLength := length_lastDigits k n
  cases hDigits : lastDigits k n with
  | nil =>
      rw [hDigits] at hLength
      exact absurd hLength (Nat.ne_of_lt hWidth)
  | cons d ds => exact isBlank_of_isDigit (isDigit_of_mem_lastDigits (hDigits ▸ List.mem_cons_self))

theorem isBlank_weekdayName : ∀ i < 7, isBlank ((weekdayNames.getD i "").toList.headD ' ') = false := by
  decide

theorem isBlank_monthName : ∀ i < 12, isBlank ((monthNames.getD i "").toList.headD ' ') = false := by
  decide

theorem scanWeekday_append {w : Nat} (hw : w < 7) (rest : List Char) :
    scanWeekday ((weekdayNames.getD w "").toList ++ ',' :: rest) = some (some w, rest) := by
  rw [scanWeekday, scanName_append (length_weekdayName w hw) (findIdx?_weekdayName w hw)]
  rfl

theorem scanMonth_append {i : Nat} (hi : i < 12) (rest : List Char) :
    scanName monthNames ((monthNames.getD i "").toList ++ rest) = some (i, rest) :=
  scanName_append (length_monthName i hi) (findIdx?_monthName i hi) rest

/-- A field of two digits, behind blanks or not. -/
theorem scanTwo_append {low n : Nat} (hLow : low ≤ 2) (hn : n < 10 ^ 2) {c : Char}
    (hEnd : isDigit c = false) (rest : List Char) :
    scanNumber low 2 (trimLeft (lastDigits 2 n ++ c :: rest)) = some (n, c :: rest) := by
  rw [trimLeft_append (isBlank_lastDigits (by decide) n), scanNumber_lastDigits hn hLow le_rfl hEnd]

theorem scanSeconds_append {n : Nat} (hn : n < 10 ^ 2) {c : Char} (hEnd : isDigit c = false)
    (rest : List Char) : scanSeconds (':' :: (lastDigits 2 n ++ c :: rest)) = some (n, c :: rest) :=
  scanNumber_lastDigits hn le_rfl le_rfl hEnd rest

/-- The characters of a date of a header, for a day of the week and a moment. -/
def headerChars (w : Nat) (m : Moment) : List Char :=
  (weekdayNames.getD w "").toList ++ ',' :: ' ' :: (lastDigits 2 m.date.day ++ ' ' ::
    ((monthNames.getD (m.date.month - 1) "").toList ++ ' ' :: (lastDigits 4 m.date.year.toNat ++ ' ' ::
      (lastDigits 2 m.hour ++ ':' :: (lastDigits 2 m.minute ++ ':' :: (lastDigits 2 m.second ++ ' ' ::
        ['G', 'M', 'T']))))))

theorem toList_httpDate {s : Int} (h : HasFourDigitYear s) :
    (httpDate s).toList = headerChars (weekday (s.fdiv 86400)) (Moment.ofSeconds s) := by
  have hOrdinary := ofSeconds_isOrdinary s
  simp only [httpDate, Moment.clock, String.toList_append, toList_twoDigits hOrdinary.day_lt,
    toList_yearText h.1 h.2, toList_twoDigits hOrdinary.hour_lt, toList_twoDigits hOrdinary.minute_lt,
    toList_twoDigits hOrdinary.second_lt]
  simp [headerChars]

/-- The text of a date begins and ends without a blank. -/
theorem trim_headerChars {w : Nat} (hw : w < 7) (m : Moment) :
    trim (String.ofList (headerChars w m)) = String.ofList (headerChars w m) := by
  have hFront : trimLeft (headerChars w m) = headerChars w m :=
    trimLeft_append (isBlank_weekdayName w hw) _
  have hBack : trimRight (headerChars w m) = headerChars w m := by
    refine List.rdropWhile_eq_self_iff.2 fun hNe => ?_
    have hLast : (headerChars w m).getLast hNe = 'T' := by simp [headerChars]
    rw [hLast]
    decide
  rw [trim, String.toList_ofList, hFront, hBack]

theorem bind_of_some {α β : Type} {o : Option α} {a : α} (h : o = some a) (f : α → Option β) :
    o >>= f = f a := by
  rw [h]
  rfl

/-- The parts of a date one after the other, with what is left of the text behind each of them. -/
theorem parseHttpDate?_eq {s : String} {w? : Option Nat} {day month year hour minute second : Nat}
    {offset : Int} {dayChars afterDay monthChars afterMonth yearChars afterYear hourChars afterHour
      minuteChars afterMinute afterSecond zoneChars : List Char}
    (hWeekday : scanWeekday (trim s).toList = some (w?, dayChars))
    (hDay : scanNumber 1 2 (trimLeft dayChars) = some (day, afterDay))
    (hMonthChars : scanSpace afterDay = some monthChars)
    (hMonth : scanName monthNames monthChars = some (month, afterMonth))
    (hYearChars : scanSpace afterMonth = some yearChars)
    (hYear : scanNumber 2 yearChars.length yearChars = some (year, afterYear))
    (hHourChars : scanSpace afterYear = some hourChars)
    (hHour : scanNumber 2 2 hourChars = some (hour, afterHour))
    (hMinuteChars : scanChar ':' (trimLeft afterHour) = some minuteChars)
    (hMinute : scanNumber 2 2 (trimLeft minuteChars) = some (minute, afterMinute))
    (hSecond : scanSeconds afterMinute = some (second, afterSecond))
    (hZoneChars : scanSpace afterSecond = some zoneChars)
    (hZone : scanZone zoneChars = some (offset, [])) {date : Date}
    (hDate : date = ⟨fullYear (yearChars.length - afterYear.length) year, month + 1, day⟩) :
    parseHttpDate? s =
      if w?.any (· != weekday date.toDays) then none else epochSeconds? date hour minute second offset := by
  subst hDate
  refine (bind_of_some hWeekday _).trans ?_
  refine (bind_of_some hDay _).trans ?_
  refine (bind_of_some hMonthChars _).trans ?_
  refine (bind_of_some hMonth _).trans ?_
  refine (bind_of_some hYearChars _).trans ?_
  refine (bind_of_some hYear _).trans ?_
  refine (bind_of_some hHourChars _).trans ?_
  refine (bind_of_some hHour _).trans ?_
  refine (bind_of_some hMinuteChars _).trans ?_
  refine (bind_of_some hMinute _).trans ?_
  refine (bind_of_some hSecond _).trans ?_
  refine (bind_of_some hZoneChars _).trans ?_
  exact bind_of_some hZone _

theorem parseHttpDate?_headerChars {w : Nat} (hw : w < 7) {m : Moment} (hOrdinary : m.IsOrdinary)
    (hLow : 0 ≤ m.date.year) (hHigh : m.date.year ≤ 9999) (hWeekday : w = weekday m.date.toDays) :
    parseHttpDate? (String.ofList (headerChars w m)) =
      epochSeconds? m.date m.hour m.minute m.second 0 := by
  obtain ⟨hMonthLow, hMonthHigh, -⟩ := Date.valid_iff.1 hOrdinary.date
  have hMonth : m.date.month - 1 < 12 := by omega
  have hYear : m.date.year.toNat < 10 ^ 4 := by omega
  have hText : (trim (String.ofList (headerChars w m))).toList = headerChars w m := by
    rw [trim_headerChars hw, String.toList_ofList]
  have hDate : m.date = ⟨fullYear 4 m.date.year.toNat, m.date.month - 1 + 1, m.date.day⟩ := by
    have hYear : fullYear 4 m.date.year.toNat = m.date.year := Int.toNat_of_nonneg hLow
    rw [hYear, Nat.sub_add_cancel hMonthLow]
  have hDigits : ∀ rest : List Char,
      (lastDigits 4 m.date.year.toNat ++ ' ' :: rest).length - (' ' :: rest).length = 4 := fun rest => by
    rw [List.length_append, length_lastDigits, Nat.add_sub_cancel]
  have hBehind : scanSpace [' ', 'G', 'M', 'T'] = some ['G', 'M', 'T'] := rfl
  have hZone : scanZone ['G', 'M', 'T'] = some (0, []) := by decide
  rw [parseHttpDate?_eq ((congrArg scanWeekday hText).trans (scanWeekday_append hw _))
    (scanTwo_append (by decide) hOrdinary.day_lt (by decide) _)
    (scanSpace_append (isBlank_monthName _ hMonth) _) (scanMonth_append hMonth _)
    (scanSpace_append (isBlank_lastDigits (by decide) _) _)
    (scanNumber_lastDigits hYear (by decide) (by simp [length_lastDigits]) (by decide) _)
    (scanSpace_append (isBlank_lastDigits (by decide) _) _)
    (scanNumber_lastDigits hOrdinary.hour_lt le_rfl le_rfl (by decide) _) rfl
    (scanTwo_append le_rfl hOrdinary.minute_lt (by decide) _)
    (scanSeconds_append hOrdinary.second_lt (by decide) _)
    hBehind hZone ((hDigits _).symm ▸ hDate)]
  simp [hWeekday]

/-- The seconds that the parts of a moment stand for. -/
theorem epochSeconds?_ofSeconds {s : Int} (hHigh : (Moment.ofSeconds s).date.year ≤ 9999) :
    epochSeconds? (Moment.ofSeconds s).date (Moment.ofSeconds s).hour (Moment.ofSeconds s).minute
      (Moment.ofSeconds s).second 0 = some s := by
  obtain ⟨hDate, hHour, hMinute, hSecond⟩ := ofSeconds_isOrdinary s
  have hParts := ofSeconds_parts s
  have hLast : (Moment.ofSeconds s).date.toDays < lastDay := by
    refine toDays_lt_toDays hDate (by decide) ?_
    obtain ⟨-, hMonth, -⟩ := Date.valid_iff.1 hDate
    refine Or.inl ?_
    simp only [Date.monthIndex]
    omega
  have hClock : min (Moment.ofSeconds s).second 59 = (Moment.ofSeconds s).second := Nat.min_eq_left hSecond
  have hYear : (Moment.ofSeconds s).date.year ≤ 262142 := by omega
  have hLeap : (Moment.ofSeconds s).second ≤ 60 := by omega
  have hWithin : s < (lastDay + 1) * 86400 := by omega
  simp [epochSeconds?, hClock, hDate, hYear, hHour, hMinute, hLeap, hParts, hWithin]

theorem parseHttpDate?_httpDate {s : Int} (h : HasFourDigitYear s) :
    parseHttpDate? (httpDate s) = some s := by
  have hWeekday : weekday (s.fdiv 86400) < 7 := by
    rw [weekday, Int.fmod_eq_emod_of_nonneg _ (by decide)]
    omega
  have hDays : (Moment.ofSeconds s).date.toDays = s.fdiv 86400 := toDays_ofDays _
  rw [← String.ofList_toList (s := httpDate s), toList_httpDate h,
    parseHttpDate?_headerChars hWeekday (ofSeconds_isOrdinary s) h.1 h.2 (by rw [hDays]),
    epochSeconds?_ofSeconds h.2]

end Phrasebook.Calendar
