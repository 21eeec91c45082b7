import Phrasebook.Calendar.Format
import Phrasebook.Proofs.Calendar.Days
import Phrasebook.Proofs.Text.Numeral

/-!
Written moments. From year 0 to 9999 every part of a moment is written in a field of its own width.
-/

namespace Phrasebook.Calendar

open Text

/-- The year is written with four digits and without a sign. -/
def HasFourDigitYear (seconds : Int) : Prop :=
  0 ≤ (Moment.ofSeconds seconds).date.year ∧ (Moment.ofSeconds seconds).date.year ≤ 9999

theorem toList_twoDigits {n : Nat} (h : n < 100) : (twoDigits n).toList = lastDigits 2 n :=
  toList_padded (by decide) h

theorem toList_yearText {y : Int} (hLow : 0 ≤ y) (hHigh : y ≤ 9999) :
    (yearText y).toList = lastDigits 4 y.toNat := by
  rw [yearText, if_pos ⟨hLow, hHigh⟩, toList_padded (by decide) (by omega)]

section

variable {m : Moment}

theorem Moment.IsOrdinary.month_lt (h : m.IsOrdinary) : m.date.month < 100 := by
  obtain ⟨-, hMonth, -⟩ := Date.valid_iff.1 h.date
  omega

theorem Moment.IsOrdinary.day_lt (h : m.IsOrdinary) : m.date.day < 100 := by
  obtain ⟨-, -, -, hDay⟩ := Date.valid_iff.1 h.date
  have hMonth : daysInMonth m.date.year m.date.month ≤ 31 := by
    unfold daysInMonth
    split
    · split <;> omega
    · split <;> omega
  omega

theorem Moment.IsOrdinary.hour_lt (h : m.IsOrdinary) : m.hour < 100 :=
  Nat.lt_of_le_of_lt h.hour (by decide)

theorem Moment.IsOrdinary.minute_lt (h : m.IsOrdinary) : m.minute < 100 :=
  Nat.lt_of_le_of_lt h.minute (by decide)

theorem Moment.IsOrdinary.second_lt (h : m.IsOrdinary) : m.second < 100 :=
  Nat.lt_of_le_of_lt h.second (by decide)

end

theorem fileStamp_congr {now now' : Int} (h : secondsOfMillis now = secondsOfMillis now') :
    fileStamp now = fileStamp now' := by
  rw [fileStamp, Moment.ofMillis, h]
  rfl

/-- The characters of the stamp of a moment. -/
def stampChars (m : Moment) : List Char :=
  lastDigits 4 m.date.year.toNat ++ (lastDigits 2 m.date.month ++ (lastDigits 2 m.date.day ++ '_' ::
    (lastDigits 2 m.hour ++ (lastDigits 2 m.minute ++ lastDigits 2 m.second))))

theorem toList_fileStamp {now : Int} (h : HasFourDigitYear (secondsOfMillis now)) :
    (fileStamp now).toList = stampChars (Moment.ofSeconds (secondsOfMillis now)) := by
  have hOrdinary := ofSeconds_isOrdinary (secondsOfMillis now)
  simp only [fileStamp, Moment.ofMillis, String.toList_append, toList_yearText h.1 h.2,
    toList_twoDigits hOrdinary.month_lt, toList_twoDigits hOrdinary.day_lt, toList_twoDigits hOrdinary.hour_lt,
    toList_twoDigits hOrdinary.minute_lt, toList_twoDigits hOrdinary.second_lt]
  simp [stampChars]

theorem length_stampChars (m : Moment) : (stampChars m).length = 15 := by
  simp [stampChars, length_lastDigits]

theorem stampChars_lt {m n : Moment} (hm : m.IsOrdinary) (hn : n.IsOrdinary) (hYear : 0 ≤ m.date.year)
    (hYear' : n.date.year ≤ 9999)
    (h : m.date.IsBefore n.date ∨ m.date = n.date ∧ (m.hour < n.hour ∨ m.hour = n.hour ∧
      (m.minute < n.minute ∨ m.minute = n.minute ∧ m.second < n.second))) :
    stampChars m < stampChars n := by
  obtain ⟨hLow, hHigh, -⟩ := Date.valid_iff.1 hm.date
  obtain ⟨hLow', hHigh', -⟩ := Date.valid_iff.1 hn.date
  rw [stampChars, stampChars]
  rcases h with hBefore | ⟨hSame, hClock⟩
  · have hFields : m.date.year.toNat < n.date.year.toNat ∨ m.date.year.toNat = n.date.year.toNat ∧
        (m.date.month < n.date.month ∨ m.date.month = n.date.month ∧ m.date.day < n.date.day) := by
      simp only [Date.IsBefore, Date.monthIndex] at hBefore
      omega
    refine lastDigits_append_lt (by omega) (hFields.imp_right (And.imp_right fun hFields => ?_))
    refine lastDigits_append_lt hn.month_lt (hFields.imp_right (And.imp_right fun hDay => ?_))
    exact lastDigits_append_lt hn.day_lt (Or.inl hDay)
  · rw [hSame]
    refine List.append_left_lt (List.append_left_lt (List.append_left_lt ?_))
    refine List.cons_lt_cons_iff.2 (Or.inr ⟨rfl, ?_⟩)
    refine lastDigits_append_lt hn.hour_lt (hClock.imp_right (And.imp_right fun hClock => ?_))
    refine lastDigits_append_lt hn.minute_lt (hClock.imp_right (And.imp_right fun hClock => ?_))
    exact lastDigits_lt hn.second_lt hClock

/-- Later seconds have later stamps. -/
theorem fileStamp_lt {now now' : Int} (hYear : HasFourDigitYear (secondsOfMillis now))
    (hYear' : HasFourDigitYear (secondsOfMillis now')) (h : secondsOfMillis now < secondsOfMillis now') :
    fileStamp now < fileStamp now' := by
  rw [String.lt_iff, toList_fileStamp hYear, toList_fileStamp hYear']
  exact stampChars_lt (ofSeconds_isOrdinary _) (ofSeconds_isOrdinary _) hYear.1 hYear'.2
    (ofSeconds_isBefore h)

/-- The stamp tells the second. -/
theorem secondsOfMillis_eq_of_fileStamp {now now' : Int} (hYear : HasFourDigitYear (secondsOfMillis now))
    (hYear' : HasFourDigitYear (secondsOfMillis now')) (h : fileStamp now = fileStamp now') :
    secondsOfMillis now = secondsOfMillis now' := by
  rcases lt_trichotomy (secondsOfMillis now) (secondsOfMillis now') with hLt | hSame | hGt
  · exact absurd (h ▸ fileStamp_lt hYear hYear' hLt) (String.lt_irrefl _)
  · exact hSame
  · exact absurd (h ▸ fileStamp_lt hYear' hYear hGt) (String.lt_irrefl _)

end Phrasebook.Calendar
