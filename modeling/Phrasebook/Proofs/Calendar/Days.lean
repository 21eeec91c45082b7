import Mathlib.Order.Monotone.Basic
import Phrasebook.Calendar.Basic

/-!
Days and dates. Years are counted from March: the days before a year, and in a year the days before a
month, are then given by one formula each. A day is read back from its date, which is a valid one, and
later days have later dates.
-/

namespace Phrasebook.Calendar

/-- Days between 0000-03-01 and the first of March of a year. -/
def yearStart (y : Int) : Int := 365 * y + y / 4 - y / 100 + y / 400

/-- The days of a year before a month, which is counted from March. -/
def daysBefore (monthFromMarch : Int) : Int := (153 * monthFromMarch + 2) / 5

theorem daysBefore_natCast (m : Nat) : daysBefore m = ((153 * m + 2) / 5 : Nat) := by
  rw [daysBefore]
  omega

/-- Days between 0000-03-01 and the first day of a month, counted from the March of year 0. -/
def monthStart (k : Int) : Int := yearStart (k / 12) + daysBefore (k % 12)

def Date.monthIndex (d : Date) : Int := 12 * d.year + d.month - 3

def Date.IsBefore (d e : Date) : Prop :=
  d.monthIndex < e.monthIndex ∨ d.monthIndex = e.monthIndex ∧ d.day < e.day

/-- The date of a day of a year that begins in March. -/
def Date.ofYearDay (y : Int) (dayOfYear : Nat) : Date :=
  let monthFromMarch := (5 * dayOfYear + 2) / 153
  ⟨if monthFromMarch < 10 then y else y + 1,
    if monthFromMarch < 10 then monthFromMarch + 3 else monthFromMarch - 9,
    dayOfYear - (153 * monthFromMarch + 2) / 5 + 1⟩

theorem Date.valid_iff {d : Date} :
    d.valid = true ↔ 1 ≤ d.month ∧ d.month ≤ 12 ∧ 1 ≤ d.day ∧ d.day ≤ daysInMonth d.year d.month := by
  simp [Date.valid, and_assoc]

theorem isLeapYear_iff {y : Int} : isLeapYear y = true ↔ y % 4 = 0 ∧ (y % 100 ≠ 0 ∨ y % 400 = 0) := by
  simp [isLeapYear]

/-- The years of a cycle are counted from its first. -/
theorem yearStart_cycle (y : Int) :
    yearStart y = y / 400 * 146097 +
      ((y - y / 400 * 400) * 365 + (y - y / 400 * 400) / 4 - (y - y / 400 * 400) / 100) := by
  unfold yearStart
  obtain ⟨c, r, hY, hLow, hHigh⟩ : ∃ c r, y = c * 400 + r ∧ 0 ≤ r ∧ r < 400 :=
    ⟨y / 400, y % 400, by omega, by omega, by omega⟩
  have hCycle : y / 400 = c := by omega
  have hRest : y - c * 400 = r := by omega
  rw [hCycle, hRest]
  omega

theorem yearStart_succ (y : Int) :
    yearStart (y + 1) = yearStart y + if isLeapYear (y + 1) then 366 else 365 := by
  unfold yearStart
  split
  next hLeap => rw [isLeapYear_iff] at hLeap; omega
  next hLeap => rw [isLeapYear_iff] at hLeap; omega

/-- January and February belong to the year before. -/
theorem monthStart_eq (y : Int) {m : Nat} (hLow : 1 ≤ m) (hHigh : m ≤ 12) :
    monthStart (12 * y + m - 3) =
      yearStart (if m ≤ 2 then y - 1 else y) + daysBefore ((m + 9) % 12 : Nat) := by
  have hYear : (12 * y + m - 3) / 12 = if m ≤ 2 then y - 1 else y := by split <;> omega
  have hMonth : (12 * y + m - 3) % 12 = ((m + 9) % 12 : Nat) := by omega
  rw [monthStart, hYear, hMonth]

theorem toDays_eq {d : Date} (hLow : 1 ≤ d.month) (hHigh : d.month ≤ 12) :
    d.toDays = monthStart d.monthIndex + d.day - 719469 := by
  have hCycle : ∀ y : Int, y.fdiv 400 = y / 400 := fun y =>
    Int.fdiv_eq_ediv_of_nonneg y (by decide)
  rw [Date.monthIndex, monthStart_eq d.year hLow hHigh, yearStart_cycle]
  simp only [Date.toDays, daysBefore, hCycle]
  omega

theorem daysInMonth_eq (y : Int) {m : Nat} (hLow : 1 ≤ m) (hHigh : m ≤ 12) (hNe : m ≠ 2) :
    (daysInMonth y m : Int) =
      daysBefore (((m + 9) % 12 : Nat) + 1) - daysBefore ((m + 9) % 12 : Nat) := by
  have hMonth : m = 1 ∨ m = 3 ∨ m = 4 ∨ m = 5 ∨ m = 6 ∨ m = 7 ∨ m = 8 ∨ m = 9 ∨ m = 10 ∨ m = 11 ∨
      m = 12 := by omega
  rcases hMonth with rfl | rfl | rfl | rfl | rfl | rfl | rfl | rfl | rfl | rfl | rfl <;> rfl

theorem monthStart_succ (y : Int) {m : Nat} (hLow : 1 ≤ m) (hHigh : m ≤ 12) :
    monthStart (12 * y + m - 3 + 1) = monthStart (12 * y + m - 3) + daysInMonth y m := by
  rw [monthStart_eq y hLow hHigh]
  by_cases hFebruary : m = 2
  · subst hFebruary
    have hMarch : 12 * y + (2 : Nat) - 3 + 1 = 12 * y + (3 : Nat) - 3 := by omega
    have hYear := yearStart_succ (y - 1)
    rw [Int.sub_add_cancel] at hYear
    rw [hMarch, monthStart_eq y (by decide) (by decide)]
    cases hLeap : isLeapYear y
    · simp [daysInMonth, hLeap, daysBefore, hYear]
      omega
    · simp [daysInMonth, hLeap, daysBefore, hYear]
      omega
  · have hYear : (12 * y + m - 3 + 1) / 12 = if m ≤ 2 then y - 1 else y := by split <;> omega
    have hMonth : (12 * y + m - 3 + 1) % 12 = ((m + 9) % 12 : Nat) + 1 := by omega
    rw [monthStart, hYear, hMonth, daysInMonth_eq y hLow hHigh hFebruary]
    omega

theorem monthStart_mono {j k : Int} (h : j ≤ k) : monthStart j ≤ monthStart k := by
  refine monotone_int_of_le_succ (fun k => ?_) h
  have hIndex : k = 12 * ((k + 2) / 12) + (((k + 2) % 12).toNat + 1 : Nat) - 3 := by omega
  have hStep := monthStart_succ ((k + 2) / 12) (m := ((k + 2) % 12).toNat + 1) (by omega) (by omega)
  rw [← hIndex] at hStep
  omega

/-- The days of a month lie before the next month. -/
theorem toDays_lt {d : Date} (hValid : d.valid = true) :
    d.toDays < monthStart (d.monthIndex + 1) - 719468 := by
  obtain ⟨hLow, hHigh, hFirst, hLast⟩ := Date.valid_iff.1 hValid
  have hNext := monthStart_succ d.year hLow hHigh
  rw [toDays_eq hLow hHigh]
  rw [← Date.monthIndex] at hNext
  omega

/-- Later dates are later days. -/
theorem toDays_lt_toDays {d e : Date} (hd : d.valid = true) (he : e.valid = true)
    (h : d.IsBefore e) : d.toDays < e.toDays := by
  obtain ⟨hLow, hHigh, hFirst, -⟩ := Date.valid_iff.1 hd
  obtain ⟨hLow', hHigh', hFirst', -⟩ := Date.valid_iff.1 he
  rcases h with hMonth | ⟨hMonth, hDay⟩
  · have hNext := toDays_lt hd
    have hMono := monthStart_mono (Int.add_one_le_of_lt hMonth)
    rw [toDays_eq hLow' hHigh']
    omega
  · rw [toDays_eq hLow hHigh, toDays_eq hLow' hHigh', hMonth]
    omega

/-- The days of a cycle of 400 years fall into centuries, spans of four years, years and days. Only the
last year of a span has a 366th day, and not in the last span of a century, the fourth century apart. -/
theorem exists_dayOfCycle {n : Nat} (h : n < 146097) :
    ∃ a b c dayOfYear, a < 4 ∧ b < 25 ∧ c < 4 ∧ n = 36524 * a + 1461 * b + 365 * c + dayOfYear ∧
      dayOfYear ≤ 365 ∧ (dayOfYear = 365 → c = 3 ∧ (b = 24 → a = 3)) := by
  obtain ⟨a, hCentury⟩ : ∃ a, min (n / 36524) 3 = a := ⟨_, rfl⟩
  obtain ⟨r, hRest⟩ : ∃ r, n = 36524 * a + r := ⟨n - 36524 * a, by omega⟩
  exact ⟨a, r / 1461, min (r % 1461 / 365) 3, r % 1461 - 365 * min (r % 1461 / 365) 3, by omega, by omega,
    by omega, by omega, by omega, by omega⟩

theorem yearOfCycle_eq {n a b c dayOfYear : Nat} (ha : a < 4) (hb : b < 25) (hc : c < 4)
    (hn : n = 36524 * a + 1461 * b + 365 * c + dayOfYear) (hDay : dayOfYear ≤ 365)
    (hLeap : dayOfYear = 365 → c = 3 ∧ (b = 24 → a = 3)) :
    (n - n / 1460 + n / 36524 - n / 146096) / 365 = 100 * a + 4 * b + c := by
  by_cases hLast : n = 146096
  · rw [hLast]
    omega
  · have hCentury : n / 36524 = a := by omega
    have hCycle : n / 146096 = 0 := by omega
    rw [hCentury, hCycle]
    omega

/-- A day lies in a year that begins in March. -/
theorem exists_ofDays_eq (n : Int) :
    ∃ y dayOfYear, Date.ofDays n = Date.ofYearDay y dayOfYear ∧
      n + 719468 = yearStart y + dayOfYear ∧ dayOfYear ≤ 365 ∧
      (dayOfYear = 365 → isLeapYear (y + 1) = true) := by
  have hCycle : (n + 719468).fdiv 146097 = (n + 719468) / 146097 :=
    Int.fdiv_eq_ediv_of_nonneg _ (by decide)
  obtain ⟨cycle, k, hDays, hLt⟩ : ∃ (cycle : Int) (k : Nat), n + 719468 = cycle * 146097 + k ∧ k < 146097 :=
    ⟨(n + 719468) / 146097, ((n + 719468) % 146097).toNat, by omega, by omega⟩
  have hOfCycle : (n + 719468) / 146097 = cycle := by omega
  have hRest : (n + 719468 - cycle * 146097).toNat = k := by omega
  obtain ⟨a, b, c, dayOfYear, ha, hb, hc, hParts, hDay, hLeap⟩ := exists_dayOfCycle hLt
  have hYear := yearOfCycle_eq ha hb hc hParts hDay hLeap
  have hFour : (100 * a + 4 * b + c) / 4 = 25 * a + b := by omega
  have hHundred : (100 * a + 4 * b + c) / 100 = a := by omega
  refine ⟨(100 * a + 4 * b + c : Nat) + cycle * 400, dayOfYear, ?_, ?_, hDay, ?_⟩
  · have hDayOfYear : k - (365 * (100 * a + 4 * b + c) + (25 * a + b) - a) = dayOfYear := by omega
    simp only [Date.ofDays, Date.ofYearDay, hCycle, hOfCycle, hRest, hYear, hFour, hHundred, hDayOfYear]
    congr 1
    split <;> split <;> omega
  · have hStart : ((100 * a + 4 * b + c : Nat) + cycle * 400) / 400 = cycle := by omega
    rw [yearStart_cycle, hStart, Int.add_sub_cancel]
    omega
  · intro hLast
    rw [isLeapYear_iff]
    omega

theorem monthIndex_ofYearDay (y : Int) {dayOfYear : Nat} (hDay : dayOfYear ≤ 365) :
    (Date.ofYearDay y dayOfYear).monthIndex = 12 * y + ((5 * dayOfYear + 2) / 153 : Nat) ∧
      1 ≤ (Date.ofYearDay y dayOfYear).month ∧ (Date.ofYearDay y dayOfYear).month ≤ 12 := by
  simp only [Date.monthIndex, Date.ofYearDay]
  split <;> omega

theorem toDays_ofYearDay (y : Int) {dayOfYear : Nat} (hDay : dayOfYear ≤ 365) :
    (Date.ofYearDay y dayOfYear).toDays = yearStart y + dayOfYear - 719468 := by
  obtain ⟨hIndex, hLow, hHigh⟩ := monthIndex_ofYearDay y hDay
  have hYear : (12 * y + ((5 * dayOfYear + 2) / 153 : Nat)) / 12 = y := by omega
  have hMonth : (12 * y + ((5 * dayOfYear + 2) / 153 : Nat)) % 12 = ((5 * dayOfYear + 2) / 153 : Nat) := by
    omega
  have hOfMonth : (Date.ofYearDay y dayOfYear).day =
      dayOfYear - (153 * ((5 * dayOfYear + 2) / 153) + 2) / 5 + 1 := rfl
  rw [toDays_eq hLow hHigh, hIndex, monthStart, hYear, hMonth, daysBefore, hOfMonth]
  omega

/-- A 366th day is the leap day. -/
theorem valid_ofYearDay (y : Int) {dayOfYear : Nat} (hDay : dayOfYear ≤ 365)
    (hLeap : dayOfYear = 365 → isLeapYear (y + 1) = true) :
    (Date.ofYearDay y dayOfYear).valid = true := by
  obtain ⟨hIndex, hLow, hHigh⟩ := monthIndex_ofYearDay y hDay
  refine Date.valid_iff.2 ⟨hLow, hHigh, Nat.le_add_left 1 _, ?_⟩
  have hOfMonth : (Date.ofYearDay y dayOfYear).day =
      dayOfYear - (153 * ((5 * dayOfYear + 2) / 153) + 2) / 5 + 1 := rfl
  rw [Date.monthIndex] at hIndex
  by_cases hFebruary : (Date.ofYearDay y dayOfYear).month = 2
  · rw [daysInMonth, if_pos hFebruary, hOfMonth]
    rcases Nat.lt_or_ge dayOfYear 365 with hLt | hLe
    · split <;> omega
    · have hYear : (Date.ofYearDay y dayOfYear).year = y + 1 := by omega
      rw [if_pos (hYear ▸ hLeap (by omega))]
      omega
  · have hLength := daysInMonth_eq (Date.ofYearDay y dayOfYear).year hLow hHigh hFebruary
    have hMonth : ((Date.ofYearDay y dayOfYear).month + 9) % 12 = (5 * dayOfYear + 2) / 153 := by omega
    rw [hMonth, daysBefore_natCast, daysBefore] at hLength
    omega

theorem toDays_ofDays (n : Int) : (Date.ofDays n).toDays = n := by
  obtain ⟨y, dayOfYear, hDate, hDays, hDay, -⟩ := exists_ofDays_eq n
  rw [hDate, toDays_ofYearDay y hDay, ← hDays, Int.add_sub_cancel]

theorem valid_ofDays (n : Int) : (Date.ofDays n).valid = true := by
  obtain ⟨y, dayOfYear, hDate, -, hDay, hLeap⟩ := exists_ofDays_eq n
  rw [hDate]
  exact valid_ofYearDay y hDay hLeap

/-- Earlier days have earlier dates. -/
theorem ofDays_isBefore {m n : Int} (h : m < n) : (Date.ofDays m).IsBefore (Date.ofDays n) := by
  by_contra hNot
  rw [Date.IsBefore] at hNot
  have hm := valid_ofDays m
  have hn := valid_ofDays n
  obtain ⟨hLow, hHigh, -⟩ := Date.valid_iff.1 hm
  obtain ⟨hLow', hHigh', -⟩ := Date.valid_iff.1 hn
  -- The date of `n` is the same or an earlier one, and so is its day.
  have hLe : (Date.ofDays n).toDays ≤ (Date.ofDays m).toDays := by
    by_cases hSame : (Date.ofDays m).monthIndex = (Date.ofDays n).monthIndex ∧
        (Date.ofDays m).day = (Date.ofDays n).day
    · rw [toDays_eq hLow hHigh, toDays_eq hLow' hHigh', hSame.1, hSame.2]
    · exact le_of_lt (toDays_lt_toDays hn hm (by rw [Date.IsBefore]; omega))
  rw [toDays_ofDays, toDays_ofDays] at hLe
  omega

/-- The parts of a moment are within their bounds. -/
structure Moment.IsOrdinary (m : Moment) : Prop where
  date : m.date.valid = true
  hour : m.hour ≤ 23
  minute : m.minute ≤ 59
  second : m.second ≤ 59

theorem ofSeconds_isOrdinary (s : Int) : (Moment.ofSeconds s).IsOrdinary := by
  have hOfDay : s.fmod 86400 = s % 86400 := Int.fmod_eq_emod_of_nonneg s (by decide)
  constructor
  · exact valid_ofDays _
  all_goals
    simp only [Moment.ofSeconds, hOfDay]
    omega

/-- A moment is put together from its parts. -/
theorem ofSeconds_parts (s : Int) :
    (Moment.ofSeconds s).date.toDays * 86400 + (Moment.ofSeconds s).hour * 3600 +
      (Moment.ofSeconds s).minute * 60 + (Moment.ofSeconds s).second = s := by
  have hOfDay : s.fmod 86400 = s % 86400 := Int.fmod_eq_emod_of_nonneg s (by decide)
  have hDay : s.fdiv 86400 = s / 86400 := Int.fdiv_eq_ediv_of_nonneg s (by decide)
  simp only [Moment.ofSeconds, toDays_ofDays, hOfDay, hDay]
  omega

/-- Of two moments the first parts that differ tell which is the earlier one. -/
theorem ofSeconds_isBefore {s t : Int} (h : s < t) :
    (Moment.ofSeconds s).date.IsBefore (Moment.ofSeconds t).date ∨
      (Moment.ofSeconds s).date = (Moment.ofSeconds t).date ∧
        ((Moment.ofSeconds s).hour < (Moment.ofSeconds t).hour ∨
          (Moment.ofSeconds s).hour = (Moment.ofSeconds t).hour ∧
            ((Moment.ofSeconds s).minute < (Moment.ofSeconds t).minute ∨
              (Moment.ofSeconds s).minute = (Moment.ofSeconds t).minute ∧
                (Moment.ofSeconds s).second < (Moment.ofSeconds t).second)) := by
  obtain ⟨-, hHour, hMinute, hSecond⟩ := ofSeconds_isOrdinary s
  obtain ⟨-, hHour', hMinute', hSecond'⟩ := ofSeconds_isOrdinary t
  have hParts := ofSeconds_parts s
  have hParts' := ofSeconds_parts t
  have hDays : (Moment.ofSeconds s).date.toDays = s.fdiv 86400 := toDays_ofDays _
  have hDays' : (Moment.ofSeconds t).date.toDays = t.fdiv 86400 := toDays_ofDays _
  rcases lt_trichotomy (s.fdiv 86400) (t.fdiv 86400) with hLt | hSame | hGt
  · exact Or.inl (ofDays_isBefore hLt)
  · exact Or.inr ⟨congrArg Date.ofDays hSame, by omega⟩
  · omega

end Phrasebook.Calendar
