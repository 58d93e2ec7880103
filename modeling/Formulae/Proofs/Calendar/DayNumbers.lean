import Formulae.Calendar.Date
import Mathlib.Tactic.IntervalCases

/-!
# Days and their numbers

Every day that exists has a number from which the day is found again (`Day.ofNumber_toNumber`).
Years are counted from March, in cycles of four centuries: the number of a day in its cycle is
split into a year and a day of the year, and the latter into a month and a day of the month.
-/

namespace Formulae.Day

/-! ## Years in a cycle -/

/-- Days of a cycle before a year of it. -/
def daysBefore (yearOfCycle : Int) : Int :=
  yearOfCycle * 365 + yearOfCycle / 4 - yearOfCycle / 100

/-- The year of the cycle goes over into the next calendar year, and that one has a leap day. -/
def endsInLeapDay (yearOfCycle : Int) : Prop :=
  (yearOfCycle + 1) % 4 = 0 ∧ ((yearOfCycle + 1) % 100 ≠ 0 ∨ yearOfCycle = 399)

/-- The year in which a day of the cycle falls, by the length of years corrected for the leap
days before it. -/
def yearOfDay (dayOfCycle : Int) : Int :=
  (dayOfCycle - dayOfCycle / 1460 + dayOfCycle / 36524 - dayOfCycle / 146096) / 365

section

variable {year dayOfYear : Int}

/-- A year as centuries, blocks of four years, and single years. -/
theorem exists_parts_of_year (first : 0 ≤ year) (last : year < 400) :
    ∃ century block single : Int, year = 100 * century + 4 * block + single ∧
      0 ≤ century ∧ century < 4 ∧ 0 ≤ block ∧ block < 25 ∧ 0 ≤ single ∧ single < 4 :=
  ⟨year / 100, year % 100 / 4, year % 100 % 4, by omega⟩

theorem yearOfDay_daysBefore_add (first : 0 ≤ year) (last : year < 400) (start : 0 ≤ dayOfYear)
    (inYear : dayOfYear ≤ 364 ∨ dayOfYear = 365 ∧ endsInLeapDay year) :
    yearOfDay (daysBefore year + dayOfYear) = year := by
  rcases exists_parts_of_year first last with
    ⟨century, block, single, rfl, _, _, _, _, _, _⟩
  have days : daysBefore (100 * century + 4 * block + single)
      = 36524 * century + 1461 * block + 365 * single := by
    unfold daysBefore
    omega
  -- The last day of a leap year closes a block, and a century only at the end of the cycle.
  have inBlock : 365 * single + dayOfYear ≤ 1460 := by
    rcases inYear with short | ⟨rfl, -⟩ <;> omega
  have inCentury : 1461 * block + 365 * single + dayOfYear < 36524
      ∨ century = 3 ∧ 1461 * block + 365 * single + dayOfYear = 36524 := by
    rcases inYear with short | ⟨rfl, fourth, notCentury⟩
    · omega
    · omega
  have nearEnd : dayOfYear = 365 → single = 3 := by
    rintro rfl
    rcases inYear with short | ⟨-, fourth, -⟩ <;> omega
  rw [yearOfDay, days]
  generalize isDay : 36524 * century + 1461 * block + 365 * single + dayOfYear = day
  have centuries : day / 36524 - day / 146096 = century := by
    rcases inCentury with within | ⟨rfl, whole⟩
    · have quotient : day / 36524 = century := by omega
      have none : day / 146096 = 0 := by omega
      omega
    · have isLast : day = 146096 := by omega
      subst isLast
      rfl
  have blocks : day / 1460 = 25 * century + block
      ∨ day / 1460 = 25 * century + block + 1 ∧ 0 < dayOfYear
        ∧ 1460 ≤ 24 * century + block + 365 * single + dayOfYear := by omega
  omega

end

/-! ## Months in a year from March -/

/-- The month in which a day of a year from March falls. -/
def monthOfDay (dayOfYear : Int) : Int :=
  (5 * dayOfYear + 2) / 153

/-- The year from March that the day is in, known by the calendar year in which it starts. -/
def marchYear (d : Day) : Int :=
  if d.month ≤ 2 then d.year - 1 else d.year

/-- The month of the day, counted from March on. -/
def marchMonth (d : Day) : Int :=
  if d.month ≤ 2 then d.month + 9 else d.month - 3

/-- Days of the year from March before the day. -/
def dayOfYear (d : Day) : Int :=
  (153 * d.marchMonth + 2) / 5 + d.day - 1

section

variable {d : Day}

theorem parts_of_isValid (valid : d.isValid) :
    1 ≤ d.month ∧ d.month ≤ 12 ∧ 1 ≤ d.day ∧ d.day ≤ daysInMonth d.year d.month := by
  simp only [isValid, Bool.and_eq_true, decide_eq_true_eq] at valid
  omega

theorem isLeapYear_iff {year : Int} :
    isLeapYear year ↔ year % 4 = 0 ∧ (year % 100 ≠ 0 ∨ year % 400 = 0) := by
  simp [isLeapYear]

/-- The year has room for the day, and the last place in it is for a leap day. -/
theorem dayOfYear_bounds (valid : d.isValid) : 0 ≤ d.dayOfYear ∧
    (d.dayOfYear ≤ 364 ∨ d.dayOfYear = 365 ∧ endsInLeapDay (d.marchYear % 400)) := by
  rcases parts_of_isValid valid with ⟨firstMonth, lastMonth, firstDay, lastDay⟩
  obtain ⟨year, month, day⟩ := d
  by_cases february : month = 2
  · subst february
    by_cases leap : isLeapYear year
    · rw [isLeapYear_iff] at leap
      simp only [dayOfYear, marchYear, marchMonth, daysInMonth, endsInLeapDay] at lastDay ⊢
      split at lastDay <;> omega
    · simp only [dayOfYear, marchYear, marchMonth, daysInMonth, leap, if_false, Bool.false_eq_true]
        at lastDay ⊢
      omega
  · simp only [dayOfYear, marchYear, marchMonth] at firstMonth lastMonth firstDay lastDay ⊢
    interval_cases month <;> simp only [daysInMonth] at lastDay <;> omega

theorem monthOfDay_dayOfYear (valid : d.isValid) : monthOfDay d.dayOfYear = d.marchMonth := by
  rcases parts_of_isValid valid with ⟨firstMonth, lastMonth, firstDay, lastDay⟩
  obtain ⟨year, month, day⟩ := d
  simp only [monthOfDay, dayOfYear, marchMonth] at firstMonth lastMonth firstDay lastDay ⊢
  interval_cases month <;> simp only [daysInMonth] at lastDay <;> grind

/-! ## Numbers of days -/

theorem toNumber_eq (d : Day) : d.toNumber =
    d.marchYear / 400 * daysPerCycle + (daysBefore (d.marchYear % 400) + d.dayOfYear)
      - epochShift :=
  rfl

theorem ofNumber_eq (number : Int) :
    let dayOfCycle := (number + epochShift) % daysPerCycle
    let dayOfYear := dayOfCycle - daysBefore (yearOfDay dayOfCycle)
    let month := monthOfDay dayOfYear
    let year := yearOfDay dayOfCycle + (number + epochShift) / daysPerCycle * 400
    ofNumber number = ⟨if month < 10 then year else year + 1,
      (if month < 10 then month + 3 else month - 9).toNat,
      (dayOfYear - (153 * month + 2) / 5 + 1).toNat⟩ := by
  intro dayOfCycle dayOfYear month year
  simp only [ofNumber, dayOfCycle, dayOfYear, month, year, daysBefore, Int.mul_comm 365]
  rfl

/-- A day that exists is found again from its number. -/
theorem ofNumber_toNumber (valid : d.isValid) : ofNumber d.toNumber = d := by
  rcases parts_of_isValid valid with ⟨firstMonth, lastMonth, firstDay, -⟩
  rcases dayOfYear_bounds valid with ⟨start, inYear⟩
  have first : 0 ≤ d.marchYear % 400 := by omega
  have last : d.marchYear % 400 < 400 := by omega
  have found := yearOfDay_daysBefore_add first last start inYear
  have inCycle : 0 ≤ daysBefore (d.marchYear % 400) + d.dayOfYear ∧
      daysBefore (d.marchYear % 400) + d.dayOfYear < daysPerCycle := by
    simp only [daysBefore, endsInLeapDay, daysPerCycle] at inYear ⊢
    omega
  have shifted : d.toNumber + epochShift =
      d.marchYear / 400 * daysPerCycle + (daysBefore (d.marchYear % 400) + d.dayOfYear) := by
    rw [toNumber_eq]
    omega
  have cycles : (d.toNumber + epochShift) / daysPerCycle = d.marchYear / 400 := by
    rw [shifted]
    simp only [daysPerCycle] at inCycle ⊢
    omega
  have within : (d.toNumber + epochShift) % daysPerCycle
      = daysBefore (d.marchYear % 400) + d.dayOfYear := by
    rw [shifted]
    simp only [daysPerCycle] at inCycle ⊢
    omega
  rw [ofNumber_eq]
  simp only [within, cycles, found, add_sub_cancel_left, monthOfDay_dayOfYear valid]
  obtain ⟨year, month, day⟩ := d
  simp only [marchYear, marchMonth, dayOfYear] at firstMonth lastMonth firstDay ⊢
  rw [Day.mk.injEq]
  split <;> omega

end

end Formulae.Day
