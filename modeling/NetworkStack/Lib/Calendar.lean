import Mathlib.Data.List.Basic

/-!
# The Gregorian calendar

Days are numbered from the first day of the year 1, in both directions, and months from
0. Every number is the day of exactly one date.
-/

namespace Calendar

def isLeap (year : Int) : Bool := year % 4 = 0 ∧ (year % 100 ≠ 0 ∨ year % 400 = 0)

def yearLength (year : Int) : Int := if isLeap year then 366 else 365

/-- The number of the first day of a year. -/
def yearStart (year : Int) : Int :=
  365 * (year - 1) + (year - 1) / 4 - (year - 1) / 100 + (year - 1) / 400

theorem yearStart_succ (year : Int) : yearStart (year + 1) = yearStart year + yearLength year := by
  unfold yearStart yearLength isLeap
  by_cases h4 : year % 4 = 0
  · by_cases h100 : year % 100 = 0
    · by_cases h400 : year % 400 = 0
      · rw [if_pos (by simp [h4, h400])]
        omega
      · rw [if_neg (by simp [h100, h400])]
        omega
    · rw [if_pos (by simp [h4, h100])]
      omega
  · rw [if_neg (by simp [h4])]
    omega

/-- The number of the first day of a month in its year. -/
def monthStart (leap : Bool) (month : ℕ) : Int :=
  [0, 31, 59, 90, 120, 151, 181, 212, 243, 273, 304, 334, 365].getD month 0
    + if leap && 2 ≤ month then 1 else 0

def monthLength (leap : Bool) (month : ℕ) : Int :=
  monthStart leap (month + 1) - monthStart leap month

theorem monthLength_le : ∀ leap : Bool, ∀ month : Fin 12, monthLength leap month ≤ 31 := by decide

/-- A day past the end of its month is one of a later month. -/
def dayNumber (year : Int) (month : ℕ) (day : Int) : Int :=
  yearStart year + monthStart (isLeap year) month + (day - 1)

structure Date where
  year : Int
  month : Fin 12
  day : ℕ
  day_pos : 1 ≤ day
  day_le : (day : Int) ≤ monthLength (isLeap year) month

def Date.number (date : Date) : Int := dayNumber date.year date.month date.day

/-! ### The year of a day -/

/-- A mean year has 146097 days in 400; the guess is at most one year off. -/
def yearOf (n : Int) : Int :=
  let year := n * 400 / 146097 + 1
  if n < yearStart year then year - 1
  else if yearStart (year + 1) ≤ n then year + 1
  else year

theorem yearOf_spec (n : Int) : yearStart (yearOf n) ≤ n ∧ n < yearStart (yearOf n + 1) := by
  unfold yearOf
  simp only
  split
  · rename_i hlow
    unfold yearStart at *
    omega
  · rename_i hlow
    split
    · rename_i hhigh
      unfold yearStart at *
      omega
    · rename_i hhigh
      omega

theorem yearStart_le {year year' : Int} (h : year ≤ year') :
    yearStart year ≤ yearStart year' := by
  unfold yearStart
  omega

theorem yearOf_unique {n year : Int} (hlow : yearStart year ≤ n)
    (hhigh : n < yearStart (year + 1)) : yearOf n = year := by
  obtain ⟨hlow', hhigh'⟩ := yearOf_spec n
  rcases Int.lt_trichotomy (yearOf n) year with hlt | heq | hgt
  · have hnext : yearStart (yearOf n + 1) ≤ yearStart year := yearStart_le hlt
    omega
  · exact heq
  · have hnext : yearStart (year + 1) ≤ yearStart (yearOf n) := yearStart_le hgt
    omega

/-! ### The month of a day -/

/-- How many later months have begun by the day `n` of a year. -/
def monthOf (leap : Bool) (n : Int) : ℕ :=
  (List.range 11).countP fun month => monthStart leap (month + 1) ≤ n

theorem monthOf_lt (leap : Bool) (n : Int) : monthOf leap n < 12 :=
  Nat.lt_succ_of_le (Nat.le_trans List.countP_le_length (Nat.le_of_eq List.length_range))

theorem monthOf_days : ∀ leap : Bool, ∀ n < if leap then 366 else 365,
    monthStart leap (monthOf leap (n : ℕ)) ≤ (n : ℕ) ∧
      ((n : ℕ) : Int) < monthStart leap (monthOf leap (n : ℕ) + 1) := by
  decide +kernel

theorem monthOf_spec (leap : Bool) {n : Int} (hpos : 0 ≤ n) (hlt : n < if leap then 366 else 365) :
    monthStart leap (monthOf leap n) ≤ n ∧ n < monthStart leap (monthOf leap n + 1) := by
  obtain ⟨k, rfl⟩ := Int.eq_ofNat_of_zero_le hpos
  apply monthOf_days leap k
  cases leap with
  | true => exact Int.ofNat_lt.mp hlt
  | false => exact Int.ofNat_lt.mp hlt

/-! ### The date of a day -/

/-- The day of the year. -/
def yearDay (n : Int) : Int := n - yearStart (yearOf n)

theorem yearDay_month (n : Int) :
    monthStart (isLeap (yearOf n)) (monthOf (isLeap (yearOf n)) (yearDay n)) ≤ yearDay n ∧
      yearDay n
        < monthStart (isLeap (yearOf n)) (monthOf (isLeap (yearOf n)) (yearDay n) + 1) := by
  obtain ⟨hlow, hhigh⟩ := yearOf_spec n
  rw [yearStart_succ] at hhigh
  refine monthOf_spec _ (by unfold yearDay; omega) ?_
  rw [yearLength] at hhigh
  unfold yearDay
  omega

def dateOf (n : Int) : Date where
  year := yearOf n
  month := ⟨monthOf (isLeap (yearOf n)) (yearDay n), monthOf_lt _ _⟩
  day := (yearDay n - monthStart (isLeap (yearOf n))
    (monthOf (isLeap (yearOf n)) (yearDay n)) + 1).toNat
  day_pos := by
    have := (yearDay_month n).1
    omega
  day_le := by
    have := yearDay_month n
    simp only [monthLength]
    omega

/-- The number of a date is the day it came from. -/
theorem number_dateOf (n : Int) : (dateOf n).number = n := by
  have hmonth := (yearDay_month n).1
  simp only [Date.number, dayNumber, dateOf]
  rw [Int.toNat_of_nonneg (by omega)]
  unfold yearDay
  omega

/-! ### The only date of a day -/

theorem monthStart_range : ∀ leap : Bool, ∀ month : Fin 12, 0 ≤ monthStart leap month ∧
    monthStart leap (month + 1) ≤ if leap then 366 else 365 := by decide

theorem monthStart_le : ∀ leap : Bool, ∀ month month' : Fin 12, month < month' →
    monthStart leap (month + 1) ≤ monthStart leap month' := by decide

theorem monthOf_unique (leap : Bool) {n : Int} (month : Fin 12) (hlow : monthStart leap month ≤ n)
    (hhigh : n < monthStart leap (month + 1)) : monthOf leap n = month := by
  obtain ⟨hpos, hlength⟩ := monthStart_range leap month
  obtain ⟨hlow', hhigh'⟩ := monthOf_spec leap (n := n) (by omega) (by omega)
  rcases Nat.lt_trichotomy (monthOf leap n) month with hlt | heq | hgt
  · have := monthStart_le leap ⟨monthOf leap n, monthOf_lt leap n⟩ month hlt
    simp only at this
    omega
  · exact heq
  · have := monthStart_le leap month ⟨monthOf leap n, monthOf_lt leap n⟩ hgt
    simp only at this
    omega

theorem dateOf_number (date : Date) : dateOf date.number = date := by
  obtain ⟨year, month, day, hpos, hle⟩ := date
  obtain ⟨hstart, hend⟩ := monthStart_range (isLeap year) month
  rw [monthLength] at hle
  have hnumber : Date.number ⟨year, month, day, hpos, hle⟩
      = yearStart year + (monthStart (isLeap year) month + (day - 1)) := Int.add_assoc ..
  have hyear : yearOf (yearStart year + (monthStart (isLeap year) month + (day - 1))) = year := by
    refine yearOf_unique (by omega) ?_
    rw [yearStart_succ, yearLength]
    omega
  have hday : yearDay (yearStart year + (monthStart (isLeap year) month + (day - 1)))
      = monthStart (isLeap year) month + (day - 1) := by
    rw [yearDay, hyear]
    omega
  have hmonth := monthOf_unique (isLeap year)
    (n := monthStart (isLeap year) month + (day - 1)) month (by omega) (by omega)
  rw [hnumber]
  simp only [dateOf, hyear, hday, hmonth, Date.mk.injEq, true_and]
  omega

/-! ### One day in two years -/

theorem monthStart_bounds (leap : Bool) (month : ℕ) :
    monthStart false month ≤ monthStart leap month ∧
      monthStart leap month ≤ monthStart false month + 1 := by
  unfold monthStart
  generalize List.getD _ month 0 = start
  cases leap with
  | false =>
    simp only [Bool.false_and, Bool.false_eq_true, if_false]
    omega
  | true =>
    simp only [Bool.false_and, Bool.false_eq_true, if_false]
    split
    · omega
    · omega

theorem dayNumber_lt {year year' : Int} (h : year < year') (month : ℕ) (day : Int) :
    dayNumber year month day < dayNumber year' month day := by
  have hmonth := monthStart_bounds (isLeap year) month
  have hmonth' := monthStart_bounds (isLeap year') month
  unfold dayNumber yearStart
  omega

/-- A day of a month tells its years apart. -/
theorem dayNumber_inj {year year' : Int} {month : ℕ} {day : Int} :
    dayNumber year month day = dayNumber year' month day ↔ year = year' := by
  refine ⟨fun h => ?_, fun h => by rw [h]⟩
  rcases Int.lt_trichotomy year year' with hlt | heq | hgt
  · exact absurd h (Int.ne_of_lt (dayNumber_lt hlt month day))
  · exact heq
  · exact absurd h.symm (Int.ne_of_lt (dayNumber_lt hgt month day))

end Calendar
