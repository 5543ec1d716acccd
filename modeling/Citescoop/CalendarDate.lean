/-
Calendar dates of the years 1 to 9999, how they are written, and the number of
days up to them, which orders them.
-/
import Mathlib

namespace Calendar

def isLeap (year : ℕ) : Bool :=
  year % 4 == 0 && (year % 100 != 0 || year % 400 == 0)

def daysInMonth (year month : ℕ) : ℕ :=
  if month = 2 then if isLeap year then 29 else 28
  else if month = 4 ∨ month = 6 ∨ month = 9 ∨ month = 11 then 30
  else 31

def daysInYear (year : ℕ) : ℕ :=
  if isLeap year then 366 else 365

structure Date where
  year : ℕ
  month : ℕ
  day : ℕ
  year_pos : 1 ≤ year
  year_le : year ≤ 9999
  month_pos : 1 ≤ month
  month_le : month ≤ 12
  day_pos : 1 ≤ day
  day_le : day ≤ daysInMonth year month
deriving DecidableEq

/-- The days of the years before. -/
def daysBeforeYear (year : ℕ) : ℕ :=
  365 * (year - 1) + (year - 1) / 4 - (year - 1) / 100 + (year - 1) / 400

/-- The days of the months before, in the same year. -/
def daysBeforeMonth (year : ℕ) : ℕ → ℕ
  | 0 => 0
  | 1 => 0
  | month + 2 => daysBeforeMonth year (month + 1) + daysInMonth year (month + 1)

namespace Date

/-- The number of a date, where that of the first of January of the year 1 is 1. -/
def dayNumber (date : Date) : ℕ :=
  daysBeforeYear date.year + daysBeforeMonth date.year date.month + date.day

def Before (date date' : Date) : Prop :=
  date.year < date'.year ∨ date.year = date'.year ∧
    (date.month < date'.month ∨ date.month = date'.month ∧ date.day < date'.day)

end Date

theorem daysBeforeYear_succ {year : ℕ} (hyear : 1 ≤ year) :
    daysBeforeYear (year + 1) = daysBeforeYear year + daysInYear year := by
  obtain ⟨before, rfl⟩ := Nat.exists_eq_add_of_le' hyear
  have hleap : isLeap (before + 1) = true ↔
      4 ∣ before + 1 ∧ (¬ 100 ∣ before + 1 ∨ 400 ∣ before + 1) := by
    simp [isLeap, Nat.dvd_iff_mod_eq_zero]
  have hfour : 100 ∣ before + 1 → 4 ∣ before + 1 := (by decide : 4 ∣ 100).trans
  have hhundred : 400 ∣ before + 1 → 100 ∣ before + 1 := (by decide : 100 ∣ 400).trans
  have hless : before / 100 ≤ 365 * before := by omega
  simp only [daysBeforeYear, daysInYear, Nat.add_sub_cancel, Nat.succ_div, hleap]
  by_cases h400 : 400 ∣ before + 1
  · simp only [h400, hhundred h400, hfour (hhundred h400), not_true_eq_false, false_or,
      and_self, if_true]
    omega
  · by_cases h100 : 100 ∣ before + 1
    · simp only [h400, h100, hfour h100, not_true_eq_false, or_self, and_false, if_true,
        if_false]
      omega
    · by_cases h4 : 4 ∣ before + 1 <;>
        simp only [h400, h100, h4, not_false_eq_true, true_or, and_self, and_true, if_true,
          if_false] <;> omega

/-- A year is over before the next one begins. -/
theorem daysBeforeYear_add_le {year year' : ℕ} (hyear : 1 ≤ year) (hlt : year < year') :
    daysBeforeYear year + daysInYear year ≤ daysBeforeYear year' := by
  induction year', hlt using Nat.le_induction with
  | base => exact (daysBeforeYear_succ hyear).ge
  | succ year' hle ih =>
      rw [daysBeforeYear_succ (by omega)]
      omega

theorem daysBeforeMonth_succ {year month : ℕ} (hmonth : 1 ≤ month) :
    daysBeforeMonth year (month + 1) =
      daysBeforeMonth year month + daysInMonth year month := by
  obtain ⟨month, rfl⟩ := Nat.exists_eq_add_of_le' hmonth
  rfl

theorem daysBeforeMonth_add_le (year : ℕ) {month month' : ℕ} (hmonth : 1 ≤ month)
    (hlt : month < month') :
    daysBeforeMonth year month + daysInMonth year month ≤ daysBeforeMonth year month' := by
  induction month', hlt using Nat.le_induction with
  | base => exact (daysBeforeMonth_succ hmonth).ge
  | succ month' hle ih =>
      rw [daysBeforeMonth_succ (by omega)]
      omega

theorem daysBeforeMonth_thirteen (year : ℕ) :
    daysBeforeMonth year 13 = daysInYear year := by
  rw [daysInYear]
  by_cases hleap : isLeap year = true <;> simp [daysBeforeMonth, daysInMonth, hleap]

namespace Date

theorem dayNumber_lt {date date' : Date} (hbefore : date.Before date') :
    date.dayNumber < date'.dayNumber := by
  have hday := date.day_le
  have hday' := date'.day_pos
  have hmonth := daysBeforeMonth_add_le date.year date.month_pos
    (Nat.lt_succ_of_le date.month_le)
  rw [daysBeforeMonth_thirteen] at hmonth
  rw [dayNumber, dayNumber]
  rcases hbefore with hyear | ⟨hyear, hmonths | ⟨hmonths, hdays⟩⟩
  · have hyears := daysBeforeYear_add_le date.year_pos hyear
    omega
  · have hlater := daysBeforeMonth_add_le date.year date.month_pos hmonths
    rw [← hyear]
    omega
  · rw [← hyear, ← hmonths]
    omega

theorem before_or_eq_or_before (date date' : Date) :
    date.Before date' ∨ date = date' ∨ date'.Before date := by
  rcases date with ⟨year, month, day⟩
  rcases date' with ⟨year', month', day'⟩
  simp only [Before, Date.mk.injEq]
  omega

theorem dayNumber_injective : Function.Injective dayNumber := by
  intro date date' hsame
  rcases before_or_eq_or_before date date' with hbefore | heq | hafter
  · exact absurd hsame (dayNumber_lt hbefore).ne
  · exact heq
  · exact absurd hsame (dayNumber_lt hafter).ne'

/-- A number in two digits. -/
def twoDigits (number : ℕ) : List Char :=
  [Nat.digitChar (number / 10), Nat.digitChar (number % 10)]

/-- `YYYY-MM-DD`. -/
def render (date : Date) : List Char :=
  twoDigits (date.year / 100) ++ twoDigits (date.year % 100) ++ '-' ::
    twoDigits date.month ++ '-' :: twoDigits date.day

theorem not_mem_twoDigits : ∀ number < 100, 'T' ∉ twoDigits number := by
  decide

theorem daysInMonth_le (year month : ℕ) : daysInMonth year month ≤ 31 := by
  rw [daysInMonth]
  split_ifs <;> omega

/-- A date alone has no `T` in front of a time. -/
theorem not_mem_render (date : Date) : 'T' ∉ date.render := by
  have hyear := date.year_le
  have hmonth := date.month_le
  have hday := date.day_le.trans (daysInMonth_le _ _)
  simp only [render, List.mem_append, List.mem_cons, not_or]
  refine ⟨⟨⟨?_, ?_⟩, by decide, ?_⟩, by decide, ?_⟩ <;>
    exact not_mem_twoDigits _ (by omega)

end Date

end Calendar
