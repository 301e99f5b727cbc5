/-
The proleptic Gregorian calendar: which dates exist, and the number of a day
counted from 1970-01-01. A day past the end of its month has the number of the
day it rolls over to.
-/
import Mathlib.Order.Monotone.Basic
import Mathlib.Order.SuccPred.Basic
import Mathlib.Data.Int.SuccPred

namespace Calendar

/-- A leap year. -/
def Leap (y : Int) : Prop := y % 4 = 0 ∧ (y % 100 ≠ 0 ∨ y % 400 = 0)

instance (y : Int) : Decidable (Leap y) := inferInstanceAs (Decidable (_ ∧ _))

def yearLength (y : Int) : Int := if Leap y then 366 else 365

/-- The length of a month; no other number is a month. -/
def daysInMonth (y : Int) : Nat → Int
  | 1 | 3 | 5 | 7 | 8 | 10 | 12 => 31
  | 4 | 6 | 9 | 11 => 30
  | 2 => if Leap y then 29 else 28
  | _ => 0

/-- There is such a date. -/
def ExistingDate (y : Int) (m : Nat) (d : Int) : Prop := 1 ≤ d ∧ d ≤ daysInMonth y m

instance (y : Int) (m : Nat) (d : Int) : Decidable (ExistingDate y m d) := inferInstanceAs (Decidable (_ ∧ _))

/-- The days from 0001-01-01 to the first of the year. -/
def daysBeforeYear (y : Int) : Int := 365 * (y - 1) + (y - 1) / 4 - (y - 1) / 100 + (y - 1) / 400

/-- The days from the first of the year to the first of the month. -/
def daysBeforeMonth (y : Int) : Nat → Int
  | 0 => 0
  | m + 1 => daysBeforeMonth y m + daysInMonth y m

/-- The days from 1970-01-01 to the date. -/
def dayNumber (y : Int) (m : Nat) (d : Int) : Int :=
  daysBeforeYear y - daysBeforeYear 1970 + daysBeforeMonth y m + (d - 1)

/-! ## The order of days -/

theorem daysBeforeYear_succ (y : Int) : daysBeforeYear (y + 1) = daysBeforeYear y + yearLength y := by
  unfold daysBeforeYear yearLength
  split
  · next hl =>
    unfold Leap at hl
    omega
  · next hl =>
    unfold Leap at hl
    omega

theorem daysBeforeYear_mono {y y' : Int} (h : y ≤ y') : daysBeforeYear y ≤ daysBeforeYear y' := by
  refine monotone_int_of_le_succ (fun y => ?_) h
  rw [daysBeforeYear_succ]
  unfold yearLength
  split <;> omega

theorem daysInMonth_nonneg (y : Int) (m : Nat) : 0 ≤ daysInMonth y m := by
  unfold daysInMonth
  split <;> omega

theorem daysBeforeMonth_nonneg (y : Int) (m : Nat) : 0 ≤ daysBeforeMonth y m := by
  induction m with
  | zero => exact le_refl 0
  | succ m ih => exact Int.add_nonneg ih (daysInMonth_nonneg y m)

/-- The months of a year are as long as the year. -/
theorem daysBeforeMonth_year (y : Int) : daysBeforeMonth y 13 = yearLength y := by
  simp only [daysBeforeMonth, daysInMonth, yearLength]
  split <;> rfl

theorem daysBeforeMonth_mono (y : Int) {m m' : Nat} (h : m ≤ m') : daysBeforeMonth y m ≤ daysBeforeMonth y m' :=
  monotone_nat_of_le_succ (fun m => Int.le_add_of_nonneg_right (daysInMonth_nonneg y m)) h

/-- The day after the last of a month is the first of the next. -/
theorem dayNumber_rollover (y : Int) (m : Nat) (d : Int) :
    dayNumber y m (daysInMonth y m + d) = dayNumber y (m + 1) d := by
  simp only [dayNumber, daysBeforeMonth]
  omega

/-- A month with days is one of the twelve. -/
theorem month_le_of_days {y : Int} {m : Nat} (h : 0 < daysInMonth y m) : m ≤ 12 := by
  by_contra hm
  have h₀ : daysInMonth y m = 0 := by
    unfold daysInMonth
    split <;> omega
  omega

variable {y d : Int} {m : Nat}

/-- A date is not before the first of its year. -/
theorem ExistingDate.year_le (h : ExistingDate y m d) :
    daysBeforeYear y - daysBeforeYear 1970 ≤ dayNumber y m d := by
  have hm := daysBeforeMonth_nonneg y m
  have hd := h.1
  unfold dayNumber
  omega

/-- A date is before the first of the next year. -/
theorem ExistingDate.lt_year (h : ExistingDate y m d) :
    dayNumber y m d < daysBeforeYear (y + 1) - daysBeforeYear 1970 := by
  obtain ⟨h₁, h₂⟩ := h
  have hm : m ≤ 12 := month_le_of_days (show 0 < daysInMonth y m by omega)
  have hle : daysBeforeMonth y (m + 1) ≤ yearLength y :=
    (daysBeforeMonth_mono y (by omega)).trans_eq (daysBeforeMonth_year y)
  rw [daysBeforeYear_succ]
  simp only [daysBeforeMonth] at hle
  unfold dayNumber
  omega

/-- A date has a number from 0 on when its year is 1970 or later. -/
theorem ExistingDate.dayNumber_nonneg_iff (h : ExistingDate y m d) : 0 ≤ dayNumber y m d ↔ 1970 ≤ y := by
  have hlo := h.year_le
  have hhi := h.lt_year
  constructor
  · intro h₀
    by_contra hy
    have := daysBeforeYear_mono (show y + 1 ≤ 1970 by omega)
    omega
  · intro hy
    have := daysBeforeYear_mono hy
    omega

end Calendar
