import CodeAtlas.Time.Calendar
import Mathlib.Algebra.Order.Ring.Nat
import Mathlib.Data.List.Basic

/-!
Dates and their numbers. The year of a day is found near a quotient; this is shown to give the year
that the day lies in, so every day up to the end of the last year has a date of the calendar with its
number.
-/

namespace CodeAtlas.Time

/-! ## Years -/

theorem isLeapYear_iff (year : Nat) :
    isLeapYear year = true ↔ 4 ∣ year ∧ (¬ 100 ∣ year ∨ 400 ∣ year) := by
  simp [isLeapYear, Nat.dvd_iff_mod_eq_zero]

theorem sum_monthLengths (year : Nat) :
    (monthLengths year).sum = if isLeapYear year then 366 else 365 := by
  simp only [monthLengths]
  split <;> rfl

theorem daysBeforeYear_succ {year : Nat} (positive : 0 < year) :
    daysBeforeYear (year + 1) = daysBeforeYear year + (monthLengths year).sum := by
  obtain ⟨past, rfl⟩ : ∃ past, year = past + 1 := ⟨year - 1, by omega⟩
  have hundreds : past / 100 ≤ past / 4 := by omega
  have centuries : 400 ∣ past + 1 → 100 ∣ past + 1 := Nat.dvd_trans (by decide)
  have fourths : 100 ∣ past + 1 → 4 ∣ past + 1 := Nat.dvd_trans (by decide)
  have leap := isLeapYear_iff (past + 1)
  simp only [daysBeforeYear, sum_monthLengths, Nat.add_sub_cancel, Nat.succ_div, leap]
  -- The quotients grow by one exactly at multiples; only which of them the year is matters now.
  generalize past / 4 = byFour at hundreds ⊢
  generalize past / 100 = byHundred at hundreds ⊢
  generalize past / 400 = byFourHundred
  by_cases four : 4 ∣ past + 1
  · by_cases hundred : 100 ∣ past + 1
    · by_cases fourHundred : 400 ∣ past + 1
      · simp [four, hundred, fourHundred]
        omega
      · simp [four, hundred, fourHundred]
        omega
    · have fourHundred := mt centuries hundred
      simp [four, hundred, fourHundred]
      omega
  · have hundred := mt fourths four
    have fourHundred := mt centuries hundred
    simp [four, hundred, fourHundred]
    omega

/-- Four hundred years have 146097 days, and no year is far from the mean. -/
theorem daysBeforeYear_mean (past : Nat) :
    146097 * past ≤ 400 * daysBeforeYear (past + 1) + 699 ∧
      400 * daysBeforeYear (past + 1) ≤ 146097 * past + 396 := by
  rw [daysBeforeYear, Nat.add_sub_cancel]
  omega

theorem yearOf_bounds {number : Nat} (positive : 0 < number) :
    0 < yearOf number ∧ daysBeforeYear (yearOf number) < number ∧
      number ≤ daysBeforeYear (yearOf number + 1) := by
  unfold yearOf
  obtain ⟨past, guess⟩ : ∃ past, (number * 400 + 146096) / 146097 = past + 1 :=
    ⟨(number * 400 + 146096) / 146097 - 1, by omega⟩
  rw [guess]
  -- By the mean length of years the guess is off by one year at most, in either direction.
  have low : 146097 * (past + 1) ≤ number * 400 + 146096 := by omega
  have high : number * 400 + 146096 < 146097 * (past + 2) := by omega
  have mean := daysBeforeYear_mean past
  have meanAfter := daysBeforeYear_mean (past + 1 + 1)
  simp only [Nat.add_sub_cancel]
  split
  · rename_i late
    cases past with
    | zero =>
      have none : daysBeforeYear 1 = 0 := rfl
      omega
    | succ past =>
      have meanBefore := daysBeforeYear_mean past
      exact ⟨by omega, by omega, late⟩
  · rename_i begun
    split
    · rename_i early
      exact ⟨by omega, early, by omega⟩
    · rename_i ended
      exact ⟨by omega, by omega, by omega⟩

/-! ## Months -/

theorem monthAndDay_spec {lengths : List Nat} {month day : Nat} (positive : 0 < day)
    (within : day ≤ lengths.sum) :
    ∃ index length, (monthAndDay month day lengths).1 = month + index ∧
      lengths[index]? = some length ∧ 0 < (monthAndDay month day lengths).2 ∧
      (monthAndDay month day lengths).2 ≤ length ∧
      (lengths.take index).sum + (monthAndDay month day lengths).2 = day := by
  induction lengths generalizing month day with
  | nil =>
    rw [List.sum_nil] at within
    omega
  | cons length rest induction =>
    rw [monthAndDay]
    split
    · rename_i fits
      exact ⟨0, length, rfl, rfl, positive, fits, by simp⟩
    · rename_i later
      rw [List.sum_cons] at within
      rcases @induction (month + 1) (day - length) (by omega) (by omega) with
        ⟨index, found, place, atIndex, first, last, total⟩
      refine ⟨index + 1, found, by omega, atIndex, first, last, ?_⟩
      rw [List.take_succ_cons, List.sum_cons]
      omega

/-! ## Dates -/

def lastDay : Nat := daysBeforeYear 10000

theorem foldl_add (start : Nat) (lengths : List Nat) :
    lengths.foldl (· + ·) start = start + lengths.sum := by
  rw [List.sum_eq_foldl_nat]
  exact @List.foldl_assoc Nat (· + ·) _ lengths start 0

theorem number_ofNumber {number : Nat} (positive : 0 < number) (inTime : number ≤ lastDay) :
    (Date.ofNumber number).number = number ∧ (Date.ofNumber number).isValid = true := by
  rcases yearOf_bounds positive with ⟨yearPositive, begun, ended⟩
  rw [Date.ofNumber]
  generalize yearOf number = year at yearPositive begun ended ⊢
  rw [daysBeforeYear_succ yearPositive] at ended
  rcases @monthAndDay_spec (monthLengths year) 1 (number - daysBeforeYear year) (by omega) (by omega)
    with ⟨index, length, place, atIndex, first, last, total⟩
  rcases found : monthAndDay 1 (number - daysBeforeYear year) (monthLengths year) with ⟨month, day⟩
  rw [found] at place first last total
  simp only at place first last total ⊢
  have before : month - 1 = index := by omega
  constructor
  · simp only [Date.number, foldl_add, before]
    omega
  · have notLate : year ≤ 9999 := by
      have mean := daysBeforeYear_mean (year - 1)
      rw [Nat.sub_add_cancel yearPositive] at mean
      have total : lastDay = 3652059 := by decide
      omega
    simp only [Date.isValid, before, atIndex, Option.any_some, Bool.and_eq_true, decide_eq_true_eq]
    omega

end CodeAtlas.Time
