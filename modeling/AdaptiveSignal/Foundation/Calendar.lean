import Mathlib.Algebra.Order.BigOperators.Group.List
import Mathlib.Algebra.Order.Ring.Int
import Mathlib.Data.Int.Init
import Mathlib.Tactic.Common

/-! # Days and dates

The months of a year lie one after the other, and so do the years. A day, counted from the
first one of the year 1, is a date: a year, a month in it and a day in that.
-/

namespace AdaptiveSignal.Foundation

/-! ## Consecutive blocks -/

/-- The block that a place lies in, and the place in it. -/
def locate : List ℤ → ℤ → ℕ × ℤ
  | [], place => (0, place)
  | length :: later, place =>
      if place < length then (0, place)
      else ((locate later (place - length)).1 + 1, (locate later (place - length)).2)

/-- Where a block begins. -/
def blockStart (lengths : List ℤ) (block : ℕ) : ℤ :=
  (lengths.take block).sum

theorem blockStart_locate (lengths : List ℤ) (place : ℤ) :
    blockStart lengths (locate lengths place).1 + (locate lengths place).2 = place := by
  induction lengths generalizing place with
  | nil => simp [locate, blockStart]
  | cons length later ih =>
      unfold locate
      split_ifs with hfirst
      · simp [blockStart]
      · have hlater := ih (place - length)
        simp only [blockStart, List.take_succ_cons, List.sum_cons] at hlater ⊢
        omega

theorem locate_lt {lengths : List ℤ} {place : ℤ} (hplace : place < lengths.sum)
    (hnonneg : 0 ≤ place) : (locate lengths place).1 < lengths.length := by
  induction lengths generalizing place with
  | nil => exact absurd hplace (not_lt_of_ge hnonneg)
  | cons length later ih =>
      unfold locate
      split_ifs with hfirst
      · exact Nat.succ_pos _
      · rw [List.sum_cons] at hplace
        exact Nat.succ_lt_succ (ih (by omega) (by omega))

/-- A place in a block is found there. -/
theorem locate_blockStart {lengths : List ℤ} (hlengths : ∀ length ∈ lengths, 0 ≤ length)
    {block : ℕ} {length place : ℤ} (hblock : lengths[block]? = some length) (hnonneg : 0 ≤ place)
    (hplace : place < length) :
    locate lengths (blockStart lengths block + place) = (block, place) := by
  induction lengths generalizing block with
  | nil => cases hblock
  | cons first later ih =>
      cases block with
      | zero =>
          obtain rfl : first = length := Option.some.inj hblock
          simp [locate, blockStart, hplace]
      | succ block =>
          have hlater := ih (fun length hmem => hlengths length (List.mem_cons_of_mem first hmem))
            hblock
          have hstart : 0 ≤ blockStart later block := List.sum_nonneg fun length hmem =>
            hlengths length (List.mem_cons_of_mem first (List.mem_of_mem_take hmem))
          have hshift : blockStart (first :: later) (block + 1) =
              first + blockStart later block := by
            simp [blockStart]
          rw [locate, if_neg (by omega), hshift,
            show first + blockStart later block + place - first =
              blockStart later block + place by omega, hlater]

/-! ## Years -/

def IsLeap (year : ℤ) : Prop :=
  year % 4 = 0 ∧ (year % 100 ≠ 0 ∨ year % 400 = 0)

instance (year : ℤ) : Decidable (IsLeap year) :=
  inferInstanceAs (Decidable (_ ∧ _))

def monthLengths (year : ℤ) : List ℤ :=
  [31, if IsLeap year then 29 else 28, 31, 30, 31, 30, 31, 31, 30, 31, 30, 31]

def daysInYear (year : ℤ) : ℤ :=
  if IsLeap year then 366 else 365

theorem sum_monthLengths (year : ℤ) : (monthLengths year).sum = daysInYear year := by
  unfold monthLengths daysInYear
  split_ifs <;> rfl

theorem monthLengths_nonneg (year : ℤ) : ∀ length ∈ monthLengths year, 0 ≤ length := by
  unfold monthLengths
  split_ifs <;> decide

/-- The days from the first one of the year 1 on. -/
def daysBeforeYear (year : ℤ) : ℤ :=
  365 * (year - 1) + (year - 1) / 4 - (year - 1) / 100 + (year - 1) / 400

theorem daysBeforeYear_succ (year : ℤ) :
    daysBeforeYear (year + 1) = daysBeforeYear year + daysInYear year := by
  unfold daysBeforeYear daysInYear IsLeap
  split_ifs with hleap
  · omega
  · omega

/-- A year has 146097/400 days on average; the days before one are off from that by less
than a year. -/
def yearOfDay (day : ℤ) : ℤ :=
  let year := 400 * day / 146097 + 1
  if day < daysBeforeYear (year + 1) then year else year + 1

theorem daysBeforeYear_yearOfDay_le (day : ℤ) : daysBeforeYear (yearOfDay day) ≤ day := by
  simp only [yearOfDay]
  split_ifs with hfirst
  · unfold daysBeforeYear
    omega
  · exact not_lt.mp hfirst

theorem lt_daysBeforeYear_yearOfDay (day : ℤ) : day < daysBeforeYear (yearOfDay day + 1) := by
  simp only [yearOfDay]
  split_ifs with hfirst
  · exact hfirst
  · unfold daysBeforeYear
    omega

/-! ## Dates -/

/-- The month and the day in it are counted from zero. -/
structure Date where
  year : ℤ
  month : ℕ
  day : ℤ

namespace Date

def ofDay (day : ℤ) : Date :=
  let year := yearOfDay day
  let (month, day) := locate (monthLengths year) (day - daysBeforeYear year)
  { year, month, day }

def toDay (date : Date) : ℤ :=
  daysBeforeYear date.year + blockStart (monthLengths date.year) date.month + date.day

theorem toDay_ofDay (day : ℤ) : (ofDay day).toDay = day := by
  have hstart := blockStart_locate (monthLengths (yearOfDay day))
    (day - daysBeforeYear (yearOfDay day))
  simp only [toDay, ofDay]
  omega

theorem month_ofDay_lt (day : ℤ) : (ofDay day).month < 12 := by
  have hlt := lt_daysBeforeYear_yearOfDay day
  have hle := daysBeforeYear_yearOfDay_le day
  rw [daysBeforeYear_succ] at hlt
  have hday : day - daysBeforeYear (yearOfDay day) < (monthLengths (yearOfDay day)).sum := by
    rw [sum_monthLengths]
    omega
  exact locate_lt hday (Int.sub_nonneg.mpr hle)

end Date

end AdaptiveSignal.Foundation
