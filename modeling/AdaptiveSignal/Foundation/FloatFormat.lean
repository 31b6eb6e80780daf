import AdaptiveSignal.Foundation.Decimal

/-! # Formats of floating-point numbers

A format has finitely many digits: its values are some of the rational numbers, and
every number is read as a nearest value. How near that is, and which numbers are
values, is what two formats differ in.
-/

namespace AdaptiveSignal.Foundation

structure FloatFormat where
  Value : Type
  toRat : Value → ℚ
  /-- The value that a number is read as. -/
  nearest : ℚ → Value
  injective : Function.Injective toRat
  nearest_le : ∀ q x, |toRat (nearest q) - q| ≤ |toRat x - q|

/-- What is used of single precision. -/
structure SingleFormat extends FloatFormat where
  floor : ∀ x, ∃ y, toRat y = ⌊toRat x⌋
  ceil : ∀ x, ∃ y, toRat y = ⌈toRat x⌉
  byte : ∀ n : ℕ, n < 256 → ∃ x, toRat x = n
  bounded : ∀ x, |toRat x| < 10 ^ 39

/-- What is used of double precision. -/
structure DoubleFormat extends FloatFormat where
  precise : ∀ q, |toRat (nearest q)| ≤ 180 ∨ |q| ≤ 180 →
    |toRat (nearest q) - q| * 10 ^ 6 < 1 / 2

namespace FloatFormat

variable (format : FloatFormat)

/-- A value is read as itself. -/
@[simp] theorem nearest_toRat (x : format.Value) : format.nearest (format.toRat x) = x := by
  apply format.injective
  have hle := format.nearest_le (format.toRat x) x
  rw [sub_self, abs_zero] at hle
  exact sub_eq_zero.mp (abs_eq_zero.mp (le_antisymm hle (abs_nonneg _)))

end FloatFormat

namespace SingleFormat

variable (format : SingleFormat)

/-- A whole number is read as a whole number. -/
theorem nearest_intCast (n : ℤ) : ∃ m : ℤ, format.toRat (format.nearest n) = m := by
  set x := format.toRat (format.nearest n) with hx
  have hfloor : (⌊x⌋ : ℚ) ≤ x := Int.floor_le x
  have hceil : x ≤ ⌈x⌉ := Int.le_ceil x
  rcases le_or_gt (n : ℚ) x with hle | hgt
  · obtain ⟨y, hy⟩ := format.floor (format.nearest n)
    have hnear := format.nearest_le n y
    have hn : (n : ℚ) ≤ ⌊x⌋ := by exact_mod_cast Int.le_floor.mpr hle
    rw [hy, ← hx, abs_of_nonneg (by linarith), abs_of_nonneg (by linarith)] at hnear
    exact ⟨⌊x⌋, by linarith⟩
  · obtain ⟨y, hy⟩ := format.ceil (format.nearest n)
    have hnear := format.nearest_le n y
    have hn : (⌈x⌉ : ℚ) ≤ n := by exact_mod_cast Int.ceil_le.mpr hgt.le
    rw [hy, ← hx, abs_of_nonpos (by linarith), abs_of_nonpos (by linarith)] at hnear
    exact ⟨⌈x⌉, by linarith⟩

/-- A small number is read as itself. -/
theorem nearest_byte {n : ℕ} (hn : n < 256) : format.toRat (format.nearest n) = n := by
  obtain ⟨x, hx⟩ := format.byte n hn
  rw [← hx, format.nearest_toRat]

/-- A number that lost its last digit is read as another. -/
theorem nearest_cut {d n : ℕ} (hn : 0 < n) (hle : 10 * d ≤ n) :
    format.toRat (format.nearest d) ≠ n := by
  obtain ⟨zero, hzero⟩ := format.byte 0 (by decide)
  have hnear := format.nearest_le d zero
  have hd : (10 : ℚ) * d ≤ n := by exact_mod_cast hle
  have hpos : (0 : ℚ) < n := by exact_mod_cast hn
  have hd0 : (0 : ℚ) ≤ d := Nat.cast_nonneg d
  rw [hzero, Nat.cast_zero, zero_sub, abs_neg, abs_of_nonneg hd0] at hnear
  intro heq
  rw [heq] at hnear
  linarith [le_abs_self ((n : ℚ) - d)]

end SingleFormat

end AdaptiveSignal.Foundation
