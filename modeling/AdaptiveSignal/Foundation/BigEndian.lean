import Mathlib.Algebra.Ring.Nat
import Mathlib.Data.List.Basic

/-! # Numbers that start with their most significant byte

The bytes at a place of a buffer, the number that they make, and how it is put
together of shifted bytes.
-/

namespace AdaptiveSignal.Foundation

/-- The bytes at a place of a buffer. -/
def bytesAt (buf : ℕ → UInt8) (offset width : ℕ) : List UInt8 :=
  (List.range width).map fun i => buf (offset + i)

/-- The number that bytes make, the first one the most significant. -/
def ofBigEndian (bytes : List UInt8) : ℕ :=
  bytes.foldl (fun value byte => value * 256 + byte.toNat) 0

theorem bytesAt_congr {buf buf' : ℕ → UInt8} {offset width : ℕ}
    (hbuf : ∀ i < width, buf (offset + i) = buf' (offset + i)) :
    bytesAt buf offset width = bytesAt buf' offset width :=
  List.map_congr_left fun i hi => hbuf i (List.mem_range.mp hi)

theorem bytesAt_add (buf : ℕ → UInt8) (offset first second : ℕ) :
    bytesAt buf offset (first + second) =
      bytesAt buf offset first ++ bytesAt buf (offset + first) second := by
  simp only [bytesAt, List.range_add, List.map_append, List.map_map, Function.comp_def,
    Nat.add_assoc]

@[simp] theorem length_bytesAt (buf : ℕ → UInt8) (offset width : ℕ) :
    (bytesAt buf offset width).length = width := by
  rw [bytesAt, List.length_map, List.length_range]

/-- A byte set into the places below a shifted number adds to it. -/
theorem or_shiftLeft_byte (high k : ℕ) (byte : UInt8) :
    high <<< (k + 8) ||| byte.toNat <<< k = (high * 256 + byte.toNat) <<< k := by
  have hbyte : byte.toNat < 2 ^ 8 := UInt8.toNat_lt byte
  have hjoin : high <<< 8 ||| byte.toNat = high * 256 + byte.toNat := by
    rw [Nat.shiftLeft_eq, Nat.mul_comm high, ← Nat.two_pow_add_eq_or_of_lt hbyte]
  rw [Nat.add_comm k 8, Nat.shiftLeft_add, ← Nat.shiftLeft_or_distrib, hjoin]

section Shifted

variable (b₀ b₁ b₂ b₃ b₄ b₅ b₆ b₇ : UInt8)

theorem ofBigEndian_one : ofBigEndian [b₀] = b₀.toNat := by simp [ofBigEndian]

theorem ofBigEndian_two : ofBigEndian [b₀, b₁] = b₀.toNat <<< 8 ||| b₁.toNat := by
  have hjoin := or_shiftLeft_byte b₀.toNat 0 b₁
  simp only [ofBigEndian, List.foldl_cons, List.foldl_nil, Nat.zero_mul, Nat.zero_add]
  exact hjoin.symm

theorem ofBigEndian_four : ofBigEndian [b₀, b₁, b₂, b₃] =
    b₀.toNat <<< 24 ||| b₁.toNat <<< 16 ||| b₂.toNat <<< 8 ||| b₃.toNat := by
  simp only [ofBigEndian, List.foldl_cons, List.foldl_nil, Nat.zero_mul, Nat.zero_add]
  rw [or_shiftLeft_byte _ 16, or_shiftLeft_byte _ 8]
  exact (or_shiftLeft_byte _ 0 _).symm

theorem ofBigEndian_eight : ofBigEndian [b₀, b₁, b₂, b₃, b₄, b₅, b₆, b₇] =
    b₀.toNat <<< 56 ||| b₁.toNat <<< 48 ||| b₂.toNat <<< 40 ||| b₃.toNat <<< 32 |||
      b₄.toNat <<< 24 ||| b₅.toNat <<< 16 ||| b₆.toNat <<< 8 ||| b₇.toNat := by
  simp only [ofBigEndian, List.foldl_cons, List.foldl_nil, Nat.zero_mul, Nat.zero_add]
  rw [or_shiftLeft_byte _ 48, or_shiftLeft_byte _ 40, or_shiftLeft_byte _ 32,
    or_shiftLeft_byte _ 24, or_shiftLeft_byte _ 16, or_shiftLeft_byte _ 8]
  exact (or_shiftLeft_byte _ 0 _).symm

end Shifted

end AdaptiveSignal.Foundation
