import AdaptiveSignal.Foundation.BigEndian
import AdaptiveSignal.Foundation.LittleEndian
import Mathlib.Tactic.Ring

/-! # Bytes that are put into a buffer

A number is put into a buffer most significant byte first by swapping its bytes and copying
them as they lie in the memory of a machine that keeps the least one first. Bytes that are
put at one place after the other make one block.
-/

namespace AdaptiveSignal.Foundation

/-- The bytes of a number, the most significant one first. -/
def bigEndian (width value : ℕ) : List UInt8 := (littleEndian width value).reverse

/-- The number whose bytes are in the opposite order. -/
def swapBytes (width value : ℕ) : ℕ := ofLittleEndian (bigEndian width value)

@[simp] theorem length_bigEndian (width value : ℕ) : (bigEndian width value).length = width := by
  rw [bigEndian, List.length_reverse, length_littleEndian]

theorem littleEndian_ofLittleEndian (bytes : List UInt8) :
    littleEndian bytes.length (ofLittleEndian bytes) = bytes := by
  induction bytes with
  | nil => rfl
  | cons byte bytes ih =>
      have hbyte : byte.toNat < 256 := byte.toNat_lt
      have hhead : UInt8.ofNat (byte.toNat + 256 * ofLittleEndian bytes) = byte := by
        apply UInt8.toNat_inj.mp
        rw [UInt8.toNat_ofNat']
        omega
      have htail : (byte.toNat + 256 * ofLittleEndian bytes) / 256 = ofLittleEndian bytes := by
        omega
      rw [List.length_cons, ofLittleEndian, littleEndian, hhead, htail, ih]

theorem ofLittleEndian_lt (bytes : List UInt8) : ofLittleEndian bytes < 256 ^ bytes.length := by
  induction bytes with
  | nil => exact Nat.one_pos
  | cons byte bytes ih =>
      have hbyte : byte.toNat < 256 := byte.toNat_lt
      rw [ofLittleEndian, List.length_cons, Nat.pow_succ]
      omega

theorem swapBytes_lt (width value : ℕ) : swapBytes width value < 256 ^ width := by
  have hlt := ofLittleEndian_lt (bigEndian width value)
  rwa [length_bigEndian] at hlt

/-- Swapped bytes lie in memory in the opposite order. -/
theorem littleEndian_swapBytes (width value : ℕ) :
    littleEndian width (swapBytes width value) = bigEndian width value := by
  have hbytes := littleEndian_ofLittleEndian (bigEndian width value)
  rwa [length_bigEndian] at hbytes

theorem ofBigEndian_reverse (bytes : List UInt8) :
    ofBigEndian bytes.reverse = ofLittleEndian bytes := by
  induction bytes with
  | nil => rfl
  | cons byte bytes ih =>
      rw [List.reverse_cons, ofBigEndian, List.foldl_append]
      change ofBigEndian bytes.reverse * 256 + byte.toNat = _
      rw [ih, ofLittleEndian]
      omega

theorem ofBigEndian_bigEndian {width value : ℕ} (hfits : value < 256 ^ width) :
    ofBigEndian (bigEndian width value) = value := by
  rw [bigEndian, ofBigEndian_reverse, ofLittleEndian_littleEndian hfits]

/-! ## Blocks -/

/-- The buffer with bytes put at a place. -/
def putBytes (buf : ℕ → UInt8) (offset : ℕ) (bytes : List UInt8) (i : ℕ) : UInt8 :=
  if offset ≤ i ∧ i < offset + bytes.length then bytes.getD (i - offset) 0 else buf i

variable {buf : ℕ → UInt8} {offset : ℕ}

theorem putBytes_of_lt {i : ℕ} (bytes : List UInt8) (hi : i < offset) :
    putBytes buf offset bytes i = buf i :=
  if_neg fun h => Nat.not_lt.mpr h.1 hi

theorem putBytes_of_ge {i : ℕ} {bytes : List UInt8} (hi : offset + bytes.length ≤ i) :
    putBytes buf offset bytes i = buf i :=
  if_neg fun h => Nat.not_lt.mpr hi h.2

theorem putBytes_add {i : ℕ} {bytes : List UInt8} (hi : i < bytes.length) :
    putBytes buf offset bytes (offset + i) = bytes.getD i 0 := by
  rw [putBytes, if_pos ⟨Nat.le_add_right _ _, Nat.add_lt_add_left hi _⟩, Nat.add_sub_cancel_left]

@[simp] theorem putBytes_nil : putBytes buf offset [] = buf :=
  funext fun _ => if_neg fun h => Nat.not_lt.mpr h.1 h.2

/-- Bytes behind other bytes make one block with them. -/
theorem putBytes_append (first second : List UInt8) :
    putBytes (putBytes buf offset first) (offset + first.length) second =
      putBytes buf offset (first ++ second) := by
  funext i
  rcases Nat.lt_or_ge i offset with hbefore | hle
  · rw [putBytes_of_lt _ (by omega), putBytes_of_lt _ hbefore, putBytes_of_lt _ hbefore]
  · obtain ⟨k, rfl⟩ := Nat.exists_eq_add_of_le hle
    rcases Nat.lt_or_ge k first.length with hfirst | hsecond
    · rw [putBytes_of_lt _ (by omega), putBytes_add hfirst,
        putBytes_add (by rw [List.length_append]; omega), List.getD_append _ _ _ _ hfirst]
    · obtain ⟨j, rfl⟩ := Nat.exists_eq_add_of_le hsecond
      rcases Nat.lt_or_ge j second.length with hin | hout
      · rw [← Nat.add_assoc, putBytes_add hin, Nat.add_assoc,
          putBytes_add (by rw [List.length_append]; omega),
          List.getD_append_right _ _ _ _ (Nat.le_add_right _ _), Nat.add_sub_cancel_left]
      · rw [putBytes_of_ge (by omega), putBytes_of_ge (by omega),
          putBytes_of_ge (by rw [List.length_append]; omega)]

/-- Bytes put over the front of a block. -/
theorem putBytes_over {block bytes : List UInt8} (hlength : bytes.length ≤ block.length) :
    putBytes (putBytes buf offset block) offset bytes =
      putBytes buf offset (bytes ++ block.drop bytes.length) := by
  have hwhole : (bytes ++ block.drop bytes.length).length = block.length := by
    rw [List.length_append, List.length_drop]
    omega
  funext i
  rcases Nat.lt_or_ge i offset with hbefore | hle
  · rw [putBytes_of_lt _ hbefore, putBytes_of_lt _ hbefore, putBytes_of_lt _ hbefore]
  · obtain ⟨k, rfl⟩ := Nat.exists_eq_add_of_le hle
    rcases Nat.lt_or_ge k bytes.length with hfront | hback
    · rw [putBytes_add hfront, putBytes_add (by omega), List.getD_append _ _ _ _ hfront]
    · rw [putBytes_of_ge (by omega)]
      rcases Nat.lt_or_ge k block.length with hin | hout
      · rw [putBytes_add hin, putBytes_add (by omega), List.getD_append_right _ _ _ _ hback,
          List.getD_eq_getElem?_getD, List.getD_eq_getElem?_getD, List.getElem?_drop,
          Nat.add_sub_cancel' hback]
      · rw [putBytes_of_ge (by omega), putBytes_of_ge (by omega)]

/-- The bytes of a part of a block. -/
theorem bytesAt_putBytes (before part behind : List UInt8) :
    bytesAt (putBytes buf offset (before ++ part ++ behind)) (offset + before.length)
      part.length = part := by
  have hpart := map_getD_range before part behind fun _ => 0
  rw [bytesAt]
  refine (List.map_congr_left fun i hi => ?_).trans hpart
  have hlt := List.mem_range.mp hi
  rw [Nat.add_assoc, putBytes_add]
  simp only [List.length_append]
  omega

end AdaptiveSignal.Foundation
