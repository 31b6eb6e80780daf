import Mathlib.Algebra.Ring.Nat
import Mathlib.Data.List.GetD

/-! # Numbers in a stream of bytes

A number of a fixed width is sent least byte first, and read back out of a buffer that
bytes were received into.
-/

namespace AdaptiveSignal.Foundation

/-- The bytes of a number, the least one first. -/
def littleEndian : ℕ → ℕ → List UInt8
  | 0, _ => []
  | width + 1, value => UInt8.ofNat value :: littleEndian width (value / 256)

def ofLittleEndian : List UInt8 → ℕ
  | [] => 0
  | byte :: rest => byte.toNat + 256 * ofLittleEndian rest

@[simp] theorem length_littleEndian (width value : ℕ) :
    (littleEndian width value).length = width := by
  induction width generalizing value with
  | zero => rfl
  | succ width ih => rw [littleEndian, List.length_cons, ih]

theorem ofLittleEndian_littleEndian {width value : ℕ} (hfits : value < 256 ^ width) :
    ofLittleEndian (littleEndian width value) = value := by
  induction width generalizing value with
  | zero => exact (Nat.lt_one_iff.mp hfits).symm
  | succ width ih =>
      have hrest : value / 256 < 256 ^ width := by
        rw [Nat.pow_succ] at hfits
        exact Nat.div_lt_of_lt_mul (Nat.mul_comm _ _ ▸ hfits)
      rw [littleEndian, ofLittleEndian, ih hrest, UInt8.toNat_ofNat']
      exact Nat.mod_add_div value 256

/-- The number at an offset of a buffer. -/
def fieldAt (width : ℕ) (buf : ℕ → UInt8) (offset : ℕ) : ℕ :=
  ofLittleEndian ((List.range width).map fun i => buf (offset + i))

/-- Part of what was received into a buffer, wherever it lies. -/
theorem map_getD_range (before part behind : List UInt8) (stale : ℕ → UInt8) :
    (List.range part.length).map (fun i =>
      (before ++ part ++ behind).getD (before.length + i) (stale (before.length + i))) = part := by
  refine List.ext_getElem (by simp) fun i hleft hright => ?_
  rw [List.getElem_map, List.getElem_range, List.append_assoc,
    List.getD_append_right _ _ _ _ (Nat.le_add_right _ _), Nat.add_sub_cancel_left,
    List.getD_append _ _ _ _ hright, List.getD_eq_getElem _ _ hright]

theorem fieldAt_received {width value : ℕ} (hfits : value < 256 ^ width)
    (before behind : List UInt8) (stale : ℕ → UInt8) :
    fieldAt width (fun i => (before ++ littleEndian width value ++ behind).getD i (stale i))
      before.length = value := by
  have hpart := map_getD_range before (littleEndian width value) behind stale
  rw [length_littleEndian] at hpart
  rw [fieldAt, hpart, ofLittleEndian_littleEndian hfits]

end AdaptiveSignal.Foundation
