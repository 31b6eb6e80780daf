import Mathlib.Data.List.TakeWhile
import Mathlib.Data.UInt
import Mathlib.Tactic.SplitIfs

/-! # Byte arrays as strings

The string in an array of bytes ends before the first zero.
-/

namespace AdaptiveSignal.Foundation

def cString (bytes : List UInt8) : List UInt8 :=
  bytes.takeWhile (· ≠ 0)

/-- `strncat`: at most `n` of the bytes, and none from the first zero on. -/
def strncat (s bytes : List UInt8) (n : ℕ) : List UInt8 :=
  s ++ cString (bytes.take n)

theorem length_cString_le (bytes : List UInt8) : (cString bytes).length ≤ bytes.length :=
  (List.takeWhile_sublist _).length_le

theorem zero_notMem_cString (bytes : List UInt8) : 0 ∉ cString bytes := by
  intro hmem
  simpa using List.mem_takeWhile_imp hmem

/-- Strings of one length that go on with different bytes differ. -/
theorem strncat_eq_iff {s s' : List UInt8} (hlength : s.length = s'.length)
    (bytes bytes' : List UInt8) (n : ℕ) :
    strncat s bytes n = strncat s' bytes' n ↔
      s = s' ∧ cString (bytes.take n) = cString (bytes'.take n) :=
  ⟨fun heq => List.append_inj heq hlength, fun ⟨hs, hbytes⟩ => by rw [strncat, hs, hbytes, strncat]⟩

theorem cString_append_zero (bytes rest : List UInt8) :
    cString (bytes ++ 0 :: rest) = cString bytes := by
  induction bytes with
  | nil => rfl
  | cons byte bytes ih =>
      by_cases hzero : byte = 0
      · simp [cString, hzero]
      · simpa [cString, hzero] using ih

/-! ## Texts -/

/-- The bytes of a text in a source file. -/
def utf8Bytes (text : List Char) : List UInt8 :=
  text.flatMap String.utf8EncodeChar

theorem zero_notMem_utf8EncodeChar {c : Char} (hc : c ≠ '\x00') : 0 ∉ String.utf8EncodeChar c := by
  have hval : c.val.toNat ≠ 0 := by
    intro hzero
    exact hc (Char.ext (UInt32.toNat_inj.mp hzero))
  have hbyte : ∀ n : ℕ, (0 : UInt8) = UInt8.ofNat n ↔ n % 256 = 0 := fun n => by
    rw [← UInt8.toNat_inj, UInt8.toNat_ofNat, eq_comm]
    rfl
  simp only [String.utf8EncodeChar]
  split_ifs <;>
    · simp only [List.mem_cons, List.not_mem_nil, or_false, hbyte]
      omega

theorem zero_notMem_utf8Bytes {text : List Char} (h : '\x00' ∉ text) : 0 ∉ utf8Bytes text := by
  intro hzero
  obtain ⟨c, hmem, hbyte⟩ := List.mem_flatMap.mp hzero
  exact zero_notMem_utf8EncodeChar (fun heq => h (heq ▸ hmem)) hbyte

theorem utf8Bytes_append (first second : List Char) :
    utf8Bytes (first ++ second) = utf8Bytes first ++ utf8Bytes second :=
  List.flatMap_append

/-- A text of seven-bit characters has as many bytes as characters. -/
theorem length_utf8Bytes_ascii {text : List Char} (h : ∀ c ∈ text, c.toNat ≤ 127) :
    (utf8Bytes text).length = text.length := by
  rw [utf8Bytes, List.length_flatMap]
  have hone : ∀ c ∈ text, (String.utf8EncodeChar c).length = 1 := fun c hc => by
    have hle : c.val.toNat ≤ 127 := h c hc
    simp only [String.utf8EncodeChar, if_pos hle, List.length_singleton]
  rw [List.map_congr_left hone]
  simp

end AdaptiveSignal.Foundation
