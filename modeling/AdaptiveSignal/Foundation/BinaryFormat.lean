import AdaptiveSignal.Foundation.FloatFormat
import Mathlib.Algebra.Order.Floor.Semiring
import Mathlib.Data.Finset.Max
import Mathlib.Data.Int.Interval
import Mathlib.Data.Set.Finite.Lemmas

/-! # Binary formats

A value has a significand of so many bits and an exponent between two bounds. There are
finitely many, so that every number has a nearest one.
-/

namespace AdaptiveSignal.Foundation

variable {bits : ℕ} {least greatest : ℤ}

def IsBinary (bits : ℕ) (least greatest : ℤ) (q : ℚ) : Prop :=
  ∃ m e : ℤ, |m| < 2 ^ bits ∧ least ≤ e ∧ e ≤ greatest ∧ q = m * 2 ^ e

theorem finite_isBinary (bits : ℕ) (least greatest : ℤ) :
    {q | IsBinary bits least greatest q}.Finite := by
  apply Set.Finite.subset (((Finset.Ioo (-2 ^ bits) (2 ^ bits)) ×ˢ
    (Finset.Icc least greatest)).image fun p : ℤ × ℤ => (p.1 * 2 ^ p.2 : ℚ)).finite_toSet
  rintro q ⟨m, e, hm, hlow, hhigh, rfl⟩
  simp only [Finset.coe_image, Set.mem_image, Finset.mem_coe, Finset.mem_product, Finset.mem_Ioo,
    Finset.mem_Icc]
  exact ⟨(m, e), ⟨abs_lt.mp hm, hlow, hhigh⟩, rfl⟩

theorem isBinary_intCast {n : ℤ} (hn : |n| < 2 ^ bits) (hleast : least ≤ 0)
    (hgreatest : 0 ≤ greatest) : IsBinary bits least greatest n :=
  ⟨n, 0, hn, hleast, hgreatest, by simp⟩

theorem exists_nearest (hleast : least ≤ 0) (hgreatest : 0 ≤ greatest) (q : ℚ) :
    ∃ x : { q // IsBinary bits least greatest q },
      ∀ y : { q // IsBinary bits least greatest q }, |x.1 - q| ≤ |y.1 - q| := by
  have hzero : IsBinary bits least greatest 0 := by
    have hcast : IsBinary bits least greatest ((0 : ℤ) : ℚ) :=
      isBinary_intCast (by positivity) hleast hgreatest
    simpa using hcast
  obtain ⟨x, hx, hmin⟩ := Set.exists_min_image _ (fun x => |x - q|)
    (finite_isBinary bits least greatest) ⟨0, hzero⟩
  exact ⟨⟨x, hx⟩, fun y => hmin y.1 y.2⟩

/-- The format with so many bits and exponents between the bounds. -/
noncomputable def binaryFormat (bits : ℕ) (least greatest : ℤ) (hleast : least ≤ 0)
    (hgreatest : 0 ≤ greatest) : FloatFormat where
  Value := { q // IsBinary bits least greatest q }
  toRat := Subtype.val
  nearest := fun q => (exists_nearest hleast hgreatest q).choose
  injective := Subtype.val_injective
  nearest_le := fun q => (exists_nearest hleast hgreatest q).choose_spec

/-! ## Single and double precision -/

/-- A number of the format is whole, or at most half the largest significand. -/
theorem IsBinary.whole_or_half {q : ℚ} (h : IsBinary bits least greatest q) :
    (∃ n : ℤ, q = n) ∨ |q| * 2 < 2 ^ bits := by
  obtain ⟨m, e, hm, _, _, rfl⟩ := h
  rcases le_or_gt 0 e with he | he
  · left
    obtain ⟨k, rfl⟩ := Int.eq_ofNat_of_zero_le he
    exact ⟨m * 2 ^ k, by push_cast; rfl⟩
  · right
    have hm : |(m : ℚ)| < 2 ^ bits := by exact_mod_cast hm
    have hexp : (2 : ℚ) ^ e ≤ 2 ^ (-1 : ℤ) := zpow_le_zpow_right₀ (by norm_num) (by omega)
    have hpos : (0 : ℚ) < 2 ^ e := zpow_pos (by norm_num) e
    calc |(m : ℚ) * 2 ^ e| * 2 = |(m : ℚ)| * (2 ^ e * 2) := by
          rw [abs_mul, abs_of_pos hpos, mul_assoc]
      _ ≤ |(m : ℚ)| * 1 := by
          apply mul_le_mul_of_nonneg_left _ (abs_nonneg _)
          rw [zpow_neg_one] at hexp
          linarith
      _ < 2 ^ bits := by rwa [mul_one]

/-- A whole number beside a number of the format is one. -/
theorem IsBinary.of_close {q : ℚ} {n : ℤ} (h : IsBinary bits least greatest q) (hbits : 2 ≤ bits)
    (hleast : least ≤ 0) (hgreatest : 0 ≤ greatest) (hwhole : ∀ k : ℤ, q = k → n = k)
    (hclose : |n - q| < 1) : IsBinary bits least greatest n := by
  rcases h.whole_or_half with ⟨k, hk⟩ | hhalf
  · rw [hwhole k hk, ← hk]
    exact h
  · apply isBinary_intCast _ hleast hgreatest
    have hfour : (4 : ℚ) ≤ 2 ^ bits := by
      calc (4 : ℚ) = 2 ^ 2 := by norm_num
        _ ≤ 2 ^ bits := pow_le_pow_right₀ (by norm_num) hbits
    have htriangle := abs_add_le (n - q) q
    rw [sub_add_cancel] at htriangle
    have hlt : |(n : ℚ)| < 2 ^ bits := by linarith
    exact_mod_cast hlt

noncomputable def binary32 : SingleFormat where
  toFloatFormat := binaryFormat 24 (-149) 104 (by decide) (by decide)
  floor := fun x => by
    refine ⟨⟨_, x.2.of_close (n := ⌊x.1⌋) (by decide) (by decide) (by decide) ?_ ?_⟩, rfl⟩
    · intro k hk
      rw [hk, Int.floor_intCast]
    · rw [abs_sub_comm, abs_of_nonneg (sub_nonneg.mpr (Int.floor_le x.1))]
      linarith [Int.lt_floor_add_one x.1]
  ceil := fun x => by
    refine ⟨⟨_, x.2.of_close (n := ⌈x.1⌉) (by decide) (by decide) (by decide) ?_ ?_⟩, rfl⟩
    · intro k hk
      rw [hk, Int.ceil_intCast]
    · rw [abs_of_nonneg (sub_nonneg.mpr (Int.le_ceil x.1))]
      linarith [Int.ceil_lt_add_one x.1]
  byte := fun n hn => by
    refine ⟨⟨_, isBinary_intCast (n := n) ?_ (by decide) (by decide)⟩, rfl⟩
    rw [abs_of_nonneg (by omega)]
    omega
  bounded := fun x => by
    obtain ⟨m, e, hm, _, he, hx⟩ := x.2
    have hm : |(m : ℚ)| < 2 ^ 24 := by exact_mod_cast hm
    have hpos : (0 : ℚ) < 2 ^ e := zpow_pos (by norm_num) e
    have hexp : (2 : ℚ) ^ e ≤ 2 ^ (104 : ℤ) := zpow_le_zpow_right₀ (by norm_num) he
    change |x.1| < 10 ^ 39
    calc |x.1| = |(m : ℚ)| * 2 ^ e := by rw [hx, abs_mul, abs_of_pos hpos]
      _ ≤ 2 ^ 24 * 2 ^ (104 : ℤ) := by
          apply mul_le_mul hm.le hexp hpos.le (by norm_num)
      _ < 10 ^ 39 := by norm_num

theorem abs_round_sub (x : ℚ) : |(round x : ℚ) - x| * 2 ≤ 1 := by
  have hround := abs_sub_round x
  rw [abs_sub_comm] at hround
  linarith

theorem abs_round_le {x bound : ℚ} (hx : |x| ≤ bound) : |(round x : ℚ)| ≤ bound + 1 := by
  have hround := abs_round_sub x
  have htriangle := abs_sub_abs_le_abs_sub (round x : ℚ) x
  linarith

/-- Close to small numbers there are values with 45 binary places. -/
theorem exists_binary64 {q : ℚ} (hq : |q| ≤ 255) :
    ∃ y, IsBinary 53 (-1074) 971 y ∧ |y - q| * 2 ^ 46 ≤ 1 := by
  set m := round (q * 2 ^ 45) with hm
  refine ⟨m * 2 ^ (-45 : ℤ), ⟨m, -45, ?_, by decide, by decide, rfl⟩, ?_⟩
  · have hlarge : |q * 2 ^ 45| ≤ 255 * 2 ^ 45 := by
      rw [abs_mul, abs_of_pos (show (0 : ℚ) < 2 ^ 45 by norm_num)]
      exact mul_le_mul_of_nonneg_right hq (by norm_num)
    have hlt : |(m : ℚ)| < 2 ^ 53 := lt_of_le_of_lt (abs_round_le hlarge) (by norm_num)
    exact_mod_cast hlt
  · have hscale : (m * 2 ^ (-45 : ℤ) - q) * 2 ^ 46 = (m - q * 2 ^ 45) * 2 := by
      rw [zpow_neg, zpow_ofNat]
      ring
    calc |(m : ℚ) * 2 ^ (-45 : ℤ) - q| * 2 ^ 46
        = |((m : ℚ) * 2 ^ (-45 : ℤ) - q) * 2 ^ 46| := by
          rw [abs_mul, abs_of_pos (show (0 : ℚ) < 2 ^ 46 by norm_num)]
      _ = |m - q * 2 ^ 45| * 2 := by rw [hscale, abs_mul, abs_of_pos (show (0 : ℚ) < 2 by norm_num)]
      _ ≤ 1 := abs_round_sub _

noncomputable def binary64 : DoubleFormat where
  toFloatFormat := binaryFormat 53 (-1074) 971 (by decide) (by decide)
  precise := fun q hq => by
    set format := binaryFormat 53 (-1074) 971 (by decide) (by decide)
    have hsmall : |q| ≤ 255 := by
      rcases hq with hnear | hq
      · by_contra hlarge
        -- The values 255 and -255 are nearer than what is read.
        obtain ⟨y, hy⟩ : ∃ y : format.Value, |format.toRat y - q| < |q| - 180 := by
          rcases le_total 0 q with hsign | hsign
          · refine ⟨⟨_, isBinary_intCast (n := 255) (by decide) (by decide) (by decide)⟩, ?_⟩
            change |((255 : ℤ) : ℚ) - q| < |q| - 180
            rw [abs_of_nonneg hsign] at hlarge ⊢
            rw [abs_of_nonpos] <;> push_cast <;> linarith
          · refine ⟨⟨_, isBinary_intCast (n := -255) (by decide) (by decide) (by decide)⟩, ?_⟩
            change |((-255 : ℤ) : ℚ) - q| < |q| - 180
            rw [abs_of_nonpos hsign] at hlarge ⊢
            rw [abs_of_nonneg] <;> push_cast <;> linarith
        have hle := format.nearest_le q y
        have htriangle := abs_sub_abs_le_abs_sub q (format.toRat (format.nearest q))
        rw [abs_sub_comm] at htriangle
        linarith
      · linarith
    obtain ⟨y, hy, hclose⟩ := exists_binary64 hsmall
    have hle : |format.toRat (format.nearest q) - q| ≤ |y - q| := format.nearest_le q ⟨y, hy⟩
    linarith

end AdaptiveSignal.Foundation
