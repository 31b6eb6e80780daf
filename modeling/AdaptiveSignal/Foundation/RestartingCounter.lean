import Mathlib.Data.Nat.ModEq
import Mathlib.Tactic.Common

/-! # Counters that restart

A counter that counts steps from 0 and starts again from 1 after `limit` shows,
in every step but the first, a number congruent to the number of the step. A
period is kept for ever exactly if it divides the limit.
-/

namespace AdaptiveSignal.Foundation

/-- What the counter shows after a step. -/
def restart (limit count : ℕ) : ℕ :=
  if count + 1 = limit + 1 then 1 else count + 1

/-- What the counter shows in a step. -/
def counterAt (limit : ℕ) : ℕ → ℕ
  | 0 => 0
  | n + 1 => restart limit (counterAt limit n)

variable {limit : ℕ}

theorem counterAt_succ (hlimit : 0 < limit) (n : ℕ) : counterAt limit (n + 1) = n % limit + 1 := by
  induction n with
  | zero => simp [counterAt, restart]
  | succ n ih =>
      have hlt := Nat.mod_lt n hlimit
      rw [counterAt, ih, restart, ← Nat.mod_add_mod n limit 1]
      split_ifs with hfull
      · rw [Nat.succ_injective hfull, Nat.mod_self]
      · rw [Nat.mod_eq_of_lt (show n % limit + 1 < limit by omega)]

theorem counterAt_modEq (hlimit : 0 < limit) (n : ℕ) : counterAt limit n ≡ n [MOD limit] := by
  cases n with
  | zero => rfl
  | succ n =>
      rw [counterAt_succ hlimit]
      exact (Nat.mod_modEq n limit).add_right 1

/-- A period that divides the limit is kept. -/
theorem dvd_counterAt_iff {period : ℕ} (hlimit : 0 < limit) (hperiod : period ∣ limit) (n : ℕ) :
    period ∣ counterAt limit n ↔ period ∣ n :=
  ((counterAt_modEq hlimit n).of_dvd hperiod).dvd_iff dvd_rfl

/-- The counter breaks every other period, in the first round after a restart. -/
theorem dvd_limit_of_forall {period : ℕ} (hlimit : 0 < limit) (hperiod : 0 < period)
    (hkept : ∀ n, 1 ≤ n → (period ∣ counterAt limit n ↔ period ∣ n)) : period ∣ limit := by
  rcases Nat.lt_or_ge limit period with hlarge | hsmall
  · -- The counter never gets as far as the period.
    have hcount : counterAt limit period ≤ limit := by
      obtain ⟨before, rfl⟩ := Nat.exists_eq_succ_of_ne_zero hperiod.ne'
      rw [Nat.succ_eq_add_one, counterAt_succ hlimit]
      exact Nat.mod_lt before hlimit
    have hpos : 0 < counterAt limit period := by
      obtain ⟨before, rfl⟩ := Nat.exists_eq_succ_of_ne_zero hperiod.ne'
      rw [Nat.succ_eq_add_one, counterAt_succ hlimit]
      exact Nat.succ_pos _
    have hdvd := (hkept period hperiod).mpr dvd_rfl
    exact absurd (Nat.le_of_dvd hpos hdvd) (by omega)
  · -- The first multiple that the restarted counter shows comes one period after the limit.
    have hcount : counterAt limit (limit + period) = period := by
      obtain ⟨before, rfl⟩ := Nat.exists_eq_succ_of_ne_zero hperiod.ne'
      rw [Nat.succ_eq_add_one, ← Nat.add_assoc, counterAt_succ hlimit, Nat.add_mod_left,
        Nat.mod_eq_of_lt hsmall]
    have hdvd := (hkept (limit + period) (Nat.le_add_left_of_le hperiod)).mp (by rw [hcount])
    exact (Nat.dvd_add_left dvd_rfl).mp hdvd

end AdaptiveSignal.Foundation
