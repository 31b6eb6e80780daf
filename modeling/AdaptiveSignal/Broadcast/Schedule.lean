import AdaptiveSignal.Foundation.RestartingCounter
import Mathlib.Algebra.GCDMonoid.Nat

/-! # The broadcast schedule

The dispatcher of the traffic information base counts the iterations of its
loop, and works on a kind of message where the count is a multiple of the
kind's period. The count starts again from 1 after fifty rounds. A round is a
common multiple of the MAP and the SPaT period; the TIM period has no part in it.
-/

namespace AdaptiveSignal.Broadcast

open Foundation

/-- The cycles per transfer of `TIB_config`. The dispatcher takes remainders by
all of them, so it runs only with positive ones. -/
structure TibConfig where
  mapPacketCyclePerTransfer : UInt8
  spatPacketCyclePerTransfer : UInt8
  timPacketCyclePerTransfer : UInt8
  rsaPacketCyclePerTransfer : UInt8
  psmPacketCyclePerTransfer : UInt8
  evaPacketCyclePerTransfer : UInt8
  map_pos : 0 < mapPacketCyclePerTransfer.toNat
  spat_pos : 0 < spatPacketCyclePerTransfer.toNat
  tim_pos : 0 < timPacketCyclePerTransfer.toNat
  rsa_pos : 0 < rsaPacketCyclePerTransfer.toNat
  psm_pos : 0 < psmPacketCyclePerTransfer.toNat
  eva_pos : 0 < evaPacketCyclePerTransfer.toNat

def gcd (m n : ℕ) : ℕ :=
  if _hn : n = 0 then m else gcd n (m % n)
termination_by n
decreasing_by exact Nat.mod_lt m (Nat.pos_of_ne_zero ‹_›)

theorem gcd_eq (m n : ℕ) : gcd m n = Nat.gcd m n := by
  induction m, n using gcd.induct with
  | case1 m =>
      rw [gcd, dif_pos rfl, Nat.gcd_zero_right]
  | case2 m n hn ih =>
      rw [gcd, dif_neg hn, ih, Nat.gcd_comm m n, Nat.gcd_rec n m, Nat.gcd_comm]

/-- The test before each branch of the loop. -/
def due (period : UInt8) (cycles : ℕ) : Prop :=
  cycles % period.toNat = 0 ∧ cycles ≠ 0

instance (period : UInt8) (cycles : ℕ) : Decidable (due period cycles) :=
  inferInstanceAs (Decidable (_ ∧ _))

namespace TibConfig

variable (config : TibConfig)

def maxCycles : ℕ :=
  config.mapPacketCyclePerTransfer.toNat * config.spatPacketCyclePerTransfer.toNat /
    gcd config.mapPacketCyclePerTransfer.toNat config.spatPacketCyclePerTransfer.toNat

/-- What becomes of the count at the end of an iteration. -/
def nextCycles (cycles : ℕ) : ℕ :=
  if cycles + 1 = config.maxCycles * 50 + 1 then 1 else cycles + 1

/-- The count in an iteration, the first one being iteration 0. -/
def cyclesIn (config : TibConfig) : ℕ → ℕ
  | 0 => 0
  | n + 1 => config.nextCycles (cyclesIn config n)

theorem maxCycles_eq : config.maxCycles =
    Nat.lcm config.mapPacketCyclePerTransfer.toNat config.spatPacketCyclePerTransfer.toNat := by
  rw [maxCycles, gcd_eq]
  rfl

theorem limit_pos : 0 < config.maxCycles * 50 := by
  rw [maxCycles_eq]
  exact Nat.mul_pos (Nat.lcm_pos config.map_pos config.spat_pos) (by decide)

/-- The count restarts after fifty rounds. -/
theorem cyclesIn_eq (n : ℕ) : config.cyclesIn n = counterAt (config.maxCycles * 50) n := by
  induction n with
  | zero => rfl
  | succ n ih => rw [cyclesIn, ih, counterAt, nextCycles, restart]

theorem cyclesIn_ne_zero {n : ℕ} (hn : 1 ≤ n) : config.cyclesIn n ≠ 0 := by
  obtain ⟨before, rfl⟩ := Nat.exists_eq_add_of_le' hn
  rw [cyclesIn_eq, counterAt_succ config.limit_pos]
  exact Nat.succ_ne_zero _

theorem due_iff (period : UInt8) {n : ℕ} (hn : 1 ≤ n) :
    due period (config.cyclesIn n) ↔
      period.toNat ∣ counterAt (config.maxCycles * 50) n := by
  rw [due, and_iff_left (config.cyclesIn_ne_zero hn), cyclesIn_eq, Nat.dvd_iff_mod_eq_zero]

/-- A branch is entered in every iteration that its period divides and in no other, for ever. -/
def Periodic (period : UInt8) : Prop :=
  ∀ n, 1 ≤ n → (due period (config.cyclesIn n) ↔ period.toNat ∣ n)

/-- A period is kept exactly if the count restarts after a multiple of it. -/
theorem periodic_iff {period : UInt8} (hperiod : 0 < period.toNat) :
    config.Periodic period ↔ period.toNat ∣ config.maxCycles * 50 := by
  constructor
  · intro hperiodic
    apply dvd_limit_of_forall config.limit_pos hperiod
    intro n hn
    rw [← config.due_iff period hn]
    exact hperiodic n hn
  · intro hdvd n hn
    rw [config.due_iff period hn]
    exact dvd_counterAt_iff config.limit_pos hdvd n

theorem map_periodic : config.Periodic config.mapPacketCyclePerTransfer := by
  apply (config.periodic_iff config.map_pos).mpr
  rw [maxCycles_eq]
  exact (Nat.dvd_lcm_left _ _).mul_right 50

theorem spat_periodic : config.Periodic config.spatPacketCyclePerTransfer := by
  apply (config.periodic_iff config.spat_pos).mpr
  rw [maxCycles_eq]
  exact (Nat.dvd_lcm_right _ _).mul_right 50

/-- All three branches keep their periods if and only if the TIM period divides
fifty times the least common multiple of the other two. -/
theorem schedule_periodic_iff :
    (config.Periodic config.mapPacketCyclePerTransfer ∧
        config.Periodic config.spatPacketCyclePerTransfer ∧
        config.Periodic config.timPacketCyclePerTransfer) ↔
      config.timPacketCyclePerTransfer.toNat ∣
        50 * Nat.lcm config.mapPacketCyclePerTransfer.toNat
          config.spatPacketCyclePerTransfer.toNat := by
  rw [and_iff_right config.map_periodic, and_iff_right config.spat_periodic,
    config.periodic_iff config.tim_pos, maxCycles_eq, Nat.mul_comm]

/-- MAP and SPaT messages in every iteration, TIM messages in every seventh. -/
def everySeventh : TibConfig where
  mapPacketCyclePerTransfer := 1
  spatPacketCyclePerTransfer := 1
  timPacketCyclePerTransfer := 7
  rsaPacketCyclePerTransfer := 2
  psmPacketCyclePerTransfer := 2
  evaPacketCyclePerTransfer := 2
  map_pos := by decide
  spat_pos := by decide
  tim_pos := by decide
  rsa_pos := by decide
  psm_pos := by decide
  eva_pos := by decide

/-- The count restarts in iteration 51, so it is 6 in iteration 56: no TIM message
after the eighth period of 7, and one in iteration 57 instead. -/
theorem tim_period_stretched :
    ¬ due everySeventh.timPacketCyclePerTransfer (everySeventh.cyclesIn 56) ∧
      due everySeventh.timPacketCyclePerTransfer (everySeventh.cyclesIn 57) ∧
      ¬ (everySeventh.Periodic everySeventh.mapPacketCyclePerTransfer ∧
        everySeventh.Periodic everySeventh.spatPacketCyclePerTransfer ∧
        everySeventh.Periodic everySeventh.timPacketCyclePerTransfer) := by
  have hcount (n : ℕ) : everySeventh.cyclesIn (n + 1) = n % 50 + 1 := by
    rw [cyclesIn_eq, counterAt_succ everySeventh.limit_pos, maxCycles_eq]
    rfl
  have hlate : ¬ due everySeventh.timPacketCyclePerTransfer (everySeventh.cyclesIn 56) := by
    rw [hcount]
    decide
  refine ⟨hlate, ?_, fun hall => hlate ((hall.2.2 56 (by decide)).mpr (by decide))⟩
  rw [hcount]
  decide

end TibConfig

end AdaptiveSignal.Broadcast
