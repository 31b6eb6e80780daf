import AdaptiveSignal.Foundation.Run
import AdaptiveSignal.Signal.PlanPackets
import Mathlib.Algebra.BigOperators.Intervals
import Mathlib.Algebra.Order.BigOperators.Group.Finset

/-! # The longest extension for an emergency vehicle

The green of the target phase is extended by what the other phases take at least. The
loop of the source runs over the phase numbers up to seven, whatever plan is stored.
-/

namespace AdaptiveSignal.Signal

open Foundation

namespace TrafficSignalStatus

variable (status : TrafficSignalStatus)

/-- The least seconds of a phase: its minimum green, yellow and all red. -/
def leastSeconds (phase : ℕ) : ℕ :=
  let plan := status.plan (UInt8.ofNat phase)
  plan.minGreen.toNat + plan.yellow.toNat + plan.allRed.toNat

/-- A phase number other than the target. -/
abbrev Other (targetPhase : Int) (phase : ℕ) : Prop := (phase : Int) ≠ targetPhase

/-- `EVSP_extend_formula`. -/
def evspExtendFormula (targetPhase : Int) (tbf : Int) : Int :=
  (run (fun sec i => if Other targetPhase i then sec + status.leastSeconds i else sec) 0
    (List.range' 1 7) : ℕ) + tbf

/-- The seconds of the phases of the plan other than the target. -/
def otherPhases (targetPhase : Int) : ℕ :=
  ∑ phase ∈ Finset.Ico 1 (status.subPhaseCount.toNat + 1) with Other targetPhase phase,
    status.leastSeconds phase

/-- The extension covers the phases that are keepped, and no others. -/
def ExtensionCovers (targetPhase : Int) : Prop :=
  ∀ tbf, status.evspExtendFormula targetPhase tbf = tbf + status.otherPhases targetPhase

end TrafficSignalStatus

/-! ## What the loop adds up -/

theorem run_sum_if (keep : ℕ → Prop) [DecidablePred keep] (f : ℕ → ℕ) (first count : ℕ)
    (amount : ℕ) :
    run (fun sec i => if keep i then sec + f i else sec) amount (List.range' first count) =
      amount + ∑ i ∈ Finset.Ico first (first + count) with keep i, f i := by
  induction count with
  | zero => simp
  | succ count ih =>
      rw [List.range'_1_concat, run_concat, ih, ← Nat.add_assoc, Finset.sum_filter,
        Finset.sum_filter, Finset.sum_Ico_succ_top (Nat.le_add_right first count)]
      split_ifs
      · rw [add_assoc]
      · rw [add_zero]

section Phases

variable {keep : ℕ → Prop} [DecidablePred keep] (f : ℕ → ℕ) {count : ℕ}

/-- Entries behind the last phase are added as well. -/
theorem sum_below_eight_iff (hcount : count ≤ 7) :
    (∑ i ∈ Finset.Ico 1 8 with keep i, f i) =
        ∑ i ∈ Finset.Ico 1 (count + 1) with keep i, f i ↔
      ∀ i, count < i → i < 8 → keep i → f i = 0 := by
  rw [Finset.sum_filter, Finset.sum_filter,
    ← Finset.sum_Ico_consecutive _ (by omega : 1 ≤ count + 1) (by omega : count + 1 ≤ 8),
    Nat.add_eq_left, Finset.sum_eq_zero_iff]
  constructor
  · intro h i hlow hhigh hkeep
    have hzero := h i (Finset.mem_Ico.mpr ⟨hlow, hhigh⟩)
    rwa [if_pos hkeep] at hzero
  · intro h i hi
    obtain ⟨hlow, hhigh⟩ := Finset.mem_Ico.mp hi
    split_ifs with hkeep
    · exact h i hlow hhigh hkeep
    · rfl

/-- The eighth phase is left out. -/
theorem sum_without_eight_iff :
    (∑ i ∈ Finset.Ico 1 8 with keep i, f i) = ∑ i ∈ Finset.Ico 1 9 with keep i, f i ↔
      (keep 8 → f 8 = 0) := by
  rw [Finset.sum_filter, Finset.sum_filter, Finset.sum_Ico_succ_top (by decide : 1 ≤ 8),
    eq_comm, Nat.add_eq_left]
  split_ifs with hkeep
  · exact (imp_iff_right hkeep).symm
  · exact iff_of_true rfl fun h => absurd h hkeep

end Phases

/-- The extension covers the other phases exactly if the entries behind the plan, up to the
seventh, hold nothing, and a plan of eight phases has nothing in the eighth. -/
theorem extensionCovers_iff (status : TrafficSignalStatus) (targetPhase : Int)
    (hfirst : 1 ≤ status.subPhaseCount.toNat) (hlast : status.subPhaseCount.toNat ≤ 8) :
    status.ExtensionCovers targetPhase ↔
      (∀ phase : ℕ, status.subPhaseCount.toNat < phase → phase < 8 →
          TrafficSignalStatus.Other targetPhase phase → status.leastSeconds phase = 0) ∧
        (status.subPhaseCount.toNat = 8 → targetPhase ≠ 8 → status.leastSeconds 8 = 0) := by
  have hcovers : status.ExtensionCovers targetPhase ↔
      (∑ i ∈ Finset.Ico 1 8 with TrafficSignalStatus.Other targetPhase i, status.leastSeconds i) =
        status.otherPhases targetPhase := by
    unfold TrafficSignalStatus.ExtensionCovers TrafficSignalStatus.evspExtendFormula
    rw [run_sum_if (TrafficSignalStatus.Other targetPhase) status.leastSeconds, zero_add,
      show 1 + 7 = 8 from rfl]
    constructor
    · intro h
      have hzero := h 0
      omega
    · intro h tbf
      rw [← h]
      omega
  rw [hcovers]
  unfold TrafficSignalStatus.otherPhases
  rcases Nat.lt_or_ge status.subPhaseCount.toNat 8 with hshort | hwhole
  · rw [sum_below_eight_iff _ (by omega)]
    exact (and_iff_left fun h => absurd h (by omega)).symm
  · obtain hcount : status.subPhaseCount.toNat = 8 := by omega
    rw [hcount, sum_without_eight_iff]
    rw [and_iff_right fun phase hlow hhigh => absurd hhigh (by omega), forall_prop_of_true rfl]
    exact imp_congr_left ne_comm

/-- The parameters of a plan, with the same minimum green in every phase. -/
def TrafficSignalPacket.equalPhases (count minGreen : UInt8) : TrafficSignalPacket where
  info
    | 0 => 0x5F
    | 1 => 0xC4
    | 3 => count
    | i => if 4 ≤ i ∧ (i - 4) % 7 = 0 then minGreen else 0

/-- The status after the parameters of plans with ten seconds of green in every phase. -/
def TrafficSignalStatus.afterPlans (counts : List UInt8) : TrafficSignalStatus :=
  (run Middleware.dispatch
    (Middleware.boot Config.initial (TrafficSignalStatus.initial fun _ => .unset))
    (counts.map fun count => .equalPhases count 10)).status

theorem extensionCovers_iff_two :
    (TrafficSignalStatus.afterPlans [2]).ExtensionCovers 1 ↔
      (∀ phase : ℕ, (TrafficSignalStatus.afterPlans [2]).subPhaseCount.toNat < phase →
          phase < 8 → TrafficSignalStatus.Other 1 phase →
          (TrafficSignalStatus.afterPlans [2]).leastSeconds phase = 0) ∧
        ((TrafficSignalStatus.afterPlans [2]).subPhaseCount.toNat = 8 → (1 : Int) ≠ 8 →
          (TrafficSignalStatus.afterPlans [2]).leastSeconds 8 = 0) :=
  extensionCovers_iff (TrafficSignalStatus.afterPlans [2]) 1 (by decide) (by decide)

/-- The eighth of eight phases is missed, and a phase of the plan before is counted. -/
theorem missed_and_stale :
    ((TrafficSignalStatus.afterPlans [8]).evspExtendFormula 1 0 = 60 ∧
      ¬ (TrafficSignalStatus.afterPlans [8]).ExtensionCovers 1) ∧
    ((TrafficSignalStatus.afterPlans [2, 1]).evspExtendFormula 1 0 = 10 ∧
      ¬ (TrafficSignalStatus.afterPlans [2, 1]).ExtensionCovers 1) := by
  refine ⟨⟨by decide, fun h => ?_⟩, by decide, fun h => ?_⟩
  · exact absurd (h 0) (by decide)
  · exact absurd (h 0) (by decide)

end AdaptiveSignal.Signal
