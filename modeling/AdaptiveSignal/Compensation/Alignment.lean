import AdaptiveSignal.Compensation.TableBounds
import Mathlib.Algebra.BigOperators.Intervals
import Mathlib.Tactic.Linarith

/-! # Aligning the end of the cycle with the baseline

Cycles are counted from a baseline, a time of the day. The total of a compensation is
what the end of the running cycle is off a multiple of the cycle time, so that the next
cycle starts on one; the shorter way is taken, forwards or backwards.
-/

namespace AdaptiveSignal.Signal

open Foundation

/-- The local time, and how far the clock of the controller is ahead of it. -/
structure Clock where
  hour : ℕ
  min : ℕ
  sec : ℕ
  tcTimeOffest : Int

/-- The seconds since a baseline of the day, which are negative before it. -/
def Clock.sinceAlign (clock : Clock) (alignHour alignMin : ℕ) : Int :=
  (((clock.hour : Int) - alignHour) * 60 + ((clock.min : Int) - alignMin)) * 60 + clock.sec

/-- `StepArr`: the seconds of the steps after the green. -/
def StaticPlan.stepArr (plan : StaticPlan) : ℕ → UInt8
  | 0 => plan.pedGreenFlash
  | 1 => plan.pedRed
  | 2 => plan.yellow
  | _ => plan.allRed

/-- The seconds of a phase, its green and the steps after it. -/
def StaticPlan.phaseSeconds (plan : StaticPlan) : Int :=
  plan.preGreen.toNat + plan.pedGreenFlash.toNat + plan.pedRed.toNat + plan.yellow.toNat +
    plan.allRed.toNat

/-- What brings an amount to a multiple of the cycle time: less than half a cycle is
given back, more is filled up. -/
def correction (amount cycleTime : Int) : Int :=
  if amount.tmod cycleTime < cycleTime / 2 then -amount.tmod cycleTime
  else cycleTime - amount.tmod cycleTime

namespace TrafficSignalStatus

variable (status : TrafficSignalStatus)

/-- `secInDay` after the loops of `get_alignment_compensation_time`. The steps are
numbered from one, and the index of the phase is kept in 16 bits. -/
def secInDay (clock : Clock) (alignHour alignMin : ℕ) : Int :=
  let subPhaseId := (status.subPhaseId.toUInt16 - 1).toNat
  let stepId := status.stepId.toNat
  let elapsed := clock.sinceAlign alignHour alignMin - status.offset.toNat + clock.tcTimeOffest
  let phases := run (fun sec i => sec + (status.planAt i).phaseSeconds) elapsed
    (List.range' (subPhaseId + 1) (status.subPhaseCount.toNat - (subPhaseId + 1)))
  let steps := run (fun sec i => sec + (((status.planAt subPhaseId).stepArr i).toNat : Int)) phases
    (List.range' (stepId - 1) (5 - stepId))
  steps + status.stepSec.toNat

/-- `get_alignment_compensation_time`; none where it divides by zero. -/
def alignmentCompensationTime (clock : Clock) (alignHour alignMin : ℕ) : Option Int16 :=
  if status.cycleTime = 0 then none
  else some (Int16.ofInt
    (correction (status.secInDay clock alignHour alignMin) status.cycleTime.toNat))

/-! ## The seconds from the baseline to the end of the cycle -/

/-- The seconds the running cycle still lasts: those of the running step, of the steps
after it and of the phases after the running one. -/
def cycleSecondsLeft : Int :=
  status.stepSec.toNat +
    ∑ step ∈ Finset.Ico (status.stepId.toNat + 1) 6,
      (((status.plan status.subPhaseId).stepArr (step - 2)).toNat : Int) +
    ∑ phase ∈ Finset.Ico (status.subPhaseId.toNat + 1) (status.subPhaseCount.toNat + 1),
      (status.plan (UInt8.ofNat phase)).phaseSeconds

/-- The seconds from the baseline, moved by the offset, to the end of the running cycle. -/
def secondsToCycleEnd (clock : Clock) (alignHour alignMin : ℕ) : Int :=
  clock.sinceAlign alignHour alignMin - status.offset.toNat + clock.tcTimeOffest +
    status.cycleSecondsLeft

/-- A step of a phase is running. -/
structure InStep : Prop where
  phase : status.RunsPhase
  step : 1 ≤ status.stepId.toNat ∧ status.stepId.toNat ≤ 5

/-- The amount aligns the end of the cycle, by half a cycle at most, and nothing is
divided by a cycle time of zero. -/
def Aligns (clock : Clock) (alignHour alignMin : ℕ) : Prop :=
  ∃ amount, status.alignmentCompensationTime clock alignHour alignMin = some amount ∧
    (0 < status.cycleTime.toNat →
      (status.cycleTime.toNat : Int) ∣
          status.secondsToCycleEnd clock alignHour alignMin + amount.toInt ∧
        amount.toInt.natAbs ≤ (status.cycleTime.toNat + 1) / 2)

end TrafficSignalStatus

/-! ## What the loops add up -/

theorem run_sum (f : ℕ → Int) (first count : ℕ) (amount : Int) :
    run (fun sec i => sec + f i) amount (List.range' first count) =
      amount + ∑ i ∈ Finset.range count, f (first + i) := by
  induction count with
  | zero => simp
  | succ count ih =>
      rw [List.range'_1_concat, run_concat, ih, Finset.sum_range_succ, add_assoc]

/-- The loops add up the seconds to the end of the cycle. -/
theorem secInDay_eq {status : TrafficSignalStatus} (hstep : status.InStep) (clock : Clock)
    (alignHour alignMin : ℕ) :
    status.secInDay clock alignHour alignMin =
      status.secondsToCycleEnd clock alignHour alignMin := by
  obtain ⟨⟨hpositive, hphase⟩, hfirst, hlast⟩ := hstep
  have hindex : (status.subPhaseId.toUInt16 - 1).toNat = status.subPhaseId.toNat - 1 := by
    rw [TrafficSignalStatus.phaseIndex_eq, if_neg (by omega)]
  unfold TrafficSignalStatus.secInDay TrafficSignalStatus.secondsToCycleEnd
    TrafficSignalStatus.cycleSecondsLeft
  dsimp only
  rw [run_sum, run_sum, hindex, planAt_running hpositive, Nat.sub_add_cancel hpositive,
    Finset.sum_Ico_eq_sum_range, Finset.sum_Ico_eq_sum_range,
    show 6 - (status.stepId.toNat + 1) = 5 - status.stepId.toNat by omega,
    show status.subPhaseCount.toNat + 1 - (status.subPhaseId.toNat + 1) =
      status.subPhaseCount.toNat - status.subPhaseId.toNat by omega]
  have hsteps : ∀ i, status.stepId.toNat + 1 + i - 2 = status.stepId.toNat - 1 + i := by
    intro i
    omega
  have hphases : ∀ i, status.plan (UInt8.ofNat (status.subPhaseId.toNat + 1 + i)) =
      status.planAt (status.subPhaseId.toNat + i) := by
    intro i
    rw [TrafficSignalStatus.planAt, phaseAt, Nat.add_right_comm]
  simp only [hsteps, hphases]
  abel

/-! ## The shorter way to a multiple of the cycle time -/

section Correction

variable {amount cycleTime : Int}

theorem correction_dvd (amount cycleTime : Int) :
    cycleTime ∣ amount + correction amount cycleTime := by
  have hdivision := Int.mul_tdiv_add_tmod amount cycleTime
  unfold correction
  split_ifs
  · exact ⟨amount.tdiv cycleTime, by omega⟩
  · exact ⟨amount.tdiv cycleTime + 1, by rw [mul_add]; omega⟩

/-- From the baseline on the remainder is not negative, and the way is the shorter one. -/
theorem correction_of_nonneg (hamount : 0 ≤ amount) :
    correction amount cycleTime =
      if amount % cycleTime < cycleTime / 2 then -(amount % cycleTime)
      else cycleTime - amount % cycleTime := by
  rw [correction, Int.tmod_eq_emod_of_nonneg hamount]

/-- Before the baseline the remainder is negative, and is given back whole. -/
theorem correction_of_neg (hcycle : 2 ≤ cycleTime) (hamount : amount < 0) :
    correction amount cycleTime = -amount % cycleTime := by
  have hrest : amount.tmod cycleTime = -(-amount % cycleTime) := by
    rw [← Int.tmod_eq_emod_of_nonneg (by omega : 0 ≤ -amount), Int.neg_tmod, neg_neg]
  have hnonneg := Int.emod_nonneg (-amount) (by omega : cycleTime ≠ 0)
  rw [correction, hrest, if_pos (by omega), neg_neg]

/-- Half a cycle is exceeded before the baseline only, where more than that remains. -/
theorem correction_le_half_iff (amount : Int) {cycleTime : Int} (hcycle : 0 < cycleTime) :
    (correction amount cycleTime).natAbs ≤ (cycleTime.toNat + 1) / 2 ↔
      0 ≤ amount ∨ -amount % cycleTime ≤ (cycleTime + 1) / 2 := by
  rcases lt_or_ge amount 0 with hneg | hnonneg
  · rw [or_iff_right (by omega)]
    rcases eq_or_ne cycleTime 1 with rfl | hne
    · exact iff_of_true (by simp [correction]) (by simp)
    · have hrest := Int.emod_nonneg (-amount) (by omega : cycleTime ≠ 0)
      rw [correction_of_neg (by omega) hneg]
      omega
  · have hrest := Int.emod_nonneg amount (by omega : cycleTime ≠ 0)
    have hlt := Int.emod_lt_of_pos amount hcycle
    rw [correction_of_nonneg hnonneg]
    refine iff_of_true ?_ (Or.inl hnonneg)
    split_ifs <;> omega

theorem correction_bounds (amount : Int) {cycleTime : Int} (hcycle : 0 < cycleTime) :
    -(cycleTime / 2) < correction amount cycleTime ∧
      (correction amount cycleTime < cycleTime ∨
        cycleTime = 1 ∧ correction amount cycleTime = 1) := by
  rcases eq_or_ne cycleTime 1 with rfl | hne
  · simp [correction]
  rcases lt_or_ge amount 0 with hneg | hnonneg
  · have hrest := Int.emod_nonneg (-amount) (by omega : cycleTime ≠ 0)
    have hlt := Int.emod_lt_of_pos (-amount) hcycle
    rw [correction_of_neg (by omega) hneg]
    omega
  · have hrest := Int.emod_nonneg amount (by omega : cycleTime ≠ 0)
    have hlt := Int.emod_lt_of_pos amount hcycle
    rw [correction_of_nonneg hnonneg]
    split_ifs <;> omega

/-- Only the largest odd cycle time has a half that 16 bits do not hold. -/
theorem correction_fits (hcycle : 0 < cycleTime) (hword : cycleTime ≤ 65535)
    (hhalf : (correction amount cycleTime).natAbs ≤ (cycleTime.toNat + 1) / 2)
    (hlargest : ¬ (cycleTime = 65535 ∧ amount % 65535 = 32767)) :
    (Int16.ofInt (correction amount cycleTime)).toInt = correction amount cycleTime := by
  have hdvd := correction_dvd amount cycleTime
  apply Int16.toInt_ofInt_of_le
  · omega
  · by_contra hlarge
    obtain rfl : cycleTime = 65535 := by omega
    have hvalue : correction amount 65535 = 32768 := by omega
    rw [hvalue] at hdvd
    omega

/-- A correction that 16 bits do not hold is carried to no multiple of the cycle time. -/
theorem not_dvd_of_wide (hcycle : 0 < cycleTime) (hword : cycleTime ≤ 65535)
    (hwide : 32767 < correction amount cycleTime) :
    ¬ cycleTime ∣ amount + (Int16.ofInt (correction amount cycleTime)).toInt := by
  intro hdvd
  have hbounds := correction_bounds amount hcycle
  have hwrapped : (Int16.ofInt (correction amount cycleTime)).toInt =
      correction amount cycleTime - 65536 := by
    rw [Int16.toInt_ofInt]
    change Int.bmod _ 65536 = _
    rw [Int.bmod_def]
    split_ifs <;> omega
  have hpower : cycleTime ∣ 65536 := by
    have hsub := Int.dvd_sub (correction_dvd amount cycleTime) hdvd
    rwa [hwrapped, show amount + correction amount cycleTime -
      (amount + (correction amount cycleTime - 65536)) = 65536 by omega] at hsub
  have hlarge : 32769 ≤ cycleTime := by omega
  -- but a proper divisor is at most half of it
  obtain ⟨parts, hparts⟩ := hpower
  have htwo : 2 ≤ parts := by
    by_contra hone
    nlinarith
  nlinarith

/-- In 16 bits the correction still leads to a multiple of the cycle time, by half of it at
most, exactly if the correction does and 16 bits hold it. -/
theorem correction_word_iff (amount : Int) {cycleTime : Int} (hcycle : 0 < cycleTime)
    (hword : cycleTime ≤ 65535) :
    (cycleTime ∣ amount + (Int16.ofInt (correction amount cycleTime)).toInt ∧
        (Int16.ofInt (correction amount cycleTime)).toInt.natAbs ≤ (cycleTime.toNat + 1) / 2) ↔
      (0 ≤ amount ∨ -amount % cycleTime ≤ (cycleTime + 1) / 2) ∧
        ¬ (cycleTime = 65535 ∧ amount % 65535 = 32767) := by
  have hhalf := correction_le_half_iff amount hcycle
  have hbounds := correction_bounds amount hcycle
  constructor
  · rintro ⟨hdvd, hsmall⟩
    have hnarrow : correction amount cycleTime ≤ 32767 := by
      by_contra hwide
      exact not_dvd_of_wide hcycle hword (by omega) hdvd
    have hfits : (Int16.ofInt (correction amount cycleTime)).toInt =
        correction amount cycleTime := Int16.toInt_ofInt_of_le (by omega) (by omega)
    rw [hfits] at hdvd hsmall
    refine ⟨hhalf.mp hsmall, ?_⟩
    rintro ⟨rfl, hrest⟩
    omega
  · rintro ⟨hhalf', hlargest⟩
    rw [correction_fits hcycle hword (hhalf.mpr hhalf') hlargest]
    exact ⟨correction_dvd amount cycleTime, hhalf.mpr hhalf'⟩

end Correction

/-- The amount aligns the end of the cycle exactly if the cycle time is not zero, the
time is past the baseline or less than half a cycle remains before it, and the amount
has 16 bits. -/
theorem aligns_iff {status : TrafficSignalStatus} (hstep : status.InStep) (clock : Clock)
    (alignHour alignMin : ℕ) :
    status.Aligns clock alignHour alignMin ↔
      0 < status.cycleTime.toNat ∧
        (0 ≤ status.secondsToCycleEnd clock alignHour alignMin ∨
          -status.secondsToCycleEnd clock alignHour alignMin % status.cycleTime.toNat ≤
            (status.cycleTime.toNat + 1) / 2) ∧
        ¬ (status.cycleTime.toNat = 65535 ∧
          status.secondsToCycleEnd clock alignHour alignMin % 65535 = 32767) := by
  have hword : (status.cycleTime.toNat : Int) ≤ 65535 := by
    have hlt := status.cycleTime.toNat_lt
    omega
  unfold TrafficSignalStatus.Aligns TrafficSignalStatus.alignmentCompensationTime
  rw [secInDay_eq hstep]
  generalize status.secondsToCycleEnd clock alignHour alignMin = amount
  by_cases hzero : status.cycleTime = 0
  · rw [if_pos hzero]
    refine iff_of_false ?_ ?_
    · rintro ⟨_, hnone, -⟩
      exact absurd hnone (by simp)
    · rw [hzero]
      exact fun h => absurd h.1 (by decide)
  have hpositive : 0 < status.cycleTime.toNat :=
    Nat.pos_of_ne_zero fun h => hzero (UInt16.toNat_inj.mp h)
  rw [if_neg hzero]
  generalize status.cycleTime.toNat = cycleTime at *
  have hvalue := correction_word_iff amount (by omega : 0 < (cycleTime : Int)) hword
  rw [Int.toNat_natCast] at hvalue
  rw [and_iff_right hpositive]
  refine Iff.trans ?_ (hvalue.trans (and_congr_right fun _ => not_congr (by omega)))
  constructor
  · rintro ⟨_, hsome, haligned⟩
    rw [Option.some.inj hsome]
    exact haligned hpositive
  · exact fun haligned => ⟨_, rfl, fun _ => haligned⟩

/-- Ten seconds before the end of a cycle of 100 seconds. -/
def TrafficSignalStatus.lastSeconds : TrafficSignalStatus :=
  { TrafficSignalStatus.initial fun _ => .unset with
    subPhaseId := 1, subPhaseCount := 1, stepId := 5, stepSec := 10, cycleTime := 100 }

theorem aligns_iff_next_minute :
    TrafficSignalStatus.lastSeconds.Aligns ⟨0, 0, 20, 0⟩ 0 1 ↔
      0 < TrafficSignalStatus.lastSeconds.cycleTime.toNat ∧
        (0 ≤ TrafficSignalStatus.lastSeconds.secondsToCycleEnd ⟨0, 0, 20, 0⟩ 0 1 ∨
          -TrafficSignalStatus.lastSeconds.secondsToCycleEnd ⟨0, 0, 20, 0⟩ 0 1 %
              TrafficSignalStatus.lastSeconds.cycleTime.toNat ≤
            (TrafficSignalStatus.lastSeconds.cycleTime.toNat + 1) / 2) ∧
        ¬ (TrafficSignalStatus.lastSeconds.cycleTime.toNat = 65535 ∧
          TrafficSignalStatus.lastSeconds.secondsToCycleEnd ⟨0, 0, 20, 0⟩ 0 1 % 65535 = 32767) :=
  aligns_iff ⟨by decide, by decide⟩ ⟨0, 0, 20, 0⟩ 0 1

/-- With 90 seconds to the baseline the cycle is moved by 90 seconds instead of back by 10. -/
theorem moved_by_most_of_a_cycle :
    TrafficSignalStatus.lastSeconds.alignmentCompensationTime ⟨0, 0, 20, 0⟩ 0 2 = some 90 ∧
      ¬ TrafficSignalStatus.lastSeconds.Aligns ⟨0, 0, 20, 0⟩ 0 2 := by
  have hamount : TrafficSignalStatus.lastSeconds.alignmentCompensationTime ⟨0, 0, 20, 0⟩ 0 2 =
      some 90 := by decide
  refine ⟨hamount, ?_⟩
  rintro ⟨_, hsome, haligned⟩
  rw [hamount] at hsome
  have hsmall := (haligned (by decide)).2
  rw [← Option.some.inj hsome] at hsmall
  exact absurd hsmall (by decide)

end AdaptiveSignal.Signal
