import AdaptiveSignal.Compensation.Alignment

/-! # The seconds a phase still lasts

Three modules work out what is left of a running phase: the status module case by case of
the step, the alignment with a loop over the step array and the emergency vehicles with one
sum for the first step. They are compared with the seconds of the steps still to come.
-/

namespace AdaptiveSignal.Signal

open Foundation

/-- The seconds of the steps of a phase after `step`, in the order of the controller. -/
def StaticPlan.secondsAfter (plan : StaticPlan) (step : ℕ) : ℕ :=
  ∑ later ∈ Finset.Ico (step + 1) 6, (plan.stepArr (later - 2)).toNat

namespace TrafficSignalStatus

variable (status : TrafficSignalStatus)

/-- `get_remaining_time`, in 16 bits. -/
def getRemainingTime (phase step : UInt8) (second : UInt16) : UInt16 :=
  let plan := status.plan phase
  match step.toNat with
  | 1 => second + plan.pedGreenFlash.toUInt16 + plan.yellow.toUInt16 + plan.pedRed.toUInt16 +
      plan.allRed.toUInt16
  | 2 => second + plan.yellow.toUInt16 + plan.pedRed.toUInt16 + plan.allRed.toUInt16
  | 3 => second + plan.pedRed.toUInt16 + plan.allRed.toUInt16
  | 4 => second + plan.allRed.toUInt16
  | _ => second

/-- `subPhase_time` of `EVSP_optimization`, as it starts. -/
def subPhaseTime : Int :=
  let plan := status.plan status.subPhaseId
  status.stepSec.toNat + plan.pedGreenFlash.toNat + plan.pedRed.toNat + plan.yellow.toNat +
    plan.allRed.toNat

/-- `secInDay` of the alignment before the loop over the steps. -/
def secInDayOfPhases (clock : Clock) (alignHour alignMin : ℕ) : Int :=
  let subPhaseId := (status.subPhaseId.toUInt16 - 1).toNat
  let elapsed := clock.sinceAlign alignHour alignMin - status.offset.toNat + clock.tcTimeOffest
  run (fun sec i => sec + (status.planAt i).phaseSeconds) elapsed
    (List.range' (subPhaseId + 1) (status.subPhaseCount.toNat - (subPhaseId + 1)))

/-- The status in the given second of a step of a phase. -/
def runningStep (phase step : UInt8) (second : UInt16) : TrafficSignalStatus :=
  { status with subPhaseId := phase, stepId := step, stepSec := second }

/-- The remaining time is that of the steps still to come, neither the next second nor the
next step makes it longer, and the other two modules have it for the same status. -/
structure OneRemainingTime (phase step : UInt8) (second : UInt16) : Prop where
  steps : (status.getRemainingTime phase step second).toNat =
    second.toNat + (status.plan phase).secondsAfter step.toNat
  nextSecond : 1 ≤ second →
    status.getRemainingTime phase step (second - 1) ≤ status.getRemainingTime phase step second
  nextStep : step < 5 →
    status.getRemainingTime phase (step + 1)
        ((status.plan phase).stepArr (step.toNat - 1)).toUInt16 ≤
      status.getRemainingTime phase step second
  alignment : ∀ clock alignHour alignMin,
    (status.runningStep phase step second).secInDay clock alignHour alignMin -
        (status.runningStep phase step second).secInDayOfPhases clock alignHour alignMin =
      (status.getRemainingTime phase step second).toNat
  optimization : step = 1 → (status.runningStep phase step second).subPhaseTime =
    (status.getRemainingTime phase step second).toNat

end TrafficSignalStatus

/-! ## The seconds of the single steps -/

section Steps

variable (plan : StaticPlan)

theorem secondsAfter_succ {step : ℕ} (hstep : step < 5) :
    plan.secondsAfter step =
      (plan.stepArr (step - 1)).toNat + plan.secondsAfter (step + 1) := by
  unfold StaticPlan.secondsAfter
  rw [Finset.sum_eq_sum_Ico_succ_bot (by omega), show step + 1 - 2 = step - 1 by omega]

@[simp] theorem secondsAfter_five : plan.secondsAfter 5 = 0 := by
  simp [StaticPlan.secondsAfter]

@[simp] theorem secondsAfter_four : plan.secondsAfter 4 = plan.allRed.toNat := by
  rw [secondsAfter_succ plan (by decide), secondsAfter_five]
  rfl

@[simp] theorem secondsAfter_three :
    plan.secondsAfter 3 = plan.yellow.toNat + plan.allRed.toNat := by
  rw [secondsAfter_succ plan (by decide), secondsAfter_four]
  rfl

@[simp] theorem secondsAfter_two :
    plan.secondsAfter 2 = plan.pedRed.toNat + (plan.yellow.toNat + plan.allRed.toNat) := by
  rw [secondsAfter_succ plan (by decide), secondsAfter_three]
  rfl

@[simp] theorem secondsAfter_one :
    plan.secondsAfter 1 = plan.pedGreenFlash.toNat +
      (plan.pedRed.toNat + (plan.yellow.toNat + plan.allRed.toNat)) := by
  rw [secondsAfter_succ plan (by decide), secondsAfter_two]
  rfl

end Steps

/-- What the alignment adds for the running phase. -/
theorem secInDay_sub {status : TrafficSignalStatus} (hphase : 1 ≤ status.subPhaseId.toNat)
    (hfirst : 1 ≤ status.stepId.toNat) (clock : Clock)
    (alignHour alignMin : ℕ) :
    status.secInDay clock alignHour alignMin -
        status.secInDayOfPhases clock alignHour alignMin =
      (status.stepSec.toNat +
        (status.plan status.subPhaseId).secondsAfter status.stepId.toNat : ℕ) := by
  have hindex : (status.subPhaseId.toUInt16 - 1).toNat = status.subPhaseId.toNat - 1 := by
    rw [TrafficSignalStatus.phaseIndex_eq, if_neg (by omega)]
  have hsteps : ∀ i, status.stepId.toNat + 1 + i - 2 = status.stepId.toNat - 1 + i := by
    intro i
    omega
  unfold TrafficSignalStatus.secInDay TrafficSignalStatus.secInDayOfPhases
    StaticPlan.secondsAfter
  dsimp only
  rw [run_sum (fun i => ((((status.planAt (status.subPhaseId.toUInt16 - 1).toNat).stepArr
      i).toNat : ℕ) : Int)), hindex, planAt_running hphase, Finset.sum_Ico_eq_sum_range,
    show 6 - (status.stepId.toNat + 1) = 5 - status.stepId.toNat by omega]
  simp only [hsteps]
  push_cast
  abel

/-! ## Where the case of the third step is right -/

/-- What `get_remaining_time` adds in a step. -/
def StaticPlan.secondsAdded (plan : StaticPlan) : ℕ → ℕ
  | 1 => plan.pedGreenFlash.toNat + plan.yellow.toNat + plan.pedRed.toNat + plan.allRed.toNat
  | 2 => plan.yellow.toNat + plan.pedRed.toNat + plan.allRed.toNat
  | 3 => plan.pedRed.toNat + plan.allRed.toNat
  | 4 => plan.allRed.toNat
  | _ => 0

section RemainingTime

variable (status : TrafficSignalStatus) (phase step : UInt8) (second : UInt16)

theorem getRemainingTime_toNat :
    (status.getRemainingTime phase step second).toNat =
      (second.toNat + (status.plan phase).secondsAdded step.toNat) % 65536 := by
  unfold TrafficSignalStatus.getRemainingTime StaticPlan.secondsAdded
  dsimp only
  have hsecond := second.toNat_lt
  split <;> simp only [UInt16.toNat_add, UInt8.toNat_toUInt16, add_zero] <;> omega

/-- The third step adds the pedestrian red, which is over, for the yellow, which is not. -/
theorem secondsAdded_three (plan : StaticPlan) :
    plan.secondsAdded 3 = plan.secondsAfter 3 ↔ plan.yellow = plan.pedRed := by
  rw [secondsAfter_three, StaticPlan.secondsAdded, ← UInt8.toNat_inj]
  omega

theorem secondsAdded_of_ne {plan : StaticPlan} {step : ℕ} (hfirst : 1 ≤ step) (hlast : step ≤ 5)
    (hthird : step ≠ 3) : plan.secondsAdded step = plan.secondsAfter step := by
  interval_cases step
  · rw [secondsAfter_one, StaticPlan.secondsAdded]
    omega
  · rw [secondsAfter_two, StaticPlan.secondsAdded]
    omega
  · exact absurd rfl hthird
  · rw [secondsAfter_four, StaticPlan.secondsAdded]
  · rw [secondsAfter_five]
    rfl

variable {status phase step second}

/-- The value is right exactly if 16 bits hold it and the third step has as much yellow as
pedestrian red. -/
theorem getRemainingTime_eq_iff (hfirst : 1 ≤ step.toNat) (hlast : step.toNat ≤ 5) :
    (status.getRemainingTime phase step second).toNat =
        second.toNat + (status.plan phase).secondsAfter step.toNat ↔
      second.toNat + (status.plan phase).secondsAfter step.toNat < 65536 ∧
        (step = 3 → (status.plan phase).yellow = (status.plan phase).pedRed) := by
  rw [getRemainingTime_toNat, ← UInt8.toNat_inj]
  by_cases hthird : step.toNat = 3
  · rw [hthird, ← secondsAdded_three, secondsAfter_three]
    have hred := (status.plan phase).pedRed.toNat_lt
    have hyellow := (status.plan phase).yellow.toNat_lt
    simp only [StaticPlan.secondsAdded]
    change _ ↔ _ ∧ (3 = 3 → _)
    omega
  · rw [secondsAdded_of_ne hfirst hlast hthird]
    change _ ↔ _ ∧ (_ = 3 → _)
    omega

/-- The next step has its whole duration before it, and the remaining time at its start is
at most what was left in the running step. -/
theorem nextStep_le_iff (hfirst : 1 ≤ step.toNat) (hlast : step.toNat < 5)
    (hvalue : (status.getRemainingTime phase step second).toNat =
      second.toNat + (status.plan phase).secondsAfter step.toNat) :
    status.getRemainingTime phase (step + 1)
          ((status.plan phase).stepArr (step.toNat - 1)).toUInt16 ≤
        status.getRemainingTime phase step second ↔
      (step = 2 →
        (status.plan phase).pedRed.toNat ≤ second.toNat + (status.plan phase).yellow.toNat) := by
  have hnext : (step + 1).toNat = step.toNat + 1 := by
    rw [UInt8.toNat_add]
    change (step.toNat + 1) % 256 = _
    omega
  rw [UInt16.le_iff_toNat_le, hvalue, getRemainingTime_toNat, hnext, UInt8.toNat_toUInt16,
    ← UInt8.toNat_inj]
  by_cases hsecond : step.toNat = 2
  · have hred := (status.plan phase).pedRed.toNat_lt
    have hallRed := (status.plan phase).allRed.toNat_lt
    rw [hsecond, secondsAfter_two]
    simp only [StaticPlan.secondsAdded, StaticPlan.stepArr]
    change _ ↔ (2 = 2 → _)
    omega
  · rw [secondsAdded_of_ne (by omega) (by omega) (by omega), secondsAfter_succ _ hlast]
    refine iff_of_true ?_ fun h => absurd h hsecond
    exact (Nat.mod_le _ _).trans (Nat.le_add_left _ _)

end RemainingTime

/-- There is one remaining time exactly if 16 bits hold it, the third step has as much
yellow as pedestrian red, and in the second step the pedestrian red is not longer than
what is left of the step and the yellow. -/
theorem oneRemainingTime_iff (status : TrafficSignalStatus) {phase step : UInt8}
    (second : UInt16) (hphase : 1 ≤ phase.toNat) (hfirst : 1 ≤ step.toNat)
    (hlast : step.toNat ≤ 5) :
    status.OneRemainingTime phase step second ↔
      second.toNat + (status.plan phase).secondsAfter step.toNat < 65536 ∧
        (step = 3 → (status.plan phase).yellow = (status.plan phase).pedRed) ∧
        (step = 2 → (status.plan phase).pedRed.toNat ≤
          second.toNat + (status.plan phase).yellow.toNat) := by
  constructor
  · intro h
    obtain ⟨hword, hthird⟩ := (getRemainingTime_eq_iff hfirst hlast).mp h.steps
    refine ⟨hword, hthird, fun hsecond => ?_⟩
    subst hsecond
    exact (nextStep_le_iff hfirst (by decide) h.steps).mp (h.nextStep (by decide)) rfl
  · rintro ⟨hword, hthird, hsecond⟩
    have hvalue := (getRemainingTime_eq_iff hfirst hlast).mpr ⟨hword, hthird⟩
    refine ⟨hvalue, fun hpositive => ?_, fun hstep => ?_, fun clock alignHour alignMin => ?_,
      fun hone => ?_⟩
    · have hearlier : (second - 1).toNat = second.toNat - 1 :=
        UInt16.toNat_sub_of_le _ _ hpositive
      have hearlierValue : (status.getRemainingTime phase step (second - 1)).toNat =
          (second - 1).toNat + (status.plan phase).secondsAfter step.toNat :=
        (getRemainingTime_eq_iff hfirst hlast).mpr ⟨by omega, hthird⟩
      rw [UInt16.le_iff_toNat_le, hvalue, hearlierValue]
      omega
    · exact (nextStep_le_iff hfirst (UInt8.lt_iff_toNat_lt.mp hstep) hvalue).mpr hsecond
    · rw [secInDay_sub hphase hfirst, hvalue]
      rfl
    · subst hone
      rw [hvalue]
      change (second.toNat : Int) + _ + _ + _ + _ = (second.toNat +
        (status.plan phase).secondsAfter 1 : ℕ)
      rw [secondsAfter_one]
      push_cast
      rw [← add_assoc, ← add_assoc, ← add_assoc]
      rfl

/-- Three seconds of yellow and two of all red after no pedestrian red. -/
def TrafficSignalStatus.yellowOnly : TrafficSignalStatus :=
  TrafficSignalStatus.initial fun _ => { StaticPlan.unset with yellow := 3, allRed := 2 }

theorem oneRemainingTime_iff_yellow :
    TrafficSignalStatus.yellowOnly.OneRemainingTime 1 4 3 ↔
      (3 : UInt16).toNat + (TrafficSignalStatus.yellowOnly.plan 1).secondsAfter
          (4 : UInt8).toNat < 65536 ∧
        ((4 : UInt8) = 3 → (TrafficSignalStatus.yellowOnly.plan 1).yellow =
          (TrafficSignalStatus.yellowOnly.plan 1).pedRed) ∧
        ((4 : UInt8) = 2 → (TrafficSignalStatus.yellowOnly.plan 1).pedRed.toNat ≤
          (3 : UInt16).toNat + (TrafficSignalStatus.yellowOnly.plan 1).yellow.toNat) :=
  oneRemainingTime_iff TrafficSignalStatus.yellowOnly 3 (by decide) (by decide) (by decide)

/-- At the end of its third step five seconds remain, of which two are told. -/
theorem yellow_forgotten :
    TrafficSignalStatus.yellowOnly.getRemainingTime 1 3 0 = 2 ∧
      (TrafficSignalStatus.yellowOnly.plan 1).secondsAfter 3 = 5 ∧
      ¬ TrafficSignalStatus.yellowOnly.OneRemainingTime 1 3 0 := by
  have hafter : (TrafficSignalStatus.yellowOnly.plan 1).secondsAfter 3 = 5 := by
    rw [secondsAfter_three]
    rfl
  refine ⟨by decide, hafter, fun h => ?_⟩
  have hsteps := h.steps
  change _ = _ + (TrafficSignalStatus.yellowOnly.plan 1).secondsAfter 3 at hsteps
  rw [hafter] at hsteps
  exact absurd hsteps (by decide)

end AdaptiveSignal.Signal
