import AdaptiveSignal.Foundation.Periods
import AdaptiveSignal.Spat.MovementEvents

/-! # The lights of a group under the plan

The phases follow each other in the order of the plan, as periods around the running
one, which is period zero. The running phase goes by the lengths of its steps and by the
seconds its step has left, any other phase by its green, yellow and all-red time.
-/

namespace AdaptiveSignal.Signal

open Foundation

namespace TrafficSignalStatus

variable (status : TrafficSignalStatus) (shown : ℕ → Bool)

def runningPhase : ℕ := status.subPhaseId.toNat - 1

/-- The phase of a period, where the running phase is period zero. -/
def phaseAt (m : ℤ) : ℕ :=
  ((status.runningPhase + m) % status.subPhaseCount.toNat).toNat

def stepLength (k : ℕ) : ℕ → ℤ
  | 1 => status.preGreenOf k
  | 2 => status.pedGreenFlashOf k
  | 3 => status.pedRedOf k
  | 4 => status.yellowOf k
  | 5 => status.allRedOf k
  | _ => 0

/-- From the start of a phase to the end of a step. -/
def secondsThrough (k : ℕ) : ℕ → ℤ
  | 0 => 0
  | step + 1 => secondsThrough k step + status.stepLength k (step + 1)

/-- The running phase is one of the plan, the running step one of the five, and no more
seconds of it are left than it has. -/
structure InPlan : Prop where
  phase_pos : 0 < status.subPhaseId.toNat
  phase_le : status.subPhaseId.toNat ≤ status.subPhaseCount.toNat
  step_pos : 1 ≤ status.stepId.toNat
  step_le : status.stepId.toNat ≤ 5
  seconds_le : status.stepSeconds ≤ status.stepLength status.runningPhase status.stepId.toNat

/-- From the start of the running phase to now. -/
def elapsed : ℤ :=
  status.secondsThrough status.runningPhase status.stepId.toNat - status.stepSeconds

/-- From the start of a period to its yellow. -/
def greenSeconds (m : ℤ) : ℤ :=
  if m = 0 then status.secondsThrough status.runningPhase 3 else status.greenOf (status.phaseAt m)

def phaseSeconds (m : ℤ) : ℤ :=
  status.greenSeconds m + status.yellowOf (status.phaseAt m) + status.allRedOf (status.phaseAt m)

/-! ## Lights -/

/-- Late closing: a yellow without all-red is skipped by a green the next phase shows too. -/
def keepsGreen (k : ℕ) : Bool :=
  status.allRedOf k = 0 ∧ status.yellowOf k ≠ 0 ∧ shown (status.nextSubphase k)

/-- The light of a vehicle signal, by period and by the seconds since its start. -/
def vehicleLight (greenType : MovementPhaseState) (m seconds : ℤ) : MovementPhaseState :=
  let k := status.phaseAt m
  if !shown k then .stopAndRemain
  else if seconds < status.greenSeconds m then greenType
  else if seconds < status.greenSeconds m + status.yellowOf k then
    if status.keepsGreen shown k then greenType else .protectedClearance
  else .stopAndRemain

/-- The light of a pedestrian signal. -/
def pedestrianLight (m seconds : ℤ) : MovementPhaseState :=
  let k := status.phaseAt m
  if !shown k then .stopAndRemain
  else if seconds < status.preGreenOf k then .permissiveMovementAllowed
  else if seconds < status.preGreenOf k + status.pedGreenFlashOf k then .protectedClearance
  else .stopAndRemain

/-- The light of the running step. -/
def runningLight (signalGreenType : UInt8) : MovementPhaseState :=
  let cur := status.runningPhase
  let step := status.stepId.toNat
  if !shown cur then .stopAndRemain
  else if signalGreenType ≠ pedestrianGreenIndex then
    if step ≤ 3 ∨ (step = 4 ∧ status.keepsGreen shown cur) then vehicleGreenType signalGreenType
    else if step = 4 then .protectedClearance
    else .stopAndRemain
  else if step = 1 then .permissiveMovementAllowed
  else if step = 2 then .protectedClearance
  else .stopAndRemain

section Lengths

variable (k : ℕ)

theorem preGreenOf_nonneg : 0 ≤ status.preGreenOf k := Int.natCast_nonneg _

theorem pedGreenFlashOf_nonneg : 0 ≤ status.pedGreenFlashOf k := Int.natCast_nonneg _

theorem pedRedOf_nonneg : 0 ≤ status.pedRedOf k := Int.natCast_nonneg _

theorem yellowOf_nonneg : 0 ≤ status.yellowOf k := Int.natCast_nonneg _

theorem allRedOf_nonneg : 0 ≤ status.allRedOf k := Int.natCast_nonneg _

theorem greenOf_nonneg : 0 ≤ status.greenOf k := Int.natCast_nonneg _

theorem secondsThrough_three : status.secondsThrough k 3 =
    status.preGreenOf k + status.pedGreenFlashOf k + status.pedRedOf k := by
  simp [secondsThrough, stepLength]

end Lengths

theorem greenSeconds_nonneg (m : ℤ) : 0 ≤ status.greenSeconds m := by
  unfold greenSeconds
  split
  · have hpre := status.preGreenOf_nonneg status.runningPhase
    have hflash := status.pedGreenFlashOf_nonneg status.runningPhase
    have hred := status.pedRedOf_nonneg status.runningPhase
    rw [secondsThrough_three]
    omega
  · exact status.greenOf_nonneg _

theorem phaseSeconds_nonneg (m : ℤ) : 0 ≤ status.phaseSeconds m := by
  have hgreen := status.greenSeconds_nonneg m
  have hyellow := status.yellowOf_nonneg (status.phaseAt m)
  have hred := status.allRedOf_nonneg (status.phaseAt m)
  unfold phaseSeconds
  omega

/-- The lights of a group over time; now is zero. -/
def lights (light : ℤ → ℤ → MovementPhaseState) : Periods MovementPhaseState :=
  .ofLengths (-status.elapsed) status.phaseSeconds status.phaseSeconds_nonneg light

/-- The lights of a group, by its kind. -/
def groupLights (signalGreenType : UInt8) : Periods MovementPhaseState :=
  status.lights (if signalGreenType ≠ pedestrianGreenIndex then
    status.vehicleLight shown (vehicleGreenType signalGreenType) else status.pedestrianLight shown)

/-! ## Timelines -/

/-- An event does not end before it starts, and its light is on all the time. -/
def EventHolds (lights : Periods MovementPhaseState) (event : MovementEvent) : Prop :=
  event.startTime ≤ event.minEndTime ∧
    lights.Steady event.startTime event.minEndTime event.eventState

/-- The first event is the light of the running step, from now or before to when it ends,
and every event holds and starts where the one before ended. -/
def IsTimeline (lights : Periods MovementPhaseState) (running : MovementPhaseState)
    (events : List MovementEvent) : Prop :=
  (∃ first ∈ events.head?, first.eventState = running ∧ first.startTime ≤ 0 ∧
    status.stepSeconds ≤ first.minEndTime ∧ ¬lights.At first.minEndTime running) ∧
  events.IsChain (fun event next => next.startTime = event.minEndTime) ∧
  ∀ event ∈ events, EventHolds lights event

/-- The message has the state of a group, whose events are a timeline of its lights. -/
def GroupTimeline (signalIdTable : ℕ → ℕ → List SignalIdObj) (i : ℕ) (mask : UInt8)
    (group : SignalIdObj) : Prop :=
  ∃ states, status.spatMsgUpdate (status.subPhaseCount.toNat + 1) signalIdTable = some states ∧
    ∃ state ∈ states,
      status.movementState (status.subPhaseCount.toNat + 1) i mask group = some state ∧
      status.IsTimeline (status.groupLights (status.shows i mask) group.signalGreenType)
        (status.runningLight (status.shows i mask) group.signalGreenType) state.events

end TrafficSignalStatus

end AdaptiveSignal.Signal
