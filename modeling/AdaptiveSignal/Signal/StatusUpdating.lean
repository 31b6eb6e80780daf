import AdaptiveSignal.Foundation.Mutex
import AdaptiveSignal.Signal.Middleware
import Mathlib.Tactic.SplitIfs

/-! # Status packets of the signal controller

The handlers that carry the controller's phase and step (5FCC) and its plans
(5FC8, 5FC5) into the signal status. A handler runs under the status mutex; a
plan with another phase order also empties the command buffer.
-/

namespace AdaptiveSignal.Signal

open Foundation

inductive SignalMutex
  | commandBuf
  | signalStatus
  deriving DecidableEq, Repr

/-- The INFO bytes of a packet. -/
structure TrafficSignalPacket where
  info : ℕ → UInt8

def TrafficSignalPacket.word (packet : TrafficSignalPacket) (i : ℕ) : UInt16 :=
  (packet.info i).toUInt16 <<< 8 ||| (packet.info (i + 1)).toUInt16

/-- A 5FCC report of phase, step and at most 255 seconds. -/
def TrafficSignalPacket.phaseReport (subPhaseId stepId stepSec : UInt8) :
    TrafficSignalPacket where
  info
    | 3 => subPhaseId
    | 4 => stepId
    | 6 => stepSec
    | _ => 0

namespace Middleware

/-- The dynamic and pretime strategies of one manufacturer carry other numbers. -/
def mapControlStrategy (manufacturer : Manufacturer) (controlStrategy : UInt8) : UInt8 :=
  if manufacturer = .chengLong ∧ controlStrategy = 21 then 16
  else if manufacturer = .chengLong ∧ controlStrategy = 5 then 1
  else controlStrategy

/-- A report of phase 0, or of step 5, leaves the subphase as it is. -/
def updateSubPhase (s : Middleware) (subPhaseId stepId : UInt8) : Middleware :=
  if subPhaseId ≠ 0 ∧ stepId ≠ 5 then
    -- a lower phase than the last one begins a new cycle
    let s := if subPhaseId < s.status.subPhaseId then s.updateCycleIndex else s
    { s with status := { s.status with subPhaseId := subPhaseId } }
  else s

/-- Report of the current phase and step. -/
def packet5FCC (s : Middleware) (packet : TrafficSignalPacket) : Middleware :=
  let s := s.updateSubPhase (packet.info 3) (packet.info 4)
  let stepId := packet.info 4
  let stepSec := packet.word 5
  { s with
    status := { s.status with
      controlStrategy :=
        mapControlStrategy s.config.signalControllerManufacturer (packet.info 2)
      stepId := stepId
      stepSec := stepSec }
    flagSwitch2nextStep := if 255 < stepSec ∧ stepId = 1 then true else s.flagSwitch2nextStep
    error655xx :=
      if 255 < stepSec ∧ stepId = 1 then true
      else if stepSec ≤ 255 ∧ stepId = 1 then false
      else s.error655xx }

/-- A new phase order makes the buffered commands meaningless. -/
def updatePhaseOrder (s : Middleware) (phaseOrder : UInt8) : Middleware :=
  let s := if s.status.phaseOrder ≠ phaseOrder then { s.commandBufClear with count5F43 := 0 } else s
  { s with status := { s.status with phaseOrder := phaseOrder } }

/-- The greens of the phases up to `SubPhaseCount`, and cycle time and offset
behind them. -/
def updateGreens (status : TrafficSignalStatus) (packet : TrafficSignalPacket) :
    TrafficSignalStatus :=
  let count := packet.info 5
  { status with
    subPhaseCount := count
    plan := fun p =>
      if 1 ≤ p ∧ p ≤ count then
        { status.plan p with green := packet.word (6 + (p.toNat - 1) * 2) }
      else status.plan p
    cycleTime := packet.word (6 + count.toNat * 2)
    offset := packet.word (8 + count.toNat * 2) }

/-- The step 1 seconds of the running plan. -/
def updatePreTimeCompensated (status : TrafficSignalStatus) : TrafficSignalStatus :=
  { status with
    plan := fun p =>
      let plan := status.plan p
      if 1 ≤ p ∧ p ≤ status.subPhaseCount then
        { plan with preTimeCompensated :=
            plan.green - plan.pedGreenFlash.toUInt16 - plan.pedRed.toUInt16 }
      else plan }

/-- Report of the running plan. -/
def packet5FC8 (s : Middleware) (packet : TrafficSignalPacket) : Middleware :=
  let s := { s with status := { s.status with planId := packet.info 2 } }
  let s := s.updatePhaseOrder (packet.info 4)
  { s with status := updatePreTimeCompensated (updateGreens s.status packet) }

/-- Report of a stored plan. -/
def packet5FC5 (s : Middleware) (packet : TrafficSignalPacket) : Middleware :=
  let s := s.updatePhaseOrder (packet.info 4)
  { s with status := updateGreens s.status packet }

/-! ## What a phase report changes -/

section Packet5FCC

variable (s : Middleware) (packet : TrafficSignalPacket)

@[simp] theorem packet5FCC_commandBuf : (s.packet5FCC packet).commandBuf = s.commandBuf := by
  simp only [packet5FCC, updateSubPhase, updateCycleIndex]
  split_ifs <;> rfl

@[simp] theorem packet5FCC_priorSubPhaseId :
    (s.packet5FCC packet).priorSubPhaseId = s.priorSubPhaseId := by
  simp only [packet5FCC, updateSubPhase, updateCycleIndex]
  split_ifs <;> rfl

@[simp] theorem packet5FCC_priorCycleIndex :
    (s.packet5FCC packet).priorCycleIndex = s.priorCycleIndex := by
  simp only [packet5FCC, updateSubPhase, updateCycleIndex]
  split_ifs <;> rfl

/-- The packet reports a subphase the status takes over. -/
def reportsPhase (packet : TrafficSignalPacket) : Bool :=
  packet.info 3 ≠ 0 && packet.info 4 ≠ 5

/-- The packet starts a new cycle. -/
def wraps (s : Middleware) (packet : TrafficSignalPacket) : Bool :=
  reportsPhase packet && packet.info 3 < s.status.subPhaseId

theorem packet5FCC_subPhaseId :
    (s.packet5FCC packet).status.subPhaseId =
      if reportsPhase packet then packet.info 3 else s.status.subPhaseId := by
  simp only [packet5FCC, updateSubPhase, reportsPhase, updateCycleIndex]
  split_ifs <;> simp_all

theorem packet5FCC_cycleIndex :
    (s.packet5FCC packet).cycleIndex =
      if s.wraps packet then s.cycleIndex + 1 else s.cycleIndex := by
  by_cases hphase : packet.info 3 ≠ 0 ∧ packet.info 4 ≠ 5
  · by_cases hless : packet.info 3 < s.status.subPhaseId <;>
      simp [packet5FCC, updateSubPhase, reportsPhase, wraps, updateCycleIndex, hphase, hless]
  · have hnot : reportsPhase packet = false := by simpa [reportsPhase] using hphase
    simp only [packet5FCC, updateSubPhase, wraps, hphase, hnot, if_false, Bool.false_and,
      Bool.false_eq_true]

end Packet5FCC

end Middleware

/-! ## Lock traces -/

/-- `get_traffic_signal_status`, and every other getter of the status. -/
def getStatusTrace : LockTrace SignalMutex :=
  [.lock .signalStatus, .unlock .signalStatus]

def setControlStatusTrace : LockTrace SignalMutex :=
  [.lock .signalStatus, .unlock .signalStatus]

def commandBufClearTrace : LockTrace SignalMutex :=
  [.lock .commandBuf, .access .commandBuf, .unlock .commandBuf]

/-- The locks of `packet_5FC8` and `packet_5FC5` alike. -/
def planPacketTrace (s : Middleware) (packet : TrafficSignalPacket) : LockTrace SignalMutex :=
  .lock .signalStatus ::
    (if s.status.phaseOrder ≠ packet.info 4 then commandBufClearTrace else []) ++
    [.unlock .signalStatus]

end AdaptiveSignal.Signal
