import Mathlib.Algebra.Ring.Nat
import Mathlib.Logic.Function.Basic

/-! # The state of the traffic signal middleware

The last reported status of the signal controller, the command buffer with the
variables of its polling timer, and the settings both depend on. Bytes and
words keep the widths of the source. Static plans and buffer slots are indexed
by the subphase number, one above the array index of the source.
-/

namespace AdaptiveSignal.Signal

abbrev cycleNum : ℕ := 3
abbrev subPhaseIdNum : ℕ := 8
abbrev idMaxLen : ℕ := 15
abbrev obuNameMaxLen : ℕ := 10

instance cycleNum_neZero : NeZero cycleNum := ⟨by decide⟩

abbrev CycleIndex := Fin cycleNum

def evspId : UInt8 := 1
def tspId : UInt8 := 2
def compensationId : UInt8 := 99
def compensationPriority : UInt8 := 99

/-! ## Host names -/

/-- A string of at most `ID_MAX_LEN` characters, without the terminating zero. -/
structure HostName where
  chars : List Char
  fits : chars.length ≤ idMaxLen
  deriving DecidableEq

/-- `strncmp(a, b, n) == 0`. -/
def strncmpEq (n : ℕ) (a b : HostName) : Bool :=
  a.chars.take n = b.chars.take n

def HostName.empty : HostName := ⟨[], by decide⟩

/-- `RESUME_ID`: the command that gives a phase back its planned green. -/
def HostName.resume : HostName := ⟨['R', 'E', 'S', 'U', 'M', 'E'], by decide⟩

/-- `COMPENSATION_NAME`. -/
def HostName.compensation : HostName :=
  ⟨['C', 'O', 'M', 'P', 'E', 'N', 'S', 'A', 'T', 'I', 'O', 'N'], by decide⟩

/-- A comparison that includes the terminating zero decides equality. -/
theorem strncmpEq_whole {n : ℕ} {a b : HostName} (ha : a.chars.length < n) :
    strncmpEq n a b = true ↔ a = b := by
  obtain ⟨a, hfitsA⟩ := a
  obtain ⟨b, hfitsB⟩ := b
  change a.length < n at ha
  simp only [strncmpEq, decide_eq_true_eq, HostName.mk.injEq]
  rw [List.take_of_length_le (Nat.le_of_lt ha)]
  constructor
  · intro heq
    have hlen := congrArg List.length heq
    rw [List.length_take] at hlen
    have hshort : b.length ≤ n := by omega
    rw [heq, List.take_of_length_le hshort]
  · rintro rfl
    exact (List.take_of_length_le (Nat.le_of_lt ha)).symm

/-! ## Signal status -/

/-- The static plan of one phase. -/
structure StaticPlan where
  pedGreenFlash : UInt8
  pedRed : UInt8
  yellow : UInt8
  allRed : UInt8
  preGreen : UInt16
  preTimeCompensated : UInt16
  green : UInt16
  maxGreen : UInt16
  minGreen : UInt8
  deriving DecidableEq

/-- The plan before the controller has reported any. -/
def StaticPlan.unset : StaticPlan where
  pedGreenFlash := 0
  pedRed := 0
  yellow := 0
  allRed := 0
  preGreen := 0
  preTimeCompensated := 0
  green := 0
  maxGreen := 0
  minGreen := 0

/-- A segment of the day, and the plan that runs in it. -/
structure AllDayPlan where
  hour : UInt8
  min : UInt8
  planId : UInt8
  deriving DecidableEq

structure TrafficSignalStatus where
  controlStrategy : UInt8
  subPhaseId : UInt8
  stepId : UInt8
  stepSec : UInt16
  planId : UInt8
  phaseOrder : UInt8
  subPhaseCount : UInt8
  cycleTime : UInt16
  offset : UInt16
  plan : UInt8 → StaticPlan
  signalMap : UInt8
  signalCount : UInt8
  phaseorderPlan : ℕ → ℕ → UInt8
  controlStatus : UInt8
  segmentType : UInt8
  segmentCount : UInt8
  alldayPlan : ℕ → AllDayPlan

/-- The status before the first packet, with the plans `plan`. -/
def TrafficSignalStatus.initial (plan : UInt8 → StaticPlan) : TrafficSignalStatus where
  controlStrategy := 0
  subPhaseId := 0
  stepId := 0
  stepSec := 0
  planId := 0
  phaseOrder := 0
  subPhaseCount := 0
  cycleTime := 0
  offset := 0
  plan := plan
  signalMap := 0
  signalCount := 0
  phaseorderPlan := fun _ _ => 0
  controlStatus := 0
  segmentType := 0
  segmentCount := 0
  alldayPlan := fun _ => ⟨0, 0, 0⟩

/-! ## Commands -/

/-- A command as an application hands it over. -/
structure TscCommand where
  appId : UInt8
  appPriority : UInt8
  targetPhase : UInt8
  cycle : UInt8
  phase : UInt8
  effectTime : Int16
  hostObuName : HostName
  deriving DecidableEq

/-- A command buffer object. -/
structure TscCommandObject where
  appId : UInt8
  appPriority : UInt8
  targetPhase : UInt8
  effectTime : UInt8
  adjustedTime : UInt8
  hostObuName : HostName
  sendFlag : Bool
  deriving DecidableEq

/-- The object that `clear_index_command_buf` leaves. -/
def TscCommandObject.cleared : TscCommandObject where
  appId := 0
  appPriority := 0
  targetPhase := 0
  effectTime := 0
  adjustedTime := 0
  hostObuName := HostName.empty
  sendFlag := false

inductive CommandBufErr
  | insertAccept
  | invalidAppId
  | invalidAppPriority
  | invalidTargetPhase
  | invalidCycle
  | invalidPhase
  | invalidEffectTime
  | invalidAdjustment
  | invalidHostObuName
  | improperPriority
  | incompTspDoNothing
  deriving DecidableEq, Repr

/-! ## The middleware -/

inductive Manufacturer
  | chengLong
  | shanZhu
  | shanZhuM
  | other
  deriving DecidableEq, Repr

structure Config where
  signalControllerManufacturer : Manufacturer
  trafficCompensationMethod : UInt8
  logCommandBuffer : Bool
  pedCountdownSend : Bool
  deriving DecidableEq

/-- The settings the program starts with. -/
def Config.initial : Config where
  signalControllerManufacturer := .shanZhu
  trafficCompensationMethod := 0
  logCommandBuffer := true
  pedCountdownSend := true

structure Middleware where
  config : Config
  tspDontSend2TC : Bool
  evspDontSend2TC : Bool
  status : TrafficSignalStatus
  flagSwitch2nextStep : Bool
  error655xx : Bool
  count5F43 : ℕ
  count5F46 : ℕ
  commandBuf : CycleIndex → UInt8 → TscCommandObject
  cycleIndex : CycleIndex
  priorCycleIndex : CycleIndex
  priorSubPhaseId : UInt8
  priorStepId : UInt8
  priorStepSec : UInt16
  pretimeFlag : Bool
  pedCountdown : Bool
  activateAmount : UInt32
  compensationBuffer : UInt8 → Bool

namespace Middleware

/-- The middleware as the program loads, under a given configuration and with
whatever plans the controller has reported. -/
def boot (config : Config) (status : TrafficSignalStatus) : Middleware where
  config := config
  tspDontSend2TC := true
  evspDontSend2TC := false
  status := status
  flagSwitch2nextStep := false
  error655xx := false
  count5F43 := 0
  count5F46 := 0
  commandBuf := fun _ _ => TscCommandObject.cleared
  cycleIndex := 0
  priorCycleIndex := 0
  priorSubPhaseId := 0
  priorStepId := 0
  priorStepSec := 0
  pretimeFlag := true
  pedCountdown := true
  activateAmount := 0
  compensationBuffer := fun _ => false

/-- Write one command buffer object. -/
def setSlot (s : Middleware) (cycle : CycleIndex) (phase : UInt8) (obj : TscCommandObject) :
    Middleware :=
  { s with commandBuf :=
      Function.update s.commandBuf cycle (Function.update (s.commandBuf cycle) phase obj) }

section SetSlot

variable (s : Middleware) (cycle : CycleIndex) (phase : UInt8) (obj : TscCommandObject)

@[simp] theorem setSlot_self : (s.setSlot cycle phase obj).commandBuf cycle phase = obj := by
  simp [setSlot]

theorem setSlot_of_ne {cycle' : CycleIndex} {phase' : UInt8}
    (hne : ¬ (cycle' = cycle ∧ phase' = phase)) :
    (s.setSlot cycle phase obj).commandBuf cycle' phase' = s.commandBuf cycle' phase' := by
  rcases eq_or_ne cycle' cycle with rfl | hcycle
  · have hphase : phase' ≠ phase := fun heq => hne ⟨rfl, heq⟩
    simp [setSlot, hphase]
  · simp [setSlot, hcycle]

end SetSlot

/-- `set_control_status`. -/
def setControlStatus (s : Middleware) (controlStatus : UInt8) : Middleware :=
  { s with status := { s.status with controlStatus := controlStatus } }

/-- `update_cycle_index`. -/
def updateCycleIndex (s : Middleware) : Middleware :=
  { s with cycleIndex := s.cycleIndex + 1 }

/-- `command_buf_clear`. -/
def commandBufClear (s : Middleware) : Middleware :=
  { s with commandBuf := fun _ _ => TscCommandObject.cleared }

end Middleware

end AdaptiveSignal.Signal
