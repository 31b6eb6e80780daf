import AdaptiveSignal.CommandBuffer.Insert
import AdaptiveSignal.Foundation.Run

/-! # The polling timer of the command buffer

Once a second the polling timer compares the phase of the controller with the
phase it saw before, clears the slot of a phase that was left, returns the
controller to its plan when nothing is buffered, and sends the command of the
running phase. The phase is taken from a snapshot of the status; the body that
follows runs under the command buffer mutex.
-/

namespace AdaptiveSignal.Signal

open Foundation

/-- A command the compensation algorithm works out: slot and seconds. -/
structure CompensationRequest where
  cycle : UInt8
  phase : UInt8
  effectTime : Int16
  deriving DecidableEq

def CompensationRequest.command (request : CompensationRequest) : TscCommand where
  appId := compensationId
  appPriority := compensationPriority
  targetPhase := request.phase
  cycle := request.cycle
  phase := request.phase
  effectTime := request.effectTime
  hostObuName := .compensation

namespace Middleware

def phases : List UInt8 := [1, 2, 3, 4, 5, 6, 7, 8]

/-- The loop shared by `check_command_buf_empty` and `is_in_compensation`. -/
def anySlot (s : Middleware) (found : TscCommandObject → Bool) : Bool :=
  (List.finRange cycleNum).any fun cycle => phases.any fun phase => found (s.commandBuf cycle phase)

def commandBufEmpty (s : Middleware) : Bool :=
  !s.anySlot fun obj => obj.appId ≠ 0

/-- Under pretime control the running green differs from the plan; otherwise
some slot holds a command of the compensation. -/
def isInCompensation (s : Middleware) : Bool :=
  if s.status.controlStrategy = 1 then
    let plan := s.status.plan s.status.subPhaseId
    0 < plan.preTimeCompensated && plan.preGreen ≠ plan.preTimeCompensated
  else s.anySlot fun obj => obj.appId = compensationId

/-! ## Sending -/

/-- The early returns of `command_buf_send`. -/
def sendRefused (s : Middleware) (obj : TscCommandObject) : Bool :=
  (obj.appId = tspId && (s.tspDontSend2TC || s.isInCompensation)) ||
    (obj.appId = evspId && s.evspDontSend2TC) ||
    s.config.signalControllerManufacturer = .other

/-- The countdown is switched off for the first active vehicle. A CHENG_LONG
controller stays on when the packet is not to be sent. -/
def countdownOff (s : Middleware) : Middleware :=
  if s.pedCountdown && 0 < s.activateAmount &&
      (s.config.pedCountdownSend || s.config.signalControllerManufacturer ≠ .chengLong) then
    { s with pedCountdown := false }
  else s

/-- The countdown is switched on again when no vehicle is active. -/
def countdownOn (s : Middleware) : Middleware :=
  if !s.pedCountdown && s.activateAmount = 0 then { s with pedCountdown := true } else s

/-- A phase adjusted by anything but a compensation will have to be compensated. -/
def setCompensationBuffer (s : Middleware) (obj : TscCommandObject) (phase : UInt8) : Middleware :=
  if strncmpEq 13 obj.hostObuName .compensation then s
  else { s with compensationBuffer := Function.update s.compensationBuffer phase true }

def commandBufSend (s : Middleware) (obj : TscCommandObject) (phase : UInt8) : Middleware :=
  if s.sendRefused obj then s
  else (s.countdownOff.setCompensationBuffer obj phase).countdownOn

/-! ## The sections of the locked body -/

/-- `start_compensation`: nothing is inserted when the controller compensates by
itself or the method is unknown. -/
def startCompensation (s : Middleware) (requests : List CompensationRequest) : Middleware :=
  let s :=
    if 1 ≤ s.config.trafficCompensationMethod ∧ s.config.trafficCompensationMethod ≤ 3 then
      requests.foldl (fun s request => (s.commandBufInsertEffectTime request.command).2) s
    else s
  { s with compensationBuffer := fun _ => false }

/-- The phase that was left was resumed; `RESUME_DONE` counts as well. -/
def leftResumed (s : Middleware) : Bool :=
  strncmpEq 6 (s.commandBuf s.priorCycleIndex s.priorSubPhaseId).hostObuName .resume

/-- The compensation of a phase that was resumed, started at its end. -/
def compensated (s : Middleware) (requests : List CompensationRequest) : Middleware :=
  if s.leftResumed then s.startCompensation requests else s

/-- The slot of the phase that was left is cleared, and no application controls. -/
def leavePhase (s : Middleware) : Middleware :=
  (s.setSlot s.priorCycleIndex s.priorSubPhaseId .cleared).setControlStatus 0

/-- The adjusted time of the new phase starts as the seconds it counts down. -/
def enterPhase (s : Middleware) (snapshot : TrafficSignalStatus) : Middleware :=
  s.setSlot s.cycleIndex snapshot.subPhaseId
    { s.commandBuf s.cycleIndex snapshot.subPhaseId with adjustedTime := snapshot.stepSec.toUInt8 }

/-- The controller has crossed to another phase. -/
def crossPhase (s : Middleware) (snapshot : TrafficSignalStatus)
    (requests : List CompensationRequest) : Middleware :=
  if s.priorSubPhaseId ≠ snapshot.subPhaseId then
    (s.compensated requests).leavePhase.enterPhase snapshot
  else s

/-- In step 4 an empty buffer returns the controller to its plan, once. -/
def pretimeStep (s : Middleware) (snapshot : TrafficSignalStatus) : Middleware :=
  if snapshot.stepId = 4 then
    if s.commandBufEmpty && s.pretimeFlag then { s with pretimeFlag := false } else s
  else { s with pretimeFlag := true }

/-- The object in the slot of the running phase. -/
def currentSlot (s : Middleware) (snapshot : TrafficSignalStatus) : TscCommandObject :=
  s.commandBuf s.cycleIndex snapshot.subPhaseId

def readyToSend (s : Middleware) (snapshot : TrafficSignalStatus) : Bool :=
  (s.currentSlot snapshot).appId ≠ 0 && !(s.currentSlot snapshot).sendFlag &&
    snapshot.stepId = 1 && 1 < snapshot.stepSec && s.priorSubPhaseId = snapshot.subPhaseId

def sendReady (s : Middleware) (snapshot : TrafficSignalStatus) : Middleware :=
  if s.readyToSend snapshot then
    let obj := s.currentSlot snapshot
    let s := s.commandBufSend obj snapshot.subPhaseId
    let s := s.setControlStatus obj.appId
    s.setSlot s.cycleIndex snapshot.subPhaseId
      { obj with sendFlag := true, adjustedTime := obj.effectTime }
  else s

def recordPrior (s : Middleware) (snapshot : TrafficSignalStatus) : Middleware :=
  { s with
    priorCycleIndex := s.cycleIndex
    priorSubPhaseId := snapshot.subPhaseId
    priorStepId := snapshot.stepId
    priorStepSec := snapshot.stepSec }

/-! ## The call -/

/-- What the body works with when it reaches the command of the running phase. -/
def beforeSend (s : Middleware) (snapshot : TrafficSignalStatus)
    (requests : List CompensationRequest) : Middleware :=
  (s.crossPhase snapshot requests).pretimeStep snapshot

/-- A report of phase 0, and the first poll, do not enter the locked body. -/
def entersBody (s : Middleware) (snapshot : TrafficSignalStatus) : Bool :=
  snapshot.subPhaseId ≠ 0 && s.priorSubPhaseId ≠ 0

def commandBufPollingFrom (s : Middleware) (snapshot : TrafficSignalStatus)
    (requests : List CompensationRequest) : Middleware :=
  if snapshot.subPhaseId = 0 then s
  else if s.priorSubPhaseId = 0 then
    { s with
      priorSubPhaseId := snapshot.subPhaseId
      priorStepId := snapshot.stepId
      priorStepSec := snapshot.stepSec }
  else ((s.beforeSend snapshot requests).sendReady snapshot).recordPrior snapshot

/-- One call, with no packet between snapshot and body. -/
def commandBufPolling (s : Middleware) (requests : List CompensationRequest) : Middleware :=
  s.commandBufPollingFrom s.status requests

/-- The object a call passes to `command_buf_send`, if any. -/
def passedToSend (s : Middleware) (snapshot : TrafficSignalStatus)
    (requests : List CompensationRequest) : Option TscCommandObject :=
  let before := s.beforeSend snapshot requests
  if s.entersBody snapshot && before.readyToSend snapshot then some (before.currentSlot snapshot)
  else none

/-- The object that leaves for the controller: `command_buf_send` did not return
early. -/
def sentToController (s : Middleware) (snapshot : TrafficSignalStatus)
    (requests : List CompensationRequest) : Option TscCommandObject :=
  (s.passedToSend snapshot requests).filter fun obj =>
    !(s.beforeSend snapshot requests).sendRefused obj

/-! ## What the sections leave alone -/

/-- Neither ring position nor the phases seen change. -/
structure SamePosition (s s' : Middleware) : Prop where
  cycle : s'.cycleIndex = s.cycleIndex
  priorCycle : s'.priorCycleIndex = s.priorCycleIndex
  prior : s'.priorSubPhaseId = s.priorSubPhaseId
  current : s'.status.subPhaseId = s.status.subPhaseId

theorem SamePosition.refl (s : Middleware) : SamePosition s s := ⟨rfl, rfl, rfl, rfl⟩

theorem SamePosition.trans {s s' s'' : Middleware} (h : SamePosition s s')
    (h' : SamePosition s' s'') : SamePosition s s'' :=
  ⟨h'.cycle.trans h.cycle, h'.priorCycle.trans h.priorCycle, h'.prior.trans h.prior,
    h'.current.trans h.current⟩

theorem insert_samePosition (s : Middleware) (command : TscCommand) :
    SamePosition s (s.commandBufInsertEffectTime command).2 := by
  by_cases haccept : (s.commandBufInsertEffectTime command).1 = .insertAccept
  · rw [(insert_accepted haccept).2.2]
    exact ⟨rfl, rfl, rfl, rfl⟩
  · rw [insert_refused haccept]
    exact SamePosition.refl s

theorem commandBufSend_samePosition (s : Middleware) (obj : TscCommandObject) (phase : UInt8) :
    SamePosition s (s.commandBufSend obj phase) := by
  simp only [commandBufSend, countdownOff, setCompensationBuffer, countdownOn]
  split_ifs <;> exact ⟨rfl, rfl, rfl, rfl⟩

@[simp] theorem commandBufSend_commandBuf (s : Middleware) (obj : TscCommandObject)
    (phase : UInt8) : (s.commandBufSend obj phase).commandBuf = s.commandBuf := by
  simp only [commandBufSend, countdownOff, setCompensationBuffer, countdownOn]
  split_ifs <;> rfl

theorem compensationInserts_samePosition (s : Middleware) (requests : List CompensationRequest) :
    SamePosition s
      (requests.foldl (fun s request => (s.commandBufInsertEffectTime request.command).2) s) :=
  run_related
    (fun (s : Middleware) (request : CompensationRequest) =>
      (s.commandBufInsertEffectTime request.command).2)
    SamePosition.refl SamePosition.trans
    (fun s request => insert_samePosition s request.command) s requests

theorem startCompensation_samePosition (s : Middleware) (requests : List CompensationRequest) :
    SamePosition s (s.startCompensation requests) := by
  unfold startCompensation
  split_ifs
  · exact (compensationInserts_samePosition s requests).trans ⟨rfl, rfl, rfl, rfl⟩
  · exact ⟨rfl, rfl, rfl, rfl⟩

section Sections

variable (s : Middleware) (snapshot : TrafficSignalStatus) (requests : List CompensationRequest)

theorem compensated_samePosition : SamePosition s (s.compensated requests) := by
  unfold compensated
  split_ifs
  · exact startCompensation_samePosition s requests
  · exact SamePosition.refl s

theorem crossPhase_samePosition : SamePosition s (s.crossPhase snapshot requests) := by
  unfold crossPhase
  split_ifs
  · exact (compensated_samePosition s requests).trans ⟨rfl, rfl, rfl, rfl⟩
  · exact SamePosition.refl s

theorem pretimeStep_samePosition : SamePosition s (s.pretimeStep snapshot) := by
  unfold pretimeStep
  split_ifs <;> exact ⟨rfl, rfl, rfl, rfl⟩

@[simp] theorem pretimeStep_commandBuf : (s.pretimeStep snapshot).commandBuf = s.commandBuf := by
  unfold pretimeStep
  split_ifs <;> rfl

@[simp] theorem pretimeStep_sendRefused (obj : TscCommandObject) :
    (s.pretimeStep snapshot).sendRefused obj = s.sendRefused obj := by
  unfold pretimeStep
  split_ifs <;> rfl

theorem beforeSend_samePosition : SamePosition s (s.beforeSend snapshot requests) :=
  (crossPhase_samePosition s snapshot requests).trans (pretimeStep_samePosition _ snapshot)

@[simp] theorem beforeSend_commandBuf :
    (s.beforeSend snapshot requests).commandBuf = (s.crossPhase snapshot requests).commandBuf :=
  pretimeStep_commandBuf _ snapshot

theorem sendReady_samePosition : SamePosition s (s.sendReady snapshot) := by
  unfold sendReady
  split_ifs
  · exact (commandBufSend_samePosition s _ _).trans ⟨rfl, rfl, rfl, rfl⟩
  · exact SamePosition.refl s

/-- A send marks the slot of the running phase and leaves every other slot. -/
theorem sendReady_slot (cycle : CycleIndex) (phase : UInt8) :
    (s.sendReady snapshot).commandBuf cycle phase =
      if s.readyToSend snapshot ∧ cycle = s.cycleIndex ∧ phase = snapshot.subPhaseId then
        { s.currentSlot snapshot with
          sendFlag := true, adjustedTime := (s.currentSlot snapshot).effectTime }
      else s.commandBuf cycle phase := by
  have hcycle := (commandBufSend_samePosition s (s.currentSlot snapshot) snapshot.subPhaseId).cycle
  unfold sendReady
  by_cases hready : s.readyToSend snapshot = true
  · rw [if_pos hready]
    simp only [hready, true_and]
    change ((setControlStatus _ _).setSlot (commandBufSend _ _ _).cycleIndex _ _).commandBuf _ _ = _
    rw [hcycle]
    split_ifs with hslot
    · rw [hslot.1, hslot.2, setSlot_self]
    · rw [setSlot_of_ne _ _ _ _ hslot]
      exact congrFun (congrFun (commandBufSend_commandBuf s _ _) cycle) phase
  · rw [if_neg hready, if_neg fun h => hready h.1]

@[simp] theorem sendReady_appId (cycle : CycleIndex) (phase : UInt8) :
    ((s.sendReady snapshot).commandBuf cycle phase).appId =
      (s.commandBuf cycle phase).appId := by
  rw [sendReady_slot]
  split_ifs with hslot
  · rw [hslot.2.1, hslot.2.2]
    rfl
  · rfl

theorem leavePhase_slot (cycle : CycleIndex) (phase : UInt8) :
    s.leavePhase.commandBuf cycle phase =
      if cycle = s.priorCycleIndex ∧ phase = s.priorSubPhaseId then .cleared
      else s.commandBuf cycle phase := by
  change (s.setSlot _ _ _).commandBuf cycle phase = _
  split_ifs with hleft
  · rw [hleft.1, hleft.2, setSlot_self]
  · exact setSlot_of_ne _ _ _ _ hleft

theorem enterPhase_slot (cycle : CycleIndex) (phase : UInt8) :
    (s.enterPhase snapshot).commandBuf cycle phase =
      if cycle = s.cycleIndex ∧ phase = snapshot.subPhaseId then
        { s.commandBuf cycle phase with adjustedTime := snapshot.stepSec.toUInt8 }
      else s.commandBuf cycle phase := by
  unfold enterPhase
  split_ifs with hrun
  · rw [hrun.1, hrun.2, setSlot_self]
  · exact setSlot_of_ne _ _ _ _ hrun

/-- A crossing clears the slot of the phase that was left and restarts the
adjusted time of the phase that runs. -/
theorem crossPhase_slot (hcross : s.priorSubPhaseId ≠ snapshot.subPhaseId) (cycle : CycleIndex)
    (phase : UInt8) :
    (s.crossPhase snapshot requests).commandBuf cycle phase =
      if cycle = s.priorCycleIndex ∧ phase = s.priorSubPhaseId then .cleared
      else if cycle = s.cycleIndex ∧ phase = snapshot.subPhaseId then
        { (s.compensated requests).commandBuf cycle phase with
          adjustedTime := snapshot.stepSec.toUInt8 }
      else (s.compensated requests).commandBuf cycle phase := by
  obtain ⟨hcycle, hpriorCycle, hprior, -⟩ := compensated_samePosition s requests
  have hrun : (s.compensated requests).leavePhase.cycleIndex = s.cycleIndex := hcycle
  rw [crossPhase, if_pos hcross, enterPhase_slot, leavePhase_slot, hrun, hpriorCycle, hprior]
  by_cases hleft : cycle = s.priorCycleIndex ∧ phase = s.priorSubPhaseId
  · have hother : ¬ (cycle = s.cycleIndex ∧ phase = snapshot.subPhaseId) :=
      fun hcurrent => hcross (hleft.2.symm.trans hcurrent.2)
    simp only [if_pos hleft, if_neg hother]
  · simp only [if_neg hleft]

theorem crossPhase_of_same (hsame : s.priorSubPhaseId = snapshot.subPhaseId) :
    s.crossPhase snapshot requests = s := by
  simp only [crossPhase, hsame, ne_eq, not_true_eq_false, if_false]

theorem beforeSend_sendRefused (hsame : s.priorSubPhaseId = snapshot.subPhaseId)
    (obj : TscCommandObject) :
    (s.beforeSend snapshot requests).sendRefused obj = s.sendRefused obj := by
  rw [beforeSend, crossPhase_of_same s snapshot requests hsame, pretimeStep_sendRefused]

/-- A call that enters the body runs its sections. -/
theorem commandBufPollingFrom_of_enters (henters : s.entersBody snapshot = true) :
    s.commandBufPollingFrom snapshot requests =
      ((s.beforeSend snapshot requests).sendReady snapshot).recordPrior snapshot := by
  simp only [entersBody, Bool.and_eq_true, decide_eq_true_eq] at henters
  simp only [commandBufPollingFrom, henters.1, henters.2, if_false]

/-- A call moves neither the ring nor the live phase. -/
theorem commandBufPollingFrom_position :
    (s.commandBufPollingFrom snapshot requests).cycleIndex = s.cycleIndex ∧
      (s.commandBufPollingFrom snapshot requests).status.subPhaseId = s.status.subPhaseId := by
  obtain ⟨hcycle, -, -, hcurrent⟩ := (beforeSend_samePosition s snapshot requests).trans
    (sendReady_samePosition (s.beforeSend snapshot requests) snapshot)
  unfold commandBufPollingFrom
  split_ifs
  · exact ⟨rfl, rfl⟩
  · exact ⟨rfl, rfl⟩
  · exact ⟨hcycle, hcurrent⟩

/-- What a call notes of the phase it saw. The very first one leaves the cycle. -/
theorem commandBufPollingFrom_prior (hphase : snapshot.subPhaseId ≠ 0) :
    (s.commandBufPollingFrom snapshot requests).priorSubPhaseId = snapshot.subPhaseId ∧
      (s.commandBufPollingFrom snapshot requests).priorCycleIndex =
        if s.priorSubPhaseId = 0 then s.priorCycleIndex else s.cycleIndex := by
  obtain ⟨hcycle, -, -, -⟩ := (beforeSend_samePosition s snapshot requests).trans
    (sendReady_samePosition (s.beforeSend snapshot requests) snapshot)
  unfold commandBufPollingFrom
  rw [if_neg hphase]
  split_ifs
  · exact ⟨rfl, rfl⟩
  · exact ⟨rfl, hcycle⟩

/-- What a call that finds a crossing does to the slots: the one of the phase it
saw last is cleared, and all others stay occupied as the compensation left them. -/
theorem commandBufPollingFrom_crossing (henters : s.entersBody snapshot = true)
    (hcross : s.priorSubPhaseId ≠ snapshot.subPhaseId) :
    (s.commandBufPollingFrom snapshot requests).commandBuf s.priorCycleIndex s.priorSubPhaseId =
        .cleared ∧
      ∀ cycle phase, ¬ (cycle = s.priorCycleIndex ∧ phase = s.priorSubPhaseId) →
        ((s.commandBufPollingFrom snapshot requests).commandBuf cycle phase).appId =
          ((s.compensated requests).commandBuf cycle phase).appId := by
  have hidle : (s.beforeSend snapshot requests).readyToSend snapshot = false := by
    rw [readyToSend, (beforeSend_samePosition s snapshot requests).prior]
    simp [hcross]
  have hslot : ∀ cycle phase,
      (s.commandBufPollingFrom snapshot requests).commandBuf cycle phase =
        (s.crossPhase snapshot requests).commandBuf cycle phase := fun cycle phase => by
    rw [commandBufPollingFrom_of_enters s snapshot requests henters]
    change ((s.beforeSend snapshot requests).sendReady snapshot).commandBuf cycle phase = _
    rw [sendReady_slot, if_neg (by simp [hidle]), beforeSend_commandBuf]
  refine ⟨?_, fun cycle phase hother => ?_⟩
  · rw [hslot, crossPhase_slot s snapshot requests hcross, if_pos ⟨rfl, rfl⟩]
  · rw [hslot, crossPhase_slot s snapshot requests hcross, if_neg hother]
    split_ifs <;> rfl

/-- A command is sent only while the phase does not change. -/
theorem passedToSend_cases {obj : TscCommandObject}
    (hpass : s.passedToSend snapshot requests = some obj) :
    s.entersBody snapshot = true ∧ s.priorSubPhaseId = snapshot.subPhaseId ∧
      snapshot.stepId = 1 ∧ 1 < snapshot.stepSec ∧ obj = s.currentSlot snapshot ∧
      obj.appId ≠ 0 ∧ obj.sendFlag = false := by
  unfold passedToSend at hpass
  simp only [Option.ite_none_right_eq_some, Option.some.injEq, Bool.and_eq_true] at hpass
  obtain ⟨⟨henters, hready⟩, hobj⟩ := hpass
  simp only [readyToSend, Bool.and_eq_true, decide_eq_true_eq,
    Bool.not_eq_true'] at hready
  obtain ⟨⟨⟨⟨happ, hunsent⟩, hstep⟩, hsec⟩, hsame⟩ := hready
  rw [(beforeSend_samePosition s snapshot requests).prior] at hsame
  have hslot : (s.beforeSend snapshot requests).currentSlot snapshot = s.currentSlot snapshot := by
    rw [currentSlot, beforeSend_commandBuf, (beforeSend_samePosition s snapshot requests).cycle,
      crossPhase_of_same s snapshot requests hsame]
    rfl
  rw [hslot] at hobj happ hunsent
  subst hobj
  exact ⟨henters, hsame, hstep, hsec, rfl, by simpa using happ, hunsent⟩

/-- What is sent was ready before the call. -/
theorem readyToSend_of_passed {obj : TscCommandObject}
    (hpass : s.passedToSend snapshot requests = some obj) : s.readyToSend snapshot = true := by
  obtain ⟨-, hsame, hstep, hsec, rfl, happ, hunsent⟩ := passedToSend_cases s snapshot requests hpass
  simp [readyToSend, hsame, hstep, hsec, happ, hunsent]

end Sections

end Middleware

end AdaptiveSignal.Signal
