import AdaptiveSignal.CommandBuffer.Polling
import AdaptiveSignal.Signal.StatusUpdating

/-! # The mutexes of the polling

The polling holds the command buffer mutex from the crossing to the notes it
takes of the phase, apart from the compensation, and takes the status mutex
inside it. Two things go wrong: the emptiness test of step 4 releases the mutex
when it finds a command, and the plan packets nest the two mutexes the other
way round.
-/

namespace AdaptiveSignal.Signal

open Foundation

/-- The command buffer mutex, released again, around one access. -/
def bufferTrace : LockTrace SignalMutex :=
  [.lock .commandBuf, .access .commandBuf, .unlock .commandBuf]

namespace Middleware

section Traces

variable (s : Middleware) (snapshot : TrafficSignalStatus) (requests : List CompensationRequest)

def commandBufPrintTrace : LockTrace SignalMutex :=
  if s.config.logCommandBuffer then getStatusTrace ++ bufferTrace else []

def insertTrace (command : TscCommand) : LockTrace SignalMutex :=
  if command.check = none then getStatusTrace ++ bufferTrace ++ s.commandBufPrintTrace else []

/-- The status is read to work the compensation out, and again to report it. -/
def startCompensationTrace : LockTrace SignalMutex :=
  if s.config.trafficCompensationMethod = 0 then []
  else if s.config.trafficCompensationMethod ≤ 3 then
    getStatusTrace ++ (requests.flatMap fun request => s.insertTrace request.command) ++
      getStatusTrace
  else getStatusTrace

def compensatedTrace : LockTrace SignalMutex :=
  if s.leftResumed then
    [.unlock .commandBuf] ++ s.startCompensationTrace requests ++ [.lock .commandBuf]
  else []

def crossPhaseTrace : LockTrace SignalMutex :=
  if s.priorSubPhaseId ≠ snapshot.subPhaseId then
    [.access .commandBuf] ++ s.compensatedTrace requests ++ [.access .commandBuf] ++
      setControlStatusTrace ++ [.access .commandBuf]
  else []

/-- `check_command_buf_empty` reads the slots up to the first command and then
returns by way of an unlock. -/
def checkCommandBufEmptyTrace : LockTrace SignalMutex :=
  if s.commandBufEmpty then [.access .commandBuf] else [.access .commandBuf, .unlock .commandBuf]

def pretimeStepTrace : LockTrace SignalMutex :=
  if snapshot.stepId = 4 then s.checkCommandBufEmptyTrace else []

/-- Status and phase are read one after the other; the slots only outside
pretime control. -/
def isInCompensationTrace : LockTrace SignalMutex :=
  getStatusTrace ++ getStatusTrace ++
    if s.status.controlStrategy = 1 then [] else [.access .commandBuf]

def commandBufSendTrace : LockTrace SignalMutex :=
  getStatusTrace ++ s.isInCompensationTrace ++ [.access .commandBuf]

def sendReadyTrace : LockTrace SignalMutex :=
  [.access .commandBuf] ++
    if s.readyToSend snapshot then
      s.commandBufSendTrace ++ [.access .commandBuf] ++ setControlStatusTrace ++
        [.access .commandBuf]
    else []

/-- From the lock to the return of the emptiness test. -/
def testedTrace : LockTrace SignalMutex :=
  [.lock .commandBuf] ++ s.crossPhaseTrace snapshot requests ++
    (s.crossPhase snapshot requests).pretimeStepTrace snapshot

def bodyTrace : LockTrace SignalMutex :=
  s.testedTrace snapshot requests ++ (s.beforeSend snapshot requests).sendReadyTrace snapshot ++
    [.unlock .commandBuf]

def commandBufPollingTrace : LockTrace SignalMutex :=
  getStatusTrace ++ (if s.entersBody snapshot then s.bodyTrace snapshot requests else []) ++
    s.commandBufPrintTrace

end Traces

/-! ## The discipline of the sections -/

def noneHeld : SignalMutex → Bool := fun _ => false

def bufferHeld : SignalMutex → Bool := Function.update noneHeld .commandBuf true

abbrev Section (before after : SignalMutex → Bool) (trace : LockTrace SignalMutex) : Prop :=
  Disciplined .commandBuf before after trace

theorem section_of_decide {before after : SignalMutex → Bool} {trace : LockTrace SignalMutex}
    (haccesses : AccessesHeld before trace) (hlocks : LocksFree before trace)
    (hbuffer : heldAfter before trace .commandBuf = after .commandBuf)
    (hstatus : heldAfter before trace .signalStatus = after .signalStatus)
    (hbalance : trace.count (.lock .commandBuf) + (before .commandBuf).toNat =
      trace.count (.unlock .commandBuf) + (after .commandBuf).toNat) :
    Section before after trace := by
  refine ⟨haccesses, hlocks, ?_, hbalance⟩
  funext m
  cases m with
  | commandBuf => exact hbuffer
  | signalStatus => exact hstatus

theorem section_getStatus_free : Section noneHeld noneHeld getStatusTrace :=
  section_of_decide (by decide) (by decide) (by decide) (by decide) (by decide)

theorem section_getStatus_held : Section bufferHeld bufferHeld getStatusTrace :=
  section_of_decide (by decide) (by decide) (by decide) (by decide) (by decide)

theorem section_setControlStatus : Section bufferHeld bufferHeld setControlStatusTrace :=
  section_getStatus_held

theorem section_buffer : Section noneHeld noneHeld bufferTrace :=
  section_of_decide (by decide) (by decide) (by decide) (by decide) (by decide)

theorem section_access : Section bufferHeld bufferHeld [.access .commandBuf] :=
  section_of_decide (by decide) (by decide) (by decide) (by decide) (by decide)

theorem section_lock : Section noneHeld bufferHeld [.lock .commandBuf] :=
  section_of_decide (by decide) (by decide) (by decide) (by decide) (by decide)

theorem section_unlock : Section bufferHeld noneHeld [.unlock .commandBuf] :=
  section_of_decide (by decide) (by decide) (by decide) (by decide) (by decide)

section Sections

variable (s : Middleware) (snapshot : TrafficSignalStatus) (requests : List CompensationRequest)

theorem section_print : Section noneHeld noneHeld s.commandBufPrintTrace := by
  unfold commandBufPrintTrace
  split_ifs
  · exact section_getStatus_free.append section_buffer
  · exact Disciplined.nil

theorem section_insert (command : TscCommand) :
    Section noneHeld noneHeld (s.insertTrace command) := by
  unfold insertTrace
  split_ifs
  · exact (section_getStatus_free.append section_buffer).append (section_print s)
  · exact Disciplined.nil

theorem section_startCompensation :
    Section noneHeld noneHeld (s.startCompensationTrace requests) := by
  unfold startCompensationTrace
  split_ifs
  · exact Disciplined.nil
  · exact (section_getStatus_free.append
      (Disciplined.flatMap fun request : CompensationRequest =>
        section_insert s request.command)).append section_getStatus_free
  · exact section_getStatus_free

/-- The compensation runs without the mutex and hands it back. -/
theorem section_compensated : Section bufferHeld bufferHeld (s.compensatedTrace requests) := by
  unfold compensatedTrace
  split_ifs
  · exact (section_unlock.append (section_startCompensation s requests)).append section_lock
  · exact Disciplined.nil

theorem section_crossPhase :
    Section bufferHeld bufferHeld (s.crossPhaseTrace snapshot requests) := by
  unfold crossPhaseTrace
  split_ifs
  · exact (((section_access.append (section_compensated s requests)).append
      section_access).append section_setControlStatus).append section_access
  · exact Disciplined.nil

theorem section_isInCompensation : Section bufferHeld bufferHeld s.isInCompensationTrace := by
  unfold isInCompensationTrace
  refine (section_getStatus_held.append section_getStatus_held).append ?_
  split_ifs
  · exact Disciplined.nil
  · exact section_access

theorem section_commandBufSend : Section bufferHeld bufferHeld s.commandBufSendTrace :=
  (section_getStatus_held.append (section_isInCompensation s)).append section_access

theorem section_sendReady : Section bufferHeld bufferHeld (s.sendReadyTrace snapshot) := by
  unfold sendReadyTrace
  refine section_access.append ?_
  split_ifs
  · exact (((section_commandBufSend s).append section_access).append
      section_setControlStatus).append section_access
  · exact Disciplined.nil

end Sections

/-! ## The emptiness test -/

/-- The slot is still occupied when step 4 tests the buffer: the compensation of
a resumed phase has been inserted, and the slot of the phase left is cleared. -/
def OccupiedAtTest (s : Middleware) (snapshot : TrafficSignalStatus)
    (requests : List CompensationRequest) (cycle : CycleIndex) (phase : UInt8) : Prop :=
  if s.priorSubPhaseId = snapshot.subPhaseId then (s.commandBuf cycle phase).appId ≠ 0
  else ¬ (cycle = s.priorCycleIndex ∧ phase = s.priorSubPhaseId) ∧
    ((s.compensated requests).commandBuf cycle phase).appId ≠ 0

/-- The body runs in step 4 and finds a command in the buffer. -/
def TestsOccupied (s : Middleware) (snapshot : TrafficSignalStatus)
    (requests : List CompensationRequest) : Prop :=
  s.entersBody snapshot = true ∧ snapshot.stepId = 4 ∧
    ∃ cycle, ∃ phase ∈ phases, s.OccupiedAtTest snapshot requests cycle phase

/-- What is asked of one call: every access to the buffer is made under its
mutex, acquisitions and releases balance, and the emptiness test, where it is
made, returns with the mutex held. -/
structure PollingDisciplined (s : Middleware) (snapshot : TrafficSignalStatus)
    (requests : List CompensationRequest) : Prop where
  accesses : AccessesHeld noneHeld (s.commandBufPollingTrace snapshot requests)
  balance : (s.commandBufPollingTrace snapshot requests).count (.lock .commandBuf) =
    (s.commandBufPollingTrace snapshot requests).count (.unlock .commandBuf)
  tested : s.entersBody snapshot = true → snapshot.stepId = 4 →
    heldAfter noneHeld (getStatusTrace ++ s.testedTrace snapshot requests) .commandBuf = true

section Test

variable {s : Middleware} {snapshot : TrafficSignalStatus} {requests : List CompensationRequest}

theorem commandBufEmpty_eq_false_iff (s : Middleware) :
    s.commandBufEmpty = false ↔
      ∃ cycle, ∃ phase ∈ phases, (s.commandBuf cycle phase).appId ≠ 0 := by
  simp [commandBufEmpty, anySlot, List.any_eq_true]

theorem crossPhase_occupied_iff (cycle : CycleIndex) (phase : UInt8) :
    ((s.crossPhase snapshot requests).commandBuf cycle phase).appId ≠ 0 ↔
      s.OccupiedAtTest snapshot requests cycle phase := by
  unfold OccupiedAtTest
  by_cases hsame : s.priorSubPhaseId = snapshot.subPhaseId
  · rw [crossPhase_of_same s snapshot requests hsame, if_pos hsame]
  · rw [crossPhase_slot s snapshot requests hsame, if_neg hsame]
    by_cases hleft : cycle = s.priorCycleIndex ∧ phase = s.priorSubPhaseId
    · rw [if_pos hleft]
      exact ⟨fun happ => absurd rfl happ, fun hkept => absurd hleft hkept.1⟩
    · rw [if_neg hleft, and_iff_right hleft]
      split_ifs <;> rfl

theorem tests_occupied_iff :
    s.TestsOccupied snapshot requests ↔
      s.entersBody snapshot = true ∧ snapshot.stepId = 4 ∧
        (s.crossPhase snapshot requests).commandBufEmpty = false := by
  simp only [TestsOccupied, commandBufEmpty_eq_false_iff, crossPhase_occupied_iff]

/-- The test keeps the mutex when it finds the buffer empty. -/
theorem section_tested (hempty : ¬ (snapshot.stepId = 4 ∧
    (s.crossPhase snapshot requests).commandBufEmpty = false)) :
    Section noneHeld bufferHeld (s.testedTrace snapshot requests) := by
  refine (section_lock.append (section_crossPhase s snapshot requests)).append ?_
  unfold pretimeStepTrace checkCommandBufEmptyTrace
  split_ifs with hstep hnone
  · exact section_access
  · exact absurd ⟨hstep, by simpa using hnone⟩ hempty
  · exact Disciplined.nil

/-- The test releases the mutex when it finds a command. -/
theorem heldAfter_tested_of_occupied (hstep : snapshot.stepId = 4)
    (hoccupied : (s.crossPhase snapshot requests).commandBufEmpty = false) :
    heldAfter noneHeld (getStatusTrace ++ s.testedTrace snapshot requests) .commandBuf = false := by
  have hcross := (section_getStatus_free.append
    (section_lock.append (section_crossPhase s snapshot requests))).ends
  have htest : (s.crossPhase snapshot requests).pretimeStepTrace snapshot =
      [.access .commandBuf, .unlock .commandBuf] := by
    simp only [pretimeStepTrace, checkCommandBufEmptyTrace, hstep, hoccupied, Bool.false_eq_true,
      if_true, if_false]
  rw [testedTrace, htest, ← List.append_assoc, heldAfter, run_append,
    show run LockEvent.after noneHeld _ = bufferHeld from hcross]
  rfl

end Test

/-- One call keeps the lock discipline exactly when it does not test the buffer in
step 4 while a command is in it. -/
theorem polling_disciplined_iff (s : Middleware) (snapshot : TrafficSignalStatus)
    (requests : List CompensationRequest) :
    s.PollingDisciplined snapshot requests ↔ ¬ s.TestsOccupied snapshot requests := by
  rw [tests_occupied_iff]
  constructor
  · rintro ⟨-, -, htested⟩ ⟨henters, hstep, hoccupied⟩
    -- the early return of the test has released the mutex
    have hheld := htested henters hstep
    rw [heldAfter_tested_of_occupied hstep hoccupied] at hheld
    exact absurd hheld (by decide)
  · intro hempty
    have hbody : s.entersBody snapshot = true →
        Section noneHeld bufferHeld (s.testedTrace snapshot requests) := fun henters =>
      section_tested fun htest => hempty ⟨henters, htest⟩
    have hcall : Section noneHeld noneHeld (s.commandBufPollingTrace snapshot requests) := by
      refine (section_getStatus_free.append ?_).append (section_print s)
      split_ifs with henters
      · exact ((hbody henters).append (section_sendReady _ snapshot)).append section_unlock
      · exact Disciplined.nil
    refine ⟨hcall.accesses, by simpa [noneHeld] using hcall.balance, fun henters _ => ?_⟩
    rw [(section_getStatus_free.append (hbody henters)).ends]
    rfl

/-- In step 4 of phase 1 a command for phase 2 waits in the buffer: the test
returns without the mutex, and the access after it is made without it. -/
theorem step_four_test_releases_mutex :
    let status := { TrafficSignalStatus.initial (fun _ => StaticPlan.unset) with
      subPhaseId := 1, stepId := 4, stepSec := 3 }
    let s := (({ Middleware.boot Config.initial status with
        priorSubPhaseId := 1 }).commandBufInsertEffectTime
      ⟨evspId, 1, 2, 0, 2, 20, ⟨['A', 'M', 'B'], by decide⟩⟩).2
    ¬ s.PollingDisciplined status [] ∧
      ¬ AccessesHeld noneHeld (s.commandBufPollingTrace status []) := by
  intro status s
  have haccesses : ¬ AccessesHeld noneHeld (s.commandBufPollingTrace status []) := by
    decide +kernel
  exact ⟨fun hdisciplined => haccesses hdisciplined.accesses, haccesses⟩

/-! ## Circular wait with a plan packet -/

/-- The polling timer and the serial receiver. -/
inductive Party
  | polling
  | receiver
  deriving DecidableEq

/-- The poll as it runs before the packet has changed anything, and the packet. -/
def parties (s : Middleware) (requests : List CompensationRequest)
    (packet : TrafficSignalPacket) : Party → LockTrace SignalMutex
  | .polling => s.commandBufPollingTrace s.status requests
  | .receiver => planPacketTrace s packet

/-- No interleaving leaves each party with one mutex and waiting for the other. -/
def NoCircularWait (programs : Party → LockTrace SignalMutex) : Prop :=
  ∀ reached, Threads.Reaches (Threads.start programs) reached →
    ¬ (reached.HoldsAndWants .polling .commandBuf .signalStatus ∧
      reached.HoldsAndWants .receiver .signalStatus .commandBuf)

section CircularWait

variable {s : Middleware} {requests : List CompensationRequest} {packet : TrafficSignalPacket}

/-- A poll that asks for the status while it holds the buffer deadlocks with a
packet that clears the buffer. -/
theorem circular_wait_of_nested (done after : LockTrace SignalMutex)
    (hpoll : s.commandBufPollingTrace s.status requests = done ++ .lock .signalStatus :: after)
    (hdone : Section noneHeld bufferHeld done) (hdiffers : s.status.phaseOrder ≠ packet.info 4) :
    ¬ NoCircularWait (parties s requests packet) := by
  have hpacket : parties s requests packet .receiver =
      .lock .signalStatus :: .lock .commandBuf ::
        [.access .commandBuf, .unlock .commandBuf, .unlock .signalStatus] := by
    simp only [parties, planPacketTrace, hdiffers, ne_eq, not_false_eq_true, if_true]
    rfl
  have hpolling : parties s requests packet .polling = done ++ .lock .signalStatus :: after := hpoll
  have hends : heldAfter (fun _ => false) done = bufferHeld := hdone.ends
  obtain ⟨reached, hreaches, hwaits, hwaits'⟩ := Threads.circularWait_of_opposite_nesting
    (show Party.polling ≠ .receiver by decide)
    (show SignalMutex.commandBuf ≠ .signalStatus by decide) hpolling hpacket hdone.locks
    (by rw [hends]; rfl) (by rw [hends]; rfl)
  exact fun hno => hno reached hreaches ⟨hwaits, hwaits'⟩

/-- At a crossing the control status is reset under the buffer mutex. -/
theorem circular_wait_of_crossing (henters : s.entersBody s.status = true)
    (hcross : s.priorSubPhaseId ≠ s.status.subPhaseId)
    (hdiffers : s.status.phaseOrder ≠ packet.info 4) :
    ¬ NoCircularWait (parties s requests packet) := by
  refine circular_wait_of_nested
    (getStatusTrace ++ ([.lock .commandBuf] ++
      ([.access .commandBuf] ++ s.compensatedTrace requests ++ [.access .commandBuf])))
    (.unlock .signalStatus :: ([.access .commandBuf] ++
      (s.crossPhase s.status requests).pretimeStepTrace s.status ++
      (s.beforeSend s.status requests).sendReadyTrace s.status ++ [.unlock .commandBuf] ++
      s.commandBufPrintTrace)) ?_ ?_ hdiffers
  · simp only [commandBufPollingTrace, bodyTrace, testedTrace, crossPhaseTrace, henters, hcross,
      ne_eq, not_false_eq_true, if_true, setControlStatusTrace, List.append_assoc,
      List.cons_append, List.nil_append]
  · exact section_getStatus_free.append (section_lock.append
      ((section_access.append (section_compensated s requests)).append section_access))

/-- A command is sent with the status read anew under the buffer mutex. -/
theorem circular_wait_of_send
    (hpass : (s.passedToSend s.status requests).isSome = true)
    (hdiffers : s.status.phaseOrder ≠ packet.info 4) :
    ¬ NoCircularWait (parties s requests packet) := by
  obtain ⟨obj, hobj⟩ := Option.isSome_iff_exists.mp hpass
  obtain ⟨henters, hsame, hstep, -⟩ := passedToSend_cases _ _ _ hobj
  have hready : (s.beforeSend s.status requests).readyToSend s.status = true := by
    unfold passedToSend at hobj
    simp only [Option.ite_none_right_eq_some, Bool.and_eq_true] at hobj
    exact hobj.1.2
  have hnotFour : s.status.stepId ≠ 4 := by rw [hstep]; decide
  refine circular_wait_of_nested (getStatusTrace ++ ([.lock .commandBuf] ++ [.access .commandBuf]))
    (.unlock .signalStatus :: ((s.beforeSend s.status requests).isInCompensationTrace ++
      [.access .commandBuf] ++ [.access .commandBuf] ++ setControlStatusTrace ++
      [.access .commandBuf] ++ [.unlock .commandBuf] ++ s.commandBufPrintTrace)) ?_ ?_ hdiffers
  · simp only [commandBufPollingTrace, bodyTrace, testedTrace, crossPhaseTrace, pretimeStepTrace,
      sendReadyTrace, commandBufSendTrace, henters, hsame, hready, hnotFour, ne_eq,
      not_true_eq_false, if_true, if_false, getStatusTrace, List.append_assoc, List.cons_append,
      List.nil_append]
  · exact section_getStatus_free.append (section_lock.append section_access)

/-- Whenever a poll finds a phase change or a command to send, a plan packet with
another phase order can deadlock with it. -/
theorem circular_wait_reachable (s : Middleware) (requests : List CompensationRequest)
    (packet : TrafficSignalPacket)
    (hwork : (s.entersBody s.status = true ∧ s.priorSubPhaseId ≠ s.status.subPhaseId) ∨
      (s.passedToSend s.status requests).isSome = true)
    (hdiffers : s.status.phaseOrder ≠ packet.info 4) :
    ¬ NoCircularWait (parties s requests packet) := by
  rcases hwork with ⟨henters, hcross⟩ | hpass
  · exact circular_wait_of_crossing henters hcross hdiffers
  · exact circular_wait_of_send hpass hdiffers

theorem circular_wait_reachable_send :
    let status := { TrafficSignalStatus.initial (fun _ => StaticPlan.unset) with
      subPhaseId := 1, stepId := 1, stepSec := 30 }
    let s := (({ Middleware.boot Config.initial status with
        priorSubPhaseId := 1 }).commandBufInsertEffectTime
      ⟨evspId, 1, 1, 0, 1, 20, ⟨['A', 'M', 'B'], by decide⟩⟩).2
    let packet : TrafficSignalPacket := ⟨fun i => if i = 4 then 2 else 0⟩
    ¬ NoCircularWait (parties s [] packet) := by
  intro status s packet
  exact circular_wait_reachable s [] packet (Or.inr (by decide)) (by decide)

/-- The controller has crossed from phase 1 to phase 2 when a plan with phase
order 2 arrives in place of order 0. -/
theorem circular_wait_of_plan_change :
    let status := { TrafficSignalStatus.initial (fun _ => StaticPlan.unset) with
      subPhaseId := 2, stepId := 1, stepSec := 30 }
    let s := { Middleware.boot Config.initial status with priorSubPhaseId := 1 }
    let packet : TrafficSignalPacket := ⟨fun i => if i = 4 then 2 else 0⟩
    s.entersBody s.status = true ∧ s.priorSubPhaseId ≠ s.status.subPhaseId ∧
      s.status.phaseOrder ≠ packet.info 4 ∧ ¬ NoCircularWait (parties s [] packet) := by
  intro status s packet
  exact ⟨by decide, by decide, by decide,
    circular_wait_of_crossing (by decide) (by decide) (by decide)⟩

end CircularWait

end Middleware

end AdaptiveSignal.Signal
