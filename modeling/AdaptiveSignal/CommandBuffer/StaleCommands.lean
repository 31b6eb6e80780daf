import AdaptiveSignal.CommandBuffer.Polling
import AdaptiveSignal.Foundation.Run
import AdaptiveSignal.Signal.StatusUpdating

/-! # Commands and the occurrence of the phase they were accepted for

A command is accepted for a phase of the running cycle or of one of the next
two. The slot it goes to comes round again every third cycle, so a command that
is still there when its phase is over must be cleared before that. The polling
clears one slot, that of the phase it saw last.
-/

namespace AdaptiveSignal.Signal

open Foundation

/-- The middleware together with the number of cycles begun so far and, for
every slot, the cycle for which its command was accepted. -/
structure Tracked where
  middleware : Middleware
  wraps : ℕ
  due : CycleIndex → UInt8 → ℕ

inductive ControlEvent
  | insert (command : TscCommand)
  | poll (requests : List CompensationRequest)
  | packet5FCC (packet : TrafficSignalPacket)

namespace Tracked

def boot (config : Config) (status : TrafficSignalStatus) : Tracked where
  middleware := Middleware.boot config status
  wraps := 0
  due := fun _ _ => 0

/-- The phase the controller reported last. -/
def current (t : Tracked) : UInt8 :=
  t.middleware.status.subPhaseId

def insert (t : Tracked) (command : TscCommand) : Tracked :=
  let slot := t.middleware.slotCycle command
  let result := t.middleware.commandBufInsertEffectTime command
  { t with
    middleware := result.2
    due :=
      if result.1 = .insertAccept then
        Function.update t.due slot
          (Function.update (t.due slot) command.phase (t.wraps + command.cycle.toNat))
      else t.due }

/-- The polling that sees the end of a resumed phase inserts the compensation. -/
def compensates (t : Tracked) : Bool :=
  t.middleware.entersBody t.middleware.status &&
    t.middleware.priorSubPhaseId ≠ t.current && t.middleware.leftResumed &&
    1 ≤ t.middleware.config.trafficCompensationMethod &&
    t.middleware.config.trafficCompensationMethod ≤ 3

def poll (t : Tracked) (requests : List CompensationRequest) : Tracked :=
  { t with
    middleware := t.middleware.commandBufPolling requests
    due :=
      if t.compensates then (run insert t (requests.map CompensationRequest.command)).due
      else t.due }

def packet5FCC (t : Tracked) (packet : TrafficSignalPacket) : Tracked :=
  { t with
    middleware := t.middleware.packet5FCC packet
    wraps := t.wraps + (t.middleware.wraps packet).toNat }

def step (t : Tracked) : ControlEvent → Tracked
  | .insert command => t.insert command
  | .poll requests => t.poll requests
  | .packet5FCC packet => t.packet5FCC packet

/-! ## The property and the condition -/

/-- The polling passes on only what was accepted for the running cycle; that it
was accepted for the running phase is what its slot says. -/
def SendsOnTime (t : Tracked) (requests : List CompensationRequest) : Prop :=
  (t.middleware.passedToSend t.middleware.status requests).isSome →
    t.due t.middleware.cycleIndex t.current = t.wraps

/-- The occurrence of the phase lies before phase `phase` of cycle `cycle`. -/
def Over (t : Tracked) (slot : CycleIndex) (slotPhase : UInt8) (cycle : ℕ) (phase : UInt8) :
    Prop :=
  t.due slot slotPhase < cycle ∨ (t.due slot slotPhase = cycle ∧ slotPhase < phase)

/-- The slot the next poll clears, should it find the controller in `phase`. -/
def ClearedAt (t : Tracked) (slot : CycleIndex) (slotPhase phase : UInt8) : Prop :=
  slot = t.middleware.priorCycleIndex ∧ slotPhase = t.middleware.priorSubPhaseId ∧
    t.middleware.priorSubPhaseId ≠ phase

/-- A valid command for the running cycle that the arbitration lets through names
a phase that is not over, unless its slot is the one the next poll clears. -/
def InsertInTime (t : Tracked) (command : TscCommand) : Prop :=
  command.check = none → t.middleware.verdict command ≠ .improperPriority → command.cycle = 0 →
    t.current ≤ command.phase ∨
      t.ClearedAt (t.middleware.slotCycle command) command.phase t.current

/-- When the phase changes, every command whose occurrence is left or jumped over
sits in the slot the next poll clears. -/
def LeavesCleared (t : Tracked) (packet : TrafficSignalPacket) : Prop :=
  Middleware.reportsPhase packet → packet.info 3 ≠ t.current →
    ∀ slot phase, (t.middleware.commandBuf slot phase).appId ≠ 0 →
      t.Over slot phase (t.wraps + (t.middleware.wraps packet).toNat) (packet.info 3) →
      t.ClearedAt slot phase (packet.info 3)

def InTime (t : Tracked) : ControlEvent → Prop
  | .insert command => t.InsertInTime command
  | .poll requests =>
      t.compensates → Guarded insert InsertInTime t (requests.map CompensationRequest.command)
  | .packet5FCC packet => t.LeavesCleared packet

/-! ## The invariant -/

/-- Where a command may be and when it may be due: a command that is over waits
to be cleared by the next poll. -/
structure Fresh (t : Tracked) : Prop where
  cycle : t.middleware.cycleIndex.val = t.wraps % cycleNum
  valid : ∀ slot phase, (t.middleware.commandBuf slot phase).appId ≠ 0 → phase ≠ 0
  ring : ∀ slot phase, (t.middleware.commandBuf slot phase).appId ≠ 0 →
    t.due slot phase % cycleNum = slot.val
  window : ∀ slot phase, (t.middleware.commandBuf slot phase).appId ≠ 0 →
    t.due slot phase < t.wraps + cycleNum
  waits : ∀ slot phase, (t.middleware.commandBuf slot phase).appId ≠ 0 →
    t.Over slot phase t.wraps t.current → t.ClearedAt slot phase t.current

theorem Fresh.boot (config : Config) (status : TrafficSignalStatus) :
    Fresh (Tracked.boot config status) where
  cycle := rfl
  valid _ _ happ := absurd rfl happ
  ring _ _ happ := absurd rfl happ
  window _ _ happ := absurd rfl happ
  waits _ _ happ := absurd rfl happ

section Insert

variable {t : Tracked} {command : TscCommand}

theorem slotCycle_val (h : Fresh t) (command : TscCommand) :
    (t.middleware.slotCycle command).val = (t.wraps + command.cycle.toNat) % cycleNum := by
  simp only [Middleware.slotCycle, Fin.val_add, Fin.val_ofNat, h.cycle, ← Nat.add_mod]

/-- An insert writes slot and due cycle together, or leaves both. -/
theorem insert_slot_cases (t : Tracked) (command : TscCommand) (slot : CycleIndex)
    (phase : UInt8) :
    ((t.middleware.commandBufInsertEffectTime command).1 = .insertAccept ∧
      slot = t.middleware.slotCycle command ∧ phase = command.phase ∧
      (t.insert command).due slot phase = t.wraps + command.cycle.toNat) ∨
    ((t.insert command).middleware.commandBuf slot phase = t.middleware.commandBuf slot phase ∧
      (t.insert command).due slot phase = t.due slot phase) := by
  by_cases haccept : (t.middleware.commandBufInsertEffectTime command).1 = .insertAccept
  · simp only [insert, (insert_accepted haccept).2.2, haccept, if_true, true_and]
    by_cases hsame : slot = t.middleware.slotCycle command ∧ phase = command.phase
    · refine Or.inl ⟨hsame.1, hsame.2, ?_⟩
      rw [hsame.1, hsame.2, Function.update_self, Function.update_self]
    · refine Or.inr ⟨Middleware.setSlot_of_ne _ _ _ _ hsame, ?_⟩
      rcases eq_or_ne slot (t.middleware.slotCycle command) with rfl | hslot
      · rw [Function.update_self, Function.update_of_ne fun heq => hsame ⟨rfl, heq⟩]
      · rw [Function.update_of_ne hslot]
  · simp only [insert, insert_refused haccept, haccept, if_false, false_and, and_self, or_true]

theorem insert_samePosition (t : Tracked) (command : TscCommand) :
    Middleware.SamePosition t.middleware (t.insert command).middleware :=
  Middleware.insert_samePosition t.middleware command

theorem Fresh.insert (h : Fresh t) (hok : t.InsertInTime command) : Fresh (t.insert command) := by
  obtain ⟨hcycle, hpriorCycle, hprior, hcurrent⟩ := insert_samePosition t command
  have hslot := slotCycle_val h command
  have hwraps : (t.insert command).wraps = t.wraps := rfl
  have hphase : (t.insert command).current = t.current := hcurrent
  constructor
  · rw [hcycle, hwraps]
    exact h.cycle
  · intro slot phase happ
    rcases insert_slot_cases t command slot phase with ⟨haccept, -, rfl, -⟩ | ⟨hobj, -⟩
    · exact (check_none (insert_accepted haccept).1).2.2.2.2.1.1
    · exact h.valid slot phase (hobj ▸ happ)
  · intro slot phase happ
    rcases insert_slot_cases t command slot phase with ⟨-, rfl, rfl, hdue⟩ | ⟨hobj, hdue⟩
    · rw [hdue, hslot]
    · rw [hdue]
      exact h.ring slot phase (hobj ▸ happ)
  · intro slot phase happ
    rcases insert_slot_cases t command slot phase with ⟨haccept, rfl, rfl, hdue⟩ | ⟨hobj, hdue⟩
    · have hring := (check_none (insert_accepted haccept).1).2.2.2.1
      rw [hdue, hwraps]
      omega
    · rw [hdue, hwraps]
      exact h.window slot phase (hobj ▸ happ)
  · intro slot phase happ hover
    rw [ClearedAt, hpriorCycle, hprior, hphase]
    rw [Over, hwraps, hphase] at hover
    rcases insert_slot_cases t command slot phase with ⟨haccept, rfl, rfl, hdue⟩ | ⟨hobj, hdue⟩
    · -- what has just been accepted is over only in the running cycle
      rw [hdue] at hover
      rcases hover with hpast | ⟨hnow, hless⟩
      · omega
      · have hzero : command.cycle = 0 := UInt8.toNat_inj.mp (by
          rw [UInt8.toNat_zero]
          omega)
        obtain ⟨hcheck, hverdict, -⟩ := insert_accepted haccept
        exact (hok hcheck hverdict hzero).resolve_left (UInt8.not_le.mpr hless)
    · rw [hdue] at hover
      exact h.waits slot phase (hobj ▸ happ) hover

theorem Fresh.inserts (h : Fresh t) {commands : List TscCommand}
    (hok : Guarded Tracked.insert InsertInTime t commands) :
    Fresh (run Tracked.insert t commands) :=
  hok.invariant Fresh h fun _ _ hs hcommand => hs.insert hcommand

end Insert

section Poll

variable {t : Tracked}

/-- The tracked inserts of the compensation are those of `start_compensation`. -/
theorem run_insert_middleware (t : Tracked) (requests : List CompensationRequest) :
    (run Tracked.insert t (requests.map CompensationRequest.command)).middleware =
      requests.foldl (fun s request => (s.commandBufInsertEffectTime request.command).2)
        t.middleware := by
  induction requests generalizing t with
  | nil => rfl
  | cons request rest ih => exact ih (t.insert request.command)

theorem run_insert_wraps (t : Tracked) (commands : List TscCommand) :
    (run Tracked.insert t commands).wraps = t.wraps := by
  induction commands generalizing t with
  | nil => rfl
  | cons command rest ih => exact ih (t.insert command)

/-- The state and the due cycles a crossing poll clears its slot from. -/
def compensated (t : Tracked) (requests : List CompensationRequest) : Tracked :=
  if t.compensates then run Tracked.insert t (requests.map CompensationRequest.command) else t

theorem Fresh.compensated (h : Fresh t) {requests : List CompensationRequest}
    (hok : t.InTime (.poll requests)) : Fresh (t.compensated requests) := by
  unfold Tracked.compensated
  split_ifs with hcompensates
  · exact h.inserts (hok hcompensates)
  · exact h

theorem compensated_samePosition (t : Tracked) (requests : List CompensationRequest) :
    Middleware.SamePosition t.middleware (t.compensated requests).middleware := by
  unfold Tracked.compensated
  split_ifs
  · rw [run_insert_middleware]
    exact Middleware.compensationInserts_samePosition t.middleware requests
  · exact Middleware.SamePosition.refl _

theorem compensated_wraps (t : Tracked) (requests : List CompensationRequest) :
    (t.compensated requests).wraps = t.wraps := by
  unfold Tracked.compensated
  split_ifs
  · exact run_insert_wraps t _
  · rfl

theorem poll_due (t : Tracked) (requests : List CompensationRequest) :
    (t.poll requests).due = (t.compensated requests).due := by
  simp only [poll, Tracked.compensated]
  split_ifs <;> rfl

/-- At a crossing the tracked compensation fills the slots as the polling does. -/
theorem compensated_commandBuf (henters : t.middleware.entersBody t.middleware.status = true)
    (hcross : t.middleware.priorSubPhaseId ≠ t.current) (requests : List CompensationRequest) :
    (t.middleware.compensated requests).commandBuf =
      (t.compensated requests).middleware.commandBuf := by
  have hcompensates : t.compensates = (t.middleware.leftResumed &&
      1 ≤ t.middleware.config.trafficCompensationMethod &&
      t.middleware.config.trafficCompensationMethod ≤ 3) := by
    simp [compensates, henters, hcross]
  unfold Tracked.compensated Middleware.compensated Middleware.startCompensation
  rw [hcompensates]
  cases t.middleware.leftResumed with
  | false => simp
  | true =>
      by_cases hmethod : 1 ≤ t.middleware.config.trafficCompensationMethod ∧
          t.middleware.config.trafficCompensationMethod ≤ 3
      · simp only [hmethod, and_self, if_true, Bool.true_and, decide_true, run_insert_middleware]
      · have hnot : ¬ ((true && decide (1 ≤ t.middleware.config.trafficCompensationMethod) &&
            decide (t.middleware.config.trafficCompensationMethod ≤ 3)) = true) := by
          simpa using hmethod
        simp only [if_true, if_neg hmethod, if_neg hnot]

/-- What the body leaves occupied was occupied before, and is not the slot of a
phase that was left. -/
theorem poll_occupied (henters : t.middleware.entersBody t.middleware.status = true)
    (requests : List CompensationRequest) {slot : CycleIndex} {phase : UInt8}
    (happ : ((t.poll requests).middleware.commandBuf slot phase).appId ≠ 0) :
    ((t.compensated requests).middleware.commandBuf slot phase).appId ≠ 0 ∧
      ¬ t.ClearedAt slot phase t.current := by
  have hbody := Middleware.commandBufPollingFrom_of_enters t.middleware t.middleware.status
    requests henters
  have hobj : ((t.middleware.crossPhase t.middleware.status requests).commandBuf slot
      phase).appId ≠ 0 := by
    have hkept := Middleware.sendReady_appId
      (t.middleware.beforeSend t.middleware.status requests) t.middleware.status slot phase
    rw [Middleware.beforeSend_commandBuf] at hkept
    rw [← hkept]
    simp only [poll, Middleware.commandBufPolling, hbody] at happ
    exact happ
  by_cases hcross : t.middleware.priorSubPhaseId = t.current
  · have hcompensates : t.compensates = false := by simp [compensates, hcross]
    rw [Middleware.crossPhase_of_same _ _ _ hcross] at hobj
    simp only [Tracked.compensated, hcompensates, Bool.false_eq_true, if_false]
    exact ⟨hobj, fun hcleared => hcleared.2.2 hcross⟩
  · rw [Middleware.crossPhase_slot _ _ _ hcross] at hobj
    by_cases hleft : slot = t.middleware.priorCycleIndex ∧ phase = t.middleware.priorSubPhaseId
    · rw [if_pos hleft] at hobj
      exact absurd rfl hobj
    · rw [if_neg hleft] at hobj
      refine ⟨?_, fun hcleared => hleft ⟨hcleared.1, hcleared.2.1⟩⟩
      rw [← compensated_commandBuf henters hcross]
      split_ifs at hobj <;> exact hobj

theorem poll_position (t : Tracked) (requests : List CompensationRequest) :
    (t.poll requests).middleware.cycleIndex = t.middleware.cycleIndex ∧
      (t.poll requests).current = t.current :=
  Middleware.commandBufPollingFrom_position t.middleware t.middleware.status requests

/-- A body that is entered leaves nothing behind that is over. -/
theorem Fresh.poll_entered (h : Fresh t)
    (henters : t.middleware.entersBody t.middleware.status = true)
    {requests : List CompensationRequest} (hok : t.InTime (.poll requests)) :
    Fresh (t.poll requests) := by
  have hfilled := h.compensated hok
  obtain ⟨hcycle, hcurrent⟩ := poll_position t requests
  obtain ⟨-, hpriorCycle, hprior, hphase⟩ := compensated_samePosition t requests
  have hwraps := compensated_wraps t requests
  have hdue := poll_due t requests
  constructor
  · exact hcycle ▸ h.cycle
  · intro slot phase happ
    exact hfilled.valid slot phase (poll_occupied henters requests happ).1
  · intro slot phase happ
    rw [hdue]
    exact hfilled.ring slot phase (poll_occupied henters requests happ).1
  · intro slot phase happ
    have hwindow := hfilled.window slot phase (poll_occupied henters requests happ).1
    rw [hwraps] at hwindow
    rw [hdue]
    exact hwindow
  · intro slot phase happ hover
    obtain ⟨hoccupied, hnot⟩ := poll_occupied henters requests happ
    have hpast : (t.compensated requests).Over slot phase (t.compensated requests).wraps
        (t.compensated requests).current := by
      rw [hwraps, show (t.compensated requests).current = t.current from hphase]
      rw [hcurrent, Over, hdue] at hover
      exact hover
    have hcleared := hfilled.waits slot phase hoccupied hpast
    rw [ClearedAt, hpriorCycle, hprior,
      show (t.compensated requests).current = t.current from hphase] at hcleared
    exact absurd hcleared hnot

/-- A call that does not enter the body at most notes the phase. -/
theorem Fresh.poll_skipped (h : Fresh t)
    (hskips : t.middleware.entersBody t.middleware.status = false)
    (requests : List CompensationRequest) : Fresh (t.poll requests) := by
  have hcompensates : t.compensates = false := by simp [compensates, hskips]
  by_cases hzero : t.middleware.status.subPhaseId = 0
  · have hsame : t.poll requests = t := by
      simp only [poll, hcompensates, Middleware.commandBufPolling,
        Middleware.commandBufPollingFrom, hzero, Bool.false_eq_true, if_true, if_false]
    rw [hsame]
    exact h
  · have hprior : t.middleware.priorSubPhaseId = 0 := by
      simpa [Middleware.entersBody, hzero] using hskips
    have hnoted : t.poll requests = { t with middleware := { t.middleware with
        priorSubPhaseId := t.current
        priorStepId := t.middleware.status.stepId
        priorStepSec := t.middleware.status.stepSec } } := by
      simp only [poll, hcompensates, Middleware.commandBufPolling, current,
        Middleware.commandBufPollingFrom, hzero, hprior, Bool.false_eq_true, if_true, if_false]
    rw [hnoted]
    refine ⟨h.cycle, h.valid, h.ring, h.window, fun slot phase happ hover => ?_⟩
    have hcleared := h.waits slot phase happ hover
    exact absurd (hcleared.2.1.trans hprior) (h.valid slot phase happ)

theorem Fresh.poll (h : Fresh t) {requests : List CompensationRequest}
    (hok : t.InTime (.poll requests)) : Fresh (t.poll requests) := by
  cases henters : t.middleware.entersBody t.middleware.status with
  | true => exact h.poll_entered henters hok
  | false => exact h.poll_skipped henters requests

end Poll

section Packet

variable {t : Tracked} {packet : TrafficSignalPacket}

theorem Fresh.packet5FCC (h : Fresh t) (hok : t.LeavesCleared packet) :
    Fresh (t.packet5FCC packet) := by
  have hcycleIndex := Middleware.packet5FCC_cycleIndex t.middleware packet
  have hphase := Middleware.packet5FCC_subPhaseId t.middleware packet
  refine ⟨?_, ?_, ?_, ?_, ?_⟩
  · have hcycle := h.cycle
    change (t.middleware.packet5FCC packet).cycleIndex.val =
      (t.wraps + (t.middleware.wraps packet).toNat) % cycleNum
    rw [hcycleIndex]
    cases t.middleware.wraps packet with
    | false => simpa using hcycle
    | true => simp [Fin.val_add, hcycle, Nat.add_mod]
  · simpa only [Tracked.packet5FCC, Middleware.packet5FCC_commandBuf] using h.valid
  · simpa only [Tracked.packet5FCC, Middleware.packet5FCC_commandBuf] using h.ring
  · intro slot phase happ
    simp only [Tracked.packet5FCC, Middleware.packet5FCC_commandBuf] at happ ⊢
    have hwindow := h.window slot phase happ
    omega
  · intro slot phase happ hover
    simp only [Tracked.packet5FCC, Middleware.packet5FCC_commandBuf] at happ
    have hclears : ∀ reported, t.ClearedAt slot phase reported →
        (t.packet5FCC packet).ClearedAt slot phase reported := fun reported hcleared => by
      simpa only [ClearedAt, Tracked.packet5FCC, Middleware.packet5FCC_priorCycleIndex,
        Middleware.packet5FCC_priorSubPhaseId] using hcleared
    have hcurrent : (t.packet5FCC packet).current =
        if Middleware.reportsPhase packet then packet.info 3 else t.current := hphase
    by_cases hmoves : Middleware.reportsPhase packet = true ∧ packet.info 3 ≠ t.current
    · rw [hcurrent, if_pos hmoves.1] at hover ⊢
      exact hclears _ (hok hmoves.1 hmoves.2 slot phase happ hover)
    · -- nothing new is over while the phase stays
      have hstays : (t.packet5FCC packet).current = t.current := by
        rw [hcurrent]
        split_ifs with hreports
        · exact not_not.mp fun hne => hmoves ⟨hreports, hne⟩
        · rfl
      have hsame : t.middleware.wraps packet = false := by
        rw [Middleware.wraps]
        cases hreports : Middleware.reportsPhase packet with
        | false => rfl
        | true =>
            have hphase' : packet.info 3 = t.current := not_not.mp fun hne => hmoves ⟨hreports, hne⟩
            simp [hphase', current]
      rw [hstays] at hover ⊢
      have hnow : (t.packet5FCC packet).wraps = t.wraps := by
        simp [Tracked.packet5FCC, hsame]
      rw [hnow] at hover
      exact hclears _ (h.waits slot phase happ hover)

end Packet

/-! ## Runs -/

theorem Fresh.step {t : Tracked} (h : Fresh t) {event : ControlEvent} (hok : t.InTime event) :
    Fresh (t.step event) := by
  cases event with
  | insert command => exact h.insert hok
  | poll requests => exact h.poll hok
  | packet5FCC packet => exact h.packet5FCC hok

/-- Within one lap of the ring a slot stands for one cycle. -/
theorem eq_of_ring_window {n now due : ℕ} (hring : due % n = now % n) (hlow : now ≤ due)
    (hwindow : due < now + n) : due = now := by
  have hzero : (due - now) % n = 0 := Nat.sub_mod_eq_zero_of_mod_eq hring
  rw [Nat.mod_eq_of_lt (by omega)] at hzero
  omega

/-- In a fresh state a poll passes on nothing but commands of the running cycle. -/
theorem Fresh.sendsOnTime {t : Tracked} (h : Fresh t) (requests : List CompensationRequest) :
    t.SendsOnTime requests := by
  intro hpass
  obtain ⟨obj, hobj⟩ := Option.isSome_iff_exists.mp hpass
  obtain ⟨-, hsame, -, -, rfl, happ, -⟩ := Middleware.passedToSend_cases _ _ _ hobj
  have hring := h.ring t.middleware.cycleIndex t.current happ
  have hwindow := h.window t.middleware.cycleIndex t.current happ
  have hcycle := h.cycle
  have hnot : ¬ t.Over t.middleware.cycleIndex t.current t.wraps t.current := fun hover =>
    (h.waits _ _ happ hover).2.2 hsame
  have hlow : t.wraps ≤ t.due t.middleware.cycleIndex t.current :=
    Nat.le_of_not_lt fun hlt => hnot (Or.inl hlt)
  exact eq_of_ring_window (hring.trans hcycle) hlow hwindow

/-- In every run in which no command is accepted for a phase that is over, and no
phase is left or jumped over with a command the next poll does not clear, every
command is sent in the cycle it was accepted for. -/
theorem no_stale_command_sent (config : Config) (status : TrafficSignalStatus)
    (events : List ControlEvent)
    (hevents : Guarded step InTime (boot config status) events) :
    ∀ before after requests, events = before ++ .poll requests :: after →
      (run step (boot config status) before).SendsOnTime requests := by
  intro before after requests hsplit
  rw [hsplit] at hevents
  have hfresh := (Guarded.append.mp hevents).1.invariant Fresh (Fresh.boot config status)
    fun _ _ hs hevent => hs.step hevent
  exact hfresh.sendsOnTime requests

theorem no_stale_command_sent_running_phase :
    let t := boot Config.initial (TrafficSignalStatus.initial fun _ => StaticPlan.unset)
    let command : TscCommand := ⟨evspId, 1, 1, 0, 1, 20, ⟨['A', 'M', 'B'], by decide⟩⟩
    let before := [.packet5FCC (.phaseReport 1 1 30), .poll [], .insert command]
    ((run step t before).middleware.passedToSend (run step t before).middleware.status []).isSome ∧
      (run step t before).SendsOnTime [] := by
  intro t command before
  have hevents : Guarded step InTime t (before ++ [.poll []]) := by
    refine ⟨fun _ _ _ _ happ => absurd rfl happ, fun hcompensates => ?_, fun _ _ _ => Or.inl ?_,
      fun hcompensates => ?_, trivial⟩
    · exact absurd hcompensates (by decide)
    · decide
    · exact absurd hcompensates (by decide)
  exact ⟨by decide, no_stale_command_sent _ _ _ hevents before [] [] rfl⟩

/-- In phase 2 a command is accepted for phase 1 of the running cycle, which is
over. It survives three laps and is sent three cycles after its own. -/
theorem passed_phase_command_sent_three_cycles_later :
    let t := boot Config.initial (TrafficSignalStatus.initial fun _ => StaticPlan.unset)
    let command : TscCommand := ⟨evspId, 1, 1, 0, 1, 20, ⟨['A', 'M', 'B'], by decide⟩⟩
    let lap := [.packet5FCC (.phaseReport 2 1 30), .poll [], .packet5FCC (.phaseReport 1 1 30),
      .poll []]
    let before := [.packet5FCC (.phaseReport 2 1 30), .poll [], .insert command,
      .packet5FCC (.phaseReport 1 1 30), .poll []] ++ lap ++ lap
    let reached := run step t before
    (reached.middleware.passedToSend reached.middleware.status []).isSome ∧
      reached.due reached.middleware.cycleIndex reached.current + 3 = reached.wraps ∧
      ¬ reached.SendsOnTime [] := by
  intro t command lap before reached
  have hpass : (reached.middleware.passedToSend reached.middleware.status []).isSome := by
    decide +kernel
  have hlate : reached.due reached.middleware.cycleIndex reached.current + 3 = reached.wraps := by
    decide +kernel
  exact ⟨hpass, hlate, fun htime => by have hnow := htime hpass; omega⟩

end Tracked

end AdaptiveSignal.Signal
