import AdaptiveSignal.CommandBuffer.Polling
import AdaptiveSignal.Signal.PlanPackets

/-! # Events of the command buffer and what they do to one object

Inserts, deletions, resumes, packets and polls act on the same buffer. Apart from
an accepted insert they clear an object or mark it as adjusted or sent, so that a
property of objects that survives this is for the inserts alone to keep.
-/

namespace AdaptiveSignal.Signal

open Foundation

/-- A position in the command buffer. -/
abbrev Slot := CycleIndex × UInt8

/-- What happens to the command buffer. -/
inductive BufferEvent
  | insert (command : TscCommand)
  | deleteObu (hostObuName : HostName)
  | resume (app : Option Bool)
  | packet (packet : TrafficSignalPacket)
  | poll (requests : List CompensationRequest)

/-- A request of the bus application for phase 1 of the running cycle. -/
def TscCommand.busRequest (effectTime : Int16) : TscCommand where
  appId := tspId
  appPriority := 2
  targetPhase := 1
  cycle := 0
  phase := 1
  effectTime := effectTime
  hostObuName := ⟨['b', 'u', 's'], by decide⟩

namespace Middleware

/-- The object in a slot. -/
def slotAt (s : Middleware) (slot : Slot) : TscCommandObject :=
  s.commandBuf slot.1 slot.2

/-- The state after an insert, accepted or not. -/
def inserted (s : Middleware) (command : TscCommand) : Middleware :=
  (s.commandBufInsertEffectTime command).2

def onEvent (s : Middleware) : BufferEvent → Middleware
  | .insert command => s.inserted command
  | .deleteObu hostObuName => s.commandBufDeleteObu hostObuName
  | .resume app => (s.commandBufResumeControl app).2
  | .packet packet => s.dispatch packet
  | .poll requests => s.commandBufPolling requests

/-- The commands the event hands to the insertion. -/
def offers (s : Middleware) : BufferEvent → List TscCommand
  | .insert command => [command]
  | .resume _ => [s.resumeCommand]
  | .poll requests => requests.map CompensationRequest.command
  | _ => []

theorem startCompensation_commandBuf {s : Middleware} (requests : List CompensationRequest)
    (hmethod : 1 ≤ s.config.trafficCompensationMethod ∧ s.config.trafficCompensationMethod ≤ 3) :
    (s.startCompensation requests).commandBuf =
      (run inserted s (requests.map CompensationRequest.command)).commandBuf := by
  have hfold : run inserted s (requests.map CompensationRequest.command) =
      requests.foldl (fun s request => (s.commandBufInsertEffectTime request.command).2) s :=
    List.foldl_map
  simp only [startCompensation, if_pos hmethod]
  rw [hfold]

/-- A compensation with no method to work with leaves the buffer. -/
theorem startCompensation_idle {s : Middleware} (requests : List CompensationRequest)
    (hmethod : ¬ (1 ≤ s.config.trafficCompensationMethod ∧
      s.config.trafficCompensationMethod ≤ 3)) :
    (s.startCompensation requests).commandBuf = s.commandBuf := by
  simp only [startCompensation, if_neg hmethod]

end Middleware

/-! ## Properties of an object that only an insert can end -/

/-- The property survives clearing and marking. -/
structure ObjectInvariant (holds : TscCommandObject → Prop) : Prop where
  cleared : holds TscCommandObject.cleared
  adjusted : ∀ obj seconds, holds obj → holds { obj with adjustedTime := seconds }
  sent : ∀ obj, holds obj → holds { obj with sendFlag := true, adjustedTime := obj.effectTime }

namespace ObjectInvariant

open Middleware

variable {holds : TscCommandObject → Prop} (h : ObjectInvariant holds)
  {s : Middleware} {slot : Slot}

include h

theorem deleteObu (hs : holds (s.slotAt slot)) (hostObuName : HostName) :
    holds ((s.commandBufDeleteObu hostObuName).slotAt slot) := by
  unfold slotAt commandBufDeleteObu
  dsimp only
  split_ifs
  · exact h.cleared
  · exact hs

theorem dispatch (hs : holds (s.slotAt slot)) (packet : TrafficSignalPacket) :
    holds ((s.dispatch packet).slotAt slot) := by
  unfold slotAt
  rcases dispatch_commandBuf s packet with hsame | hclear
  · rw [hsame]
    exact hs
  · rw [hclear]
    exact h.cleared

theorem sendReady (hs : holds (s.slotAt slot)) (snapshot : TrafficSignalStatus) :
    holds ((s.sendReady snapshot).slotAt slot) := by
  unfold slotAt
  rw [sendReady_slot]
  split_ifs with hready
  · apply h.sent
    rw [currentSlot, ← hready.2.1, ← hready.2.2]
    exact hs
  · exact hs

/-- A crossing clears the phase that was left and adjusts the one that runs. -/
theorem crossPhase {snapshot : TrafficSignalStatus} {requests : List CompensationRequest}
    (hcross : s.priorSubPhaseId ≠ snapshot.subPhaseId)
    (hs : holds ((s.compensated requests).slotAt slot)) :
    holds ((s.crossPhase snapshot requests).slotAt slot) := by
  unfold slotAt
  rw [crossPhase_slot s snapshot requests hcross]
  split_ifs
  · exact h.cleared
  · exact h.adjusted _ _ hs
  · exact hs

/-- Over a poll it remains to show that the compensation keeps the property. -/
theorem poll {requests : List CompensationRequest} (hs : holds (s.slotAt slot))
    (hcompensated : s.entersBody s.status = true → s.priorSubPhaseId ≠ s.status.subPhaseId →
      holds ((s.compensated requests).slotAt slot)) :
    holds ((s.commandBufPolling requests).slotAt slot) := by
  by_cases henters : s.entersBody s.status = true
  · have hcrossed : holds ((s.crossPhase s.status requests).slotAt slot) := by
      by_cases hsame : s.priorSubPhaseId = s.status.subPhaseId
      · rw [crossPhase_of_same s s.status requests hsame]
        exact hs
      · exact h.crossPhase hsame (hcompensated henters hsame)
    have hbefore : holds ((s.beforeSend s.status requests).slotAt slot) := by
      unfold slotAt
      rw [beforeSend_commandBuf]
      exact hcrossed
    rw [commandBufPolling, commandBufPollingFrom_of_enters s s.status requests henters]
    exact h.sendReady hbefore s.status
  · simp only [entersBody, Bool.and_eq_true, decide_eq_true_eq, not_and, not_not] at henters
    unfold commandBufPolling commandBufPollingFrom
    split_ifs with hphase hprior
    · exact hs
    · exact hs
    · exact absurd (henters hphase) hprior

/-! ## A property of all objects -/

/-- Every accepted command of a kind leaves an object with the property. -/
def Accepting (holds : TscCommandObject → Prop) (allowed : TscCommand → Prop) : Prop :=
  ∀ (s : Middleware) (command : TscCommand), allowed command → command.check = none →
    s.verdict command ≠ .improperPriority → holds (s.target command) → holds (s.accepted command)

variable {allowed : TscCommand → Prop}

omit h in
theorem inserted (haccepting : Accepting holds allowed) (hs : ∀ slot, holds (s.slotAt slot))
    {command : TscCommand} (hallowed : allowed command) (slot : Slot) :
    holds ((s.inserted command).slotAt slot) := by
  unfold Middleware.inserted
  rcases insert_cases s command with ⟨err, -, -, -, heq⟩ | ⟨-, -, heq⟩ | ⟨hcheck, hlabel, heq⟩
  · rw [heq]
    exact hs slot
  · rw [heq]
    exact hs slot
  · rw [heq]
    by_cases haddressed : slot.1 = s.slotCycle command ∧ slot.2 = command.phase
    · unfold slotAt
      rw [haddressed.1, haddressed.2, setSlot_self]
      exact haccepting s command hallowed hcheck hlabel (hs (s.slotCycle command, command.phase))
    · unfold slotAt
      rw [setSlot_of_ne _ _ _ _ haddressed]
      exact hs slot

omit h in
theorem inserted_run (haccepting : Accepting holds allowed) {commands : List TscCommand}
    (hallowed : ∀ command ∈ commands, allowed command) (hs : ∀ slot, holds (s.slotAt slot)) :
    ∀ slot, holds ((run Middleware.inserted s commands).slotAt slot) := by
  induction commands generalizing s with
  | nil => exact hs
  | cons command rest ih =>
      rw [run_cons]
      apply ih fun other hother => hallowed other (List.mem_cons_of_mem command hother)
      exact inserted haccepting hs (hallowed command List.mem_cons_self)

theorem onEvent (haccepting : Accepting holds allowed) (event : BufferEvent)
    (hallowed : ∀ command ∈ s.offers event, allowed command)
    (hs : ∀ slot, holds (s.slotAt slot)) : ∀ slot, holds ((s.onEvent event).slotAt slot) := by
  intro slot
  cases event with
  | insert command => exact inserted haccepting hs (hallowed command List.mem_cons_self) slot
  | deleteObu hostObuName => exact h.deleteObu (hs slot) hostObuName
  | resume app =>
      match app with
      | none => exact hs slot
      | some true => exact hs slot
      | some false => exact inserted haccepting hs (hallowed _ List.mem_cons_self) slot
  | packet packet => exact h.dispatch (hs slot) packet
  | poll requests =>
      refine h.poll (hs slot) fun _ _ => ?_
      unfold compensated
      split_ifs
      · unfold slotAt
        by_cases hmethod : 1 ≤ s.config.trafficCompensationMethod ∧
            s.config.trafficCompensationMethod ≤ 3
        · rw [startCompensation_commandBuf requests hmethod]
          exact inserted_run haccepting hallowed hs slot
        · rw [startCompensation_idle requests hmethod]
          exact hs slot
      · exact hs slot

/-- The property holds of every object over a run whose commands are allowed. -/
theorem onRun (haccepting : Accepting holds allowed) {events : List BufferEvent}
    (hallowed : Guarded Middleware.onEvent
      (fun s event => ∀ command ∈ s.offers event, allowed command) s events)
    (hs : ∀ slot, holds (s.slotAt slot)) :
    ∀ slot, holds ((run Middleware.onEvent s events).slotAt slot) := by
  apply hallowed.invariant (fun s => ∀ slot, holds (s.slotAt slot)) hs
  intro s event hs hok
  exact h.onEvent haccepting event hok hs

end ObjectInvariant

end AdaptiveSignal.Signal
