import AdaptiveSignal.CommandBuffer.Polling
import AdaptiveSignal.Foundation.Run
import AdaptiveSignal.Signal.StatusUpdating

/-! # The adjusted time of the running phase

The adjusted time of a slot is meant to be the green time the controller runs:
the next command is sent as the difference to it. Once a command of the running
phase has been sent, inserts, resumes and polls keep it; deleting the host whose
command was sent, and a send that does not reach the controller, do not.
-/

namespace AdaptiveSignal.Signal

open Foundation

/-- The middleware together with the effect time of the command last sent in the
running occurrence of the phase. -/
structure Adjusted where
  middleware : Middleware
  lastSent : Option UInt8

inductive PhaseEvent
  | insert (command : TscCommand)
  | deleteObu (hostObuName : HostName)
  | resumeControl (app : Option Bool)
  | poll (requests : List CompensationRequest)
  | packet5FCC (packet : TrafficSignalPacket)

namespace Adjusted

/-- The slot of the running phase. -/
def slot (t : Adjusted) : TscCommandObject :=
  t.middleware.currentSlot t.middleware.status

def step (t : Adjusted) : PhaseEvent → Adjusted
  | .insert command => { t with middleware := (t.middleware.commandBufInsertEffectTime command).2 }
  | .deleteObu hostObuName => { t with middleware := t.middleware.commandBufDeleteObu hostObuName }
  | .resumeControl app => { t with middleware := (t.middleware.commandBufResumeControl app).2 }
  | .poll requests =>
      { middleware := t.middleware.commandBufPolling requests
        lastSent := ((t.middleware.sentToController t.middleware.status requests).map
          TscCommandObject.effectTime).or t.lastSent }
  | .packet5FCC packet =>
      let middleware := t.middleware.packet5FCC packet
      { middleware := middleware
        lastSent :=
          if middleware.status.subPhaseId = t.middleware.status.subPhaseId then t.lastSent
          else none }

/-- The adjusted time of the running phase is that of the command last sent. -/
def Tracks (t : Adjusted) : Prop :=
  ∀ effectTime, t.lastSent = some effectTime → t.slot.adjustedTime = effectTime

/-- The steps that do not touch a command already sent: no delete names its host,
and no later command of the phase is held back on its way to the controller
with another effect time. -/
def KeepsSent (t : Adjusted) : PhaseEvent → Prop
  | .deleteObu hostObuName =>
      t.lastSent ≠ none →
        strncmpEq (idMaxLen + 1) t.slot.hostObuName hostObuName = false
  | .poll _ =>
      t.lastSent ≠ none → t.middleware.readyToSend t.middleware.status = true →
        t.middleware.sendRefused t.slot = true → t.slot.effectTime = t.slot.adjustedTime
  | _ => True

/-- After a send the phase has been seen by the polling and its slot is occupied. -/
structure Settled (t : Adjusted) (effectTime : UInt8) : Prop where
  seen : t.middleware.priorSubPhaseId = t.middleware.status.subPhaseId
  occupied : t.slot.appId ≠ 0
  adjusted : t.slot.adjustedTime = effectTime

def Inv (t : Adjusted) : Prop :=
  ∀ effectTime, t.lastSent = some effectTime → t.Settled effectTime

section Steps

variable {t : Adjusted} {effectTime : UInt8}

/-- An occupied slot keeps its adjusted time over an insert, wherever that goes. -/
theorem insert_slot (s : Middleware) (command : TscCommand) (cycle : CycleIndex) (phase : UInt8)
    (happ : (s.commandBuf cycle phase).appId ≠ 0) :
    ((s.commandBufInsertEffectTime command).2.commandBuf cycle phase).appId ≠ 0 ∧
      ((s.commandBufInsertEffectTime command).2.commandBuf cycle phase).adjustedTime =
        (s.commandBuf cycle phase).adjustedTime := by
  by_cases haccept : (s.commandBufInsertEffectTime command).1 = .insertAccept
  · obtain ⟨hcheck, -, heq⟩ := insert_accepted haccept
    rw [heq]
    by_cases hsame : cycle = s.slotCycle command ∧ phase = command.phase
    · -- only an empty slot takes the time of the plan
      obtain ⟨rfl, rfl⟩ := hsame
      rw [Middleware.setSlot_self]
      refine ⟨accept_appId_ne_zero (check_none hcheck).1, ?_⟩
      rw [Middleware.accepted, accept_firstInsert_adjustedTime, if_neg fun hzero => happ hzero.1]
      rfl
    · rw [Middleware.setSlot_of_ne _ _ _ _ hsame]
      exact ⟨happ, rfl⟩
  · rw [insert_refused haccept]
    exact ⟨happ, rfl⟩

theorem Settled.insert (h : t.Settled effectTime) (command : TscCommand) :
    (t.step (.insert command)).Settled effectTime := by
  obtain ⟨hcycle, -, hprior, hcurrent⟩ := Middleware.insert_samePosition t.middleware command
  obtain ⟨hoccupied, hadjusted⟩ := insert_slot t.middleware command t.middleware.cycleIndex
    t.middleware.status.subPhaseId h.occupied
  have hslot : (t.step (.insert command)).slot =
      (t.middleware.commandBufInsertEffectTime command).2.commandBuf t.middleware.cycleIndex
        t.middleware.status.subPhaseId := by
    simp only [slot, step, Middleware.currentSlot, hcycle, hcurrent]
  refine ⟨?_, ?_, ?_⟩
  · simp only [step, hprior, hcurrent]
    exact h.seen
  · rw [hslot]
    exact hoccupied
  · rw [hslot, hadjusted]
    exact h.adjusted

theorem Settled.resumeControl (h : t.Settled effectTime) (app : Option Bool) :
    (t.step (.resumeControl app)).Settled effectTime := by
  rcases app with _ | dontSend2TC
  · exact h
  · cases dontSend2TC with
    | true => exact h
    | false => exact h.insert t.middleware.resumeCommand

theorem Settled.deleteObu (h : t.Settled effectTime) {hostObuName : HostName}
    (hother : strncmpEq (idMaxLen + 1) t.slot.hostObuName hostObuName = false) :
    (t.step (.deleteObu hostObuName)).Settled effectTime := by
  have hslot : (t.step (.deleteObu hostObuName)).slot = t.slot := by
    change (if 1 ≤ t.middleware.status.subPhaseId ∧ t.middleware.status.subPhaseId ≤ 8 ∧
      strncmpEq (idMaxLen + 1) t.slot.hostObuName hostObuName = true then _ else t.slot) = t.slot
    rw [hother]
    simp
  exact ⟨h.seen, hslot ▸ h.occupied, hslot ▸ h.adjusted⟩

theorem Settled.packet5FCC (h : t.Settled effectTime) {packet : TrafficSignalPacket}
    (hstays : (t.middleware.packet5FCC packet).status.subPhaseId =
      t.middleware.status.subPhaseId) :
    (t.step (.packet5FCC packet)).Settled effectTime := by
  have hwraps : t.middleware.wraps packet = false := by
    rw [Middleware.packet5FCC_subPhaseId] at hstays
    rw [Middleware.wraps]
    cases hreports : Middleware.reportsPhase packet with
    | false => rfl
    | true =>
        rw [hreports, if_pos rfl] at hstays
        simp [hstays]
  have hcycle : (t.middleware.packet5FCC packet).cycleIndex = t.middleware.cycleIndex := by
    rw [Middleware.packet5FCC_cycleIndex, hwraps]
    rfl
  have hslot : (t.step (.packet5FCC packet)).slot = t.slot := by
    simp only [slot, step, Middleware.currentSlot, Middleware.packet5FCC_commandBuf, hcycle, hstays]
  refine ⟨?_, hslot ▸ h.occupied, hslot ▸ h.adjusted⟩
  simp only [step, Middleware.packet5FCC_priorSubPhaseId, hstays]
  exact h.seen

end Steps

section Poll

variable {t : Adjusted}

/-- The slot of the running phase after a poll that saw the phase before. -/
theorem poll_slot (requests : List CompensationRequest)
    (hseen : t.middleware.priorSubPhaseId = t.middleware.status.subPhaseId)
    (henters : t.middleware.entersBody t.middleware.status = true) :
    (t.step (.poll requests)).middleware.priorSubPhaseId =
        (t.step (.poll requests)).middleware.status.subPhaseId ∧
      (t.step (.poll requests)).slot =
        match t.middleware.passedToSend t.middleware.status requests with
        | some obj => { obj with sendFlag := true, adjustedTime := obj.effectTime }
        | none => t.slot := by
  have hbody := Middleware.commandBufPollingFrom_of_enters t.middleware t.middleware.status
    requests henters
  have hbefore := Middleware.beforeSend_samePosition t.middleware t.middleware.status requests
  have hsend := Middleware.sendReady_samePosition
    (t.middleware.beforeSend t.middleware.status requests) t.middleware.status
  obtain ⟨hcycle, -, -, hcurrent⟩ := hbefore.trans hsend
  have hslot : (t.step (.poll requests)).slot =
      ((t.middleware.beforeSend t.middleware.status requests).sendReady
        t.middleware.status).commandBuf t.middleware.cycleIndex
          t.middleware.status.subPhaseId := by
    simp only [slot, step, Middleware.commandBufPolling, hbody, Middleware.currentSlot,
      Middleware.recordPrior, hcycle, hcurrent]
  refine ⟨?_, ?_⟩
  · simp only [step, Middleware.commandBufPolling, hbody, Middleware.recordPrior, hcurrent]
  · rw [hslot, Middleware.sendReady_slot, hbefore.cycle]
    simp only [Middleware.passedToSend, henters, Bool.true_and, and_self, and_true]
    by_cases hready : (t.middleware.beforeSend t.middleware.status requests).readyToSend
        t.middleware.status = true
    · simp only [if_pos hready]
    · simp only [if_neg hready, Middleware.beforeSend_commandBuf,
        Middleware.crossPhase_of_same _ _ _ hseen]
      rfl

theorem Inv.poll (h : t.Inv) {requests : List CompensationRequest}
    (hok : t.KeepsSent (.poll requests)) :
    (t.step (.poll requests)).Inv := by
  intro effectTime hlast
  cases hpass : t.middleware.passedToSend t.middleware.status requests with
  | some obj =>
      obtain ⟨henters, hseen, -, -, hobj, happ, -⟩ :=
        Middleware.passedToSend_cases _ _ _ hpass
      obtain ⟨hprior, hslot⟩ := poll_slot requests hseen henters
      rw [hpass] at hslot
      have hrefused := Middleware.beforeSend_sendRefused t.middleware t.middleware.status
        requests hseen obj
      refine ⟨hprior, by rw [hslot]; exact happ, ?_⟩
      rw [hslot]
      change obj.effectTime = effectTime
      cases hrefuse : t.middleware.sendRefused obj with
      | false =>
          simpa [step, Middleware.sentToController, hpass, hrefused, hrefuse] using hlast
      | true =>
          have hkept : t.lastSent = some effectTime := by
            simpa [step, Middleware.sentToController, hpass, hrefused, hrefuse] using hlast
          have hready := Middleware.readyToSend_of_passed _ _ _ hpass
          have hsame : t.slot.effectTime = t.slot.adjustedTime :=
            hok (by rw [hkept]; simp) hready (by rw [← hrefuse, hobj]; rfl)
          rw [hobj]
          exact hsame.trans (h effectTime hkept).adjusted
  | none =>
      have hkept : t.lastSent = some effectTime := by
        simpa [step, Middleware.sentToController, hpass] using hlast
      have hsettled := h effectTime hkept
      cases henters : t.middleware.entersBody t.middleware.status with
      | true =>
          obtain ⟨hprior, hslot⟩ := poll_slot requests hsettled.seen henters
          rw [hpass] at hslot
          exact ⟨hprior, hslot ▸ hsettled.occupied, hslot ▸ hsettled.adjusted⟩
      | false =>
          -- the phase seen is the running one, so only a report of phase 0 skips the body
          have hzero : t.middleware.status.subPhaseId = 0 := by
            have hseen := hsettled.seen
            simp only [Middleware.entersBody, hseen, Bool.and_self, decide_eq_false_iff_not,
              not_not] at henters
            exact henters
          have hsame : t.middleware.commandBufPolling requests = t.middleware := by
            simp only [Middleware.commandBufPolling, Middleware.commandBufPollingFrom, hzero,
              if_true]
          have hslot : (t.step (.poll requests)).slot = t.slot := by
            simp only [slot, step, hsame]
          refine ⟨?_, hslot ▸ hsettled.occupied, hslot ▸ hsettled.adjusted⟩
          simp only [step, hsame]
          exact hsettled.seen

end Poll

theorem Inv.step {t : Adjusted} (h : t.Inv) {event : PhaseEvent} (hok : t.KeepsSent event) :
    (t.step event).Inv := by
  cases event with
  | insert command => exact fun effectTime hlast => (h effectTime hlast).insert command
  | deleteObu hostObuName =>
      intro effectTime hlast
      have hkept : t.lastSent = some effectTime := hlast
      exact (h effectTime hkept).deleteObu (hok (by rw [hkept]; simp))
  | resumeControl app => exact fun effectTime hlast => (h effectTime hlast).resumeControl app
  | poll requests => exact h.poll hok
  | packet5FCC packet =>
      intro effectTime hlast
      by_cases hstays : (t.middleware.packet5FCC packet).status.subPhaseId =
          t.middleware.status.subPhaseId
      · simp only [Adjusted.step, hstays, if_true] at hlast
        exact (h effectTime hlast).packet5FCC hstays
      · simp only [Adjusted.step, hstays, if_false] at hlast
        exact absurd hlast (by simp)

/-- In every run in which no delete names the host of a command already sent and
no later command of the phase is held back, the adjusted time of the running
phase is the effect time last sent. -/
theorem adjusted_time_tracks_last_sent (s : Middleware) (events : List PhaseEvent)
    (hevents : Guarded step KeepsSent ⟨s, none⟩ events) :
    (run step ⟨s, none⟩ events).Tracks := by
  have hinv := hevents.invariant Inv (fun effectTime hlast => absurd hlast (by simp))
    fun _ _ hs hevent => hs.step hevent
  exact fun effectTime hlast => (hinv effectTime hlast).adjusted

theorem adjusted_time_tracks_last_sent_renewed :
    let s := Middleware.boot Config.initial (TrafficSignalStatus.initial fun _ =>
      { StaticPlan.unset with maxGreen := 60 })
    let command := fun effectTime : Int16 =>
      (⟨evspId, 1, 1, 0, 1, effectTime, ⟨['A', 'M', 'B'], by decide⟩⟩ : TscCommand)
    let events := [.packet5FCC (.phaseReport 1 1 30), .poll [], .insert (command 20), .poll [],
      .insert (command 25)]
    (run step ⟨s, none⟩ events).lastSent = some 20 ∧ (run step ⟨s, none⟩ events).Tracks := by
  intro s command events
  refine ⟨by decide +kernel, adjusted_time_tracks_last_sent s events ⟨trivial, ?_, trivial, ?_,
    trivial, trivial⟩⟩
  · exact fun hsent => absurd rfl hsent
  · exact fun hsent => absurd rfl hsent

/-- The host of a command that runs on the controller is deleted, as at the end
of every activation: the slot forgets the 20 seconds it runs. -/
theorem delete_forgets_adjusted_time :
    let s := Middleware.boot Config.initial (TrafficSignalStatus.initial fun _ =>
      { StaticPlan.unset with maxGreen := 60 })
    let hostObuName : HostName := ⟨['A', 'M', 'B'], by decide⟩
    let events := [.packet5FCC (.phaseReport 1 1 30), .poll [],
      .insert ⟨evspId, 1, 1, 0, 1, 20, hostObuName⟩, .poll [], .deleteObu hostObuName]
    let reached := run step ⟨s, none⟩ events
    reached.lastSent = some 20 ∧ reached.slot.adjustedTime = 0 ∧ ¬ reached.Tracks := by
  intro s hostObuName events reached
  have hlast : reached.lastSent = some 20 := by decide +kernel
  have hforgot : reached.slot.adjustedTime = 0 := by decide +kernel
  refine ⟨hlast, hforgot, fun htracks => ?_⟩
  exact absurd (hforgot.symm.trans (htracks 20 hlast)) (by decide)

end Adjusted

end AdaptiveSignal.Signal
