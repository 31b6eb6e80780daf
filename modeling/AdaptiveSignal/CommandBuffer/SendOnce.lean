import AdaptiveSignal.CommandBuffer.Events
import AdaptiveSignal.Foundation.Grant

/-! # One send for one acceptance

The polling hands a command to `command_buf_send` once: the object is marked,
and only an accepted insert into its slot takes the mark away. It does so in
step 1 of the phase the slot belongs to, after a poll that saw the same phase.
-/

namespace AdaptiveSignal.Signal

open Foundation

namespace Middleware

/-! ## Acceptances and sends -/

def accepts (slot : Slot) (s : Middleware) (command : TscCommand) : Bool :=
  (s.commandBufInsertEffectTime command).1 = .insertAccept &&
    (s.slotCycle command, command.phase) = slot

/-- The poll runs the compensation: it crosses a phase that was resumed. -/
def compensates (s : Middleware) : Bool :=
  s.entersBody s.status && s.priorSubPhaseId ≠ s.status.subPhaseId && s.leftResumed &&
    1 ≤ s.config.trafficCompensationMethod && s.config.trafficCompensationMethod ≤ 3

/-- The event has a command accepted into the slot, be it one of the compensation. -/
def acceptsEvent (slot : Slot) (s : Middleware) : BufferEvent → Bool
  | .insert command => s.accepts slot command
  | .resume (some false) => s.accepts slot s.resumeCommand
  | .poll requests =>
      s.compensates &&
        0 < tally inserted (accepts slot) s (requests.map CompensationRequest.command)
  | _ => false

/-- The event calls `command_buf_send` for the slot. -/
def sendsEvent (slot : Slot) (s : Middleware) : BufferEvent → Bool
  | .poll requests =>
      (s.passedToSend s.status requests).isSome && (s.cycleIndex, s.status.subPhaseId) = slot
  | _ => false

/-- There is nothing to send: the object is empty or was sent. -/
def Sent (obj : TscCommandObject) : Prop :=
  obj.appId = 0 ∨ obj.sendFlag = true

theorem sent_invariant : ObjectInvariant Sent where
  cleared := Or.inl rfl
  adjusted _ _ hobj := hobj
  sent _ _ := Or.inr rfl

section Sent

variable {slot : Slot} {s : Middleware}

/-- An insert that is not accepted into a slot leaves it as it is. -/
theorem inserted_slotAt {command : TscCommand} (hnot : s.accepts slot command = false) :
    (s.inserted command).slotAt slot = s.slotAt slot := by
  unfold inserted slotAt
  by_cases haccept : (s.commandBufInsertEffectTime command).1 = .insertAccept
  · rw [(insert_accepted haccept).2.2]
    apply setSlot_of_ne
    rintro ⟨hcycle, hphase⟩
    simp only [accepts, haccept, decide_true, Bool.true_and, decide_eq_false_iff_not] at hnot
    exact hnot (Prod.ext hcycle.symm hphase.symm)
  · rw [insert_refused haccept]

theorem inserted_run_slotAt {commands : List TscCommand}
    (hnone : tally inserted (accepts slot) s commands = 0) :
    (run inserted s commands).slotAt slot = s.slotAt slot := by
  induction commands generalizing s with
  | nil => rfl
  | cons command rest ih =>
      obtain ⟨hhead, hrest⟩ := Nat.add_eq_zero_iff.mp hnone
      rw [run_cons, ih hrest]
      exact inserted_slotAt (by simpa using hhead)

/-- A crossing poll that has no command accepted into a slot compensates elsewhere. -/
theorem compensated_slotAt {requests : List CompensationRequest}
    (henters : s.entersBody s.status = true) (hcross : s.priorSubPhaseId ≠ s.status.subPhaseId)
    (hnot : s.acceptsEvent slot (.poll requests) = false) :
    (s.compensated requests).slotAt slot = s.slotAt slot := by
  unfold compensated
  split_ifs with hresumed
  · unfold slotAt
    by_cases hmethod : 1 ≤ s.config.trafficCompensationMethod ∧
        s.config.trafficCompensationMethod ≤ 3
    · have hruns : s.compensates = true := by
        simp [compensates, henters, hcross, hresumed, hmethod.1, hmethod.2]
      have hnone : tally inserted (accepts slot) s
          (requests.map CompensationRequest.command) = 0 := by
        simpa [acceptsEvent, hruns] using hnot
      rw [startCompensation_commandBuf requests hmethod]
      exact inserted_run_slotAt hnone
    · -- an unknown method inserts nothing
      rw [startCompensation_idle requests hmethod]
  · rfl

/-- A poll that sends marks what it sent. -/
theorem sent_of_passed {requests : List CompensationRequest} {obj : TscCommandObject}
    (hpass : s.passedToSend s.status requests = some obj) :
    Sent ((s.commandBufPolling requests).slotAt (s.cycleIndex, s.status.subPhaseId)) := by
  have henters := (passedToSend_cases s s.status requests hpass).1
  have hready : (s.beforeSend s.status requests).readyToSend s.status = true := by
    simp only [passedToSend, Option.ite_none_right_eq_some, Bool.and_eq_true] at hpass
    exact hpass.1.2
  have hcycle := (beforeSend_samePosition s s.status requests).cycle
  right
  rw [commandBufPolling, commandBufPollingFrom_of_enters s s.status requests henters]
  change (((s.beforeSend s.status requests).sendReady s.status).commandBuf s.cycleIndex
    s.status.subPhaseId).sendFlag = true
  rw [sendReady_slot, if_pos ⟨hready, hcycle.symm, rfl⟩]

end Sent

/-! ## One send for one acceptance -/

theorem sendsEvent_cases {slot : Slot} {s : Middleware} {event : BufferEvent}
    (hsends : s.sendsEvent slot event = true) :
    ∃ requests obj, event = .poll requests ∧ s.passedToSend s.status requests = some obj ∧
      slot = (s.cycleIndex, s.status.subPhaseId) := by
  cases event with
  | poll requests =>
      simp only [sendsEvent, Bool.and_eq_true, decide_eq_true_eq] at hsends
      obtain ⟨hpass, hslot⟩ := hsends
      obtain ⟨obj, hobj⟩ := Option.isSome_iff_exists.mp hpass
      exact ⟨requests, obj, rfl, hobj, hslot.symm⟩
  | insert command => simp [sendsEvent] at hsends
  | deleteObu hostObuName => simp [sendsEvent] at hsends
  | resume app => simp [sendsEvent] at hsends
  | packet packet => simp [sendsEvent] at hsends

/-- A slot is used up by a send and renewed by an acceptance. -/
theorem oncePerAcceptance (slot : Slot) :
    OncePerGrant onEvent (acceptsEvent slot) (sendsEvent slot) (fun s => Sent (s.slotAt slot)) where
  ready s event hsends := by
    obtain ⟨requests, obj, rfl, hpass, rfl⟩ := sendsEvent_cases hsends
    obtain ⟨-, -, -, -, rfl, happ, hflag⟩ := passedToSend_cases s s.status requests hpass
    rintro (hzero | hsent)
    · exact happ hzero
    · exact absurd (hsent.symm.trans hflag) (by simp)
  spends s event hsends := by
    obtain ⟨requests, obj, rfl, hpass, rfl⟩ := sendsEvent_cases hsends
    exact sent_of_passed hpass
  keeps s event hs hnot := by
    cases event with
    | insert command =>
        rw [onEvent, inserted_slotAt hnot]
        exact hs
    | deleteObu hostObuName => exact sent_invariant.deleteObu hs hostObuName
    | resume app =>
        match app with
        | none => exact hs
        | some true => exact hs
        | some false =>
            change Sent ((s.inserted s.resumeCommand).slotAt slot)
            rw [inserted_slotAt hnot]
            exact hs
    | packet packet => exact sent_invariant.dispatch hs packet
    | poll requests =>
        refine sent_invariant.poll hs fun henters hcross => ?_
        rw [compensated_slotAt henters hcross hnot]
        exact hs

/-! ## The phase the previous poll saw -/

def IsPoll (event : BufferEvent) : Prop :=
  ∃ requests, event = .poll requests

/-- A packet that changes the subphase reports one of 1..8. -/
def PhaseInRange (s : Middleware) : BufferEvent → Prop
  | .packet packet =>
      (s.dispatch packet).status.subPhaseId = s.status.subPhaseId ∨
        1 ≤ (s.dispatch packet).status.subPhaseId ∧
          (s.dispatch packet).status.subPhaseId.toNat ≤ subPhaseIdNum
  | _ => True

/-- The last poll of the run found the controller in `phase`. -/
def PreviousPollSaw (s : Middleware) (events : List BufferEvent) (phase : UInt8) : Prop :=
  ∃ earlier requests later, events = earlier ++ .poll requests :: later ∧
    (∀ event ∈ later, ¬ IsPoll event) ∧ (run onEvent s earlier).status.subPhaseId = phase

theorem PreviousPollSaw.concat {s : Middleware} {events : List BufferEvent} {phase : UInt8}
    (h : PreviousPollSaw s events phase) {event : BufferEvent} (hevent : ¬ IsPoll event) :
    PreviousPollSaw s (events ++ [event]) phase := by
  obtain ⟨earlier, requests, later, rfl, hlater, hphase⟩ := h
  refine ⟨earlier, requests, later ++ [event], by simp, fun other hother => ?_, hphase⟩
  rcases List.mem_append.mp hother with hother | hother
  · exact hlater other hother
  · rw [List.mem_singleton.mp hother]
    exact hevent

/-- Only a poll notes the phase. -/
theorem onEvent_prior (s : Middleware) {event : BufferEvent} (hevent : ¬ IsPoll event) :
    (s.onEvent event).priorSubPhaseId = s.priorSubPhaseId ∧
      (s.status.subPhaseId ≠ 0 → s.PhaseInRange event →
        (s.onEvent event).status.subPhaseId ≠ 0) := by
  cases event with
  | insert command =>
      obtain ⟨-, -, hprior, hcurrent⟩ := insert_samePosition s command
      exact ⟨hprior, fun hphase _ => fun hzero => hphase (hcurrent.symm.trans hzero)⟩
  | deleteObu hostObuName => exact ⟨rfl, fun hphase _ => hphase⟩
  | resume app =>
      match app with
      | none => exact ⟨rfl, fun hphase _ => hphase⟩
      | some true => exact ⟨rfl, fun hphase _ => hphase⟩
      | some false =>
          obtain ⟨-, -, hprior, hcurrent⟩ := insert_samePosition s s.resumeCommand
          exact ⟨hprior, fun hphase _ => fun hzero => hphase (hcurrent.symm.trans hzero)⟩
  | packet packet =>
      refine ⟨(dispatch_prior s packet).1, fun hphase hrange => ?_⟩
      rcases hrange with hsame | ⟨hpos, -⟩
      · exact fun hzero => hphase (hsame.symm.trans hzero)
      · intro hzero
        change (s.dispatch packet).status.subPhaseId = 0 at hzero
        rw [hzero] at hpos
        exact absurd hpos (by decide)
  | poll requests => exact absurd ⟨requests, rfl⟩ hevent

/-- The prior subphase is the one the previous poll saw. -/
theorem previousPollSaw_prior (config : Config) (status : TrafficSignalStatus)
    {events : List BufferEvent}
    (hrange : Guarded onEvent PhaseInRange (boot config status) events) :
    let s := run onEvent (boot config status) events
    s.priorSubPhaseId ≠ 0 →
      s.status.subPhaseId ≠ 0 ∧ PreviousPollSaw (boot config status) events s.priorSubPhaseId := by
  induction events using List.reverseRecOn with
  | nil => exact fun hprior => absurd rfl hprior
  | append_singleton events last ih =>
      obtain ⟨hbefore, hlast⟩ := Guarded.concat.mp hrange
      have ih := ih hbefore
      simp only [run_concat]
      generalize hs : run onEvent (boot config status) events = s at ih hlast ⊢
      intro hprior
      by_cases hpoll : IsPoll last
      · obtain ⟨requests, rfl⟩ := hpoll
        have hcurrent : (s.onEvent (.poll requests)).status.subPhaseId = s.status.subPhaseId :=
          (commandBufPollingFrom_position s s.status requests).2
        by_cases hphase : s.status.subPhaseId = 0
        · -- the poll returned early, and so did every poll before it
          have hsame : s.onEvent (.poll requests) = s := by
            simp [onEvent, commandBufPolling, commandBufPollingFrom, hphase]
          rw [hsame] at hprior
          exact absurd hphase (ih hprior).1
        · refine ⟨by rwa [hcurrent], events, requests, [], rfl, by simp, ?_⟩
          rw [hs]
          exact (commandBufPollingFrom_prior s s.status requests hphase).1.symm
      · obtain ⟨hsame, hnonzero⟩ := onEvent_prior s hpoll
        rw [hsame] at hprior ⊢
        obtain ⟨hphase, hsaw⟩ := ih hprior
        exact ⟨hnonzero hphase hlast, hsaw.concat hpoll⟩

/-! ## The sends of a run -/

/-- Over every run whose reports carry a subphase of 1..8: a command is sent in
step 1, with more than a second left, of the phase of its slot, after a poll that
saw the same phase; before the first send for a slot and between any two there is
an acceptance into it; and there are at most as many sends as acceptances. -/
theorem sent_once_per_acceptance (config : Config) (status : TrafficSignalStatus)
    (events : List BufferEvent) (slot : Slot)
    (hrange : Guarded onEvent PhaseInRange (boot config status) events) :
    (∀ before event after, events = before ++ event :: after →
      (run onEvent (boot config status) before).sendsEvent slot event = true →
        let s := run onEvent (boot config status) before
        slot = (s.cycleIndex, s.status.subPhaseId) ∧ s.status.stepId = 1 ∧
          1 < s.status.stepSec ∧ PreviousPollSaw (boot config status) before slot.2) ∧
    (∀ before first middle second after, events = before ++ first :: (middle ++ second :: after) →
      (run onEvent (boot config status) before).sendsEvent slot first = true →
      (run onEvent (boot config status) (before ++ first :: middle)).sendsEvent slot second = true →
        ∃ earlier accepting later, middle = earlier ++ accepting :: later ∧
          (run onEvent (boot config status) (before ++ first :: earlier)).acceptsEvent slot
            accepting = true) ∧
    ∀ first, first <+: events →
      tally onEvent (sendsEvent slot) (boot config status) first ≤
        tally onEvent (acceptsEvent slot) (boot config status) first := by
  refine ⟨?_, ?_, ?_⟩
  · rintro before event after rfl hsends
    obtain ⟨requests, obj, rfl, hpass, hslot⟩ := sendsEvent_cases hsends
    obtain ⟨henters, hsame, hstep, hsec, -, -, -⟩ := passedToSend_cases _ _ requests hpass
    have hprior : (run onEvent (boot config status) before).priorSubPhaseId ≠ 0 := by
      simp only [entersBody, Bool.and_eq_true, decide_eq_true_eq] at henters
      exact henters.2
    have hsaw := (previousPollSaw_prior config status (Guarded.append.mp hrange).1 hprior).2
    refine ⟨hslot, hstep, hsec, ?_⟩
    rw [hslot]
    rw [hsame] at hsaw
    exact hsaw
  · rintro before first middle second after - hfirst hsecond
    exact (oncePerAcceptance slot).grant_between hfirst hsecond
  · intro first _
    exact ((oncePerAcceptance slot).tally_uses_le (boot config status) first).2 (Or.inl rfl)

/-- A bus is granted its request and the next poll sends it. -/
theorem sent_once_per_acceptance_bus :
    let s := boot Config.initial (TrafficSignalStatus.initial fun _ => StaticPlan.unset)
    let events := [.packet ((TrafficSignalPacket.phaseReport 1 1 20).headed 0xCC), .poll [],
      .insert (.busRequest 30), .poll []]
    tally onEvent (sendsEvent (0, 1)) s events = 1 ∧
      ∀ first, first <+: events →
        tally onEvent (sendsEvent (0, 1)) s first ≤
          tally onEvent (acceptsEvent (0, 1)) s first := by
  refine ⟨by decide, (sent_once_per_acceptance _ _ _ (0, 1) ?_).2.2⟩
  exact ⟨Or.inr ⟨by decide, by decide⟩, trivial, trivial, trivial, trivial⟩

end Middleware

end AdaptiveSignal.Signal
