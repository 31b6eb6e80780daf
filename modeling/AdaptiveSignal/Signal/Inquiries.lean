import AdaptiveSignal.CommandBuffer.Polling
import AdaptiveSignal.Signal.InterpretedInfo

/-! # What the timer asks the controller

Every half second the timer handler polls the command buffer and asks the
controller: for the phase on every second tick, for the plan on every tenth. Three
questions are repeated until they are answered: the clock, which is asked for anew
half an hour later, the segments of the day, and the table of the phase order,
which is asked for anew when the order changes.
-/

namespace AdaptiveSignal.Signal

open Foundation

/-- The packets that ask, with what they carry. -/
inductive Inquiry
  | tsc5F4C
  | tsc5F48
  | tsc5F45 (planId : UInt8)
  | tsc5F44 (planId : UInt8)
  | tsc0F42
  | tsc5F46 (weekDay : UInt8)
  | tsc5F43 (phaseOrder : UInt8)
  deriving DecidableEq

/-- The terminal with the counts of its timer handler; those of 5F43 and 5F46 are
with the middleware. -/
structure Inquirer where
  terminal : Terminal
  count0F42 : ℕ
  count5fcc : ℕ
  count5fxx : ℕ

/-- What happens at a tick: the day of the week, and what a compensation would insert. -/
structure Tick where
  weekDay : UInt8
  requests : List CompensationRequest

namespace Inquirer

def boot (config : Config) (status : TrafficSignalStatus) (report : ControllerReport) :
    Inquirer where
  terminal := ⟨Middleware.boot config status, report⟩
  count0F42 := 0
  count5fcc := 0
  count5fxx := 0

variable (s : Inquirer)

/-- The questions about phase and plan, before the command buffer is polled. -/
def askPlan : Inquirer × List Inquiry :=
  let planId := s.terminal.middleware.status.planId
  let phase := if 0 < s.count5fcc then [Inquiry.tsc5F4C] else []
  let plan :=
    if 8 < s.count5fxx then [Inquiry.tsc5F48, .tsc5F45 planId, .tsc5F44 planId] else []
  ({ s with
      count5fcc := if 0 < s.count5fcc then 0 else s.count5fcc + 1
      count5fxx := if 8 < s.count5fxx then 0 else s.count5fxx + 1 },
    phase ++ plan)

/-- The questions that are repeated, after it. -/
def askGuaranteed (weekDay : UInt8) : Inquirer × List Inquiry :=
  let middleware := s.terminal.middleware
  let clock := if s.count0F42 = 0 then [Inquiry.tsc0F42] else []
  let segments := if middleware.count5F46 = 0 then [Inquiry.tsc5F46 weekDay] else []
  let order :=
    if middleware.count5F43 = 0 then [Inquiry.tsc5F43 middleware.status.phaseOrder] else []
  ({ s with count0F42 := if s.count0F42 = 0 then 0 else (s.count0F42 + 1) % 3600 },
    clock ++ segments ++ order)

def commandBufPolling (requests : List CompensationRequest) : Inquirer :=
  { s with terminal := { s.terminal with
      middleware := s.terminal.middleware.commandBufPolling requests } }

/-- A controller that counts down more than 255 seconds has been switched on. -/
def switchToNextStep : Inquirer :=
  { s with terminal := { s.terminal with
      middleware := { s.terminal.middleware with flagSwitch2nextStep := false } } }

/-- `timer_event_handler`, at a tick of the polling timer. -/
def timerEventHandler (tick : Tick) : Inquirer × List Inquiry :=
  let (s, asked) := s.askPlan
  let (s, guaranteed) :=
    (s.commandBufPolling tick.requests).switchToNextStep.askGuaranteed tick.weekDay
  (s, asked ++ guaranteed)

/-- A packet of the controller comes in; a first clock answers 0F42. -/
def receive (packet : TrafficSignalPacket × LocalTime) : Inquirer :=
  { s with
    terminal := s.terminal.dispatch packet
    count0F42 := if packet.1.handler = .clock ∧ s.count0F42 = 0 then 1 else s.count0F42 }

end Inquirer

/-! ## What polling the command buffer leaves alone -/

/-- What the controller reported that questions depend on, and what is still to be asked. -/
structure Reports where
  planId : UInt8
  phaseOrder : UInt8
  subPhaseCount : UInt8
  signalCount : UInt8
  phaseorderPlan : ℕ → ℕ → UInt8
  count5F43 : ℕ
  count5F46 : ℕ

namespace Middleware

def reports (s : Middleware) : Reports where
  planId := s.status.planId
  phaseOrder := s.status.phaseOrder
  subPhaseCount := s.status.subPhaseCount
  signalCount := s.status.signalCount
  phaseorderPlan := s.status.phaseorderPlan
  count5F43 := s.count5F43
  count5F46 := s.count5F46

section Reports

variable (s : Middleware) (snapshot : TrafficSignalStatus) (requests : List CompensationRequest)

theorem insert_reports (command : TscCommand) :
    (s.commandBufInsertEffectTime command).2.reports = s.reports := by
  by_cases haccept : (s.commandBufInsertEffectTime command).1 = .insertAccept
  · rw [(insert_accepted haccept).2.2]
    rfl
  · rw [insert_refused haccept]

theorem startCompensation_reports : (s.startCompensation requests).reports = s.reports := by
  unfold startCompensation
  split_ifs
  · exact run_invariant_of_mem
      (fun (s : Middleware) (request : CompensationRequest) =>
        (s.commandBufInsertEffectTime request.command).2)
      (fun s' => s'.reports = s.reports) requests rfl
      fun s' request _ hs' => (insert_reports s' request.command).trans hs'
  · rfl

theorem crossPhase_reports : (s.crossPhase snapshot requests).reports = s.reports := by
  unfold crossPhase compensated
  split_ifs
  · exact startCompensation_reports s requests
  · rfl
  · rfl

theorem pretimeStep_reports : (s.pretimeStep snapshot).reports = s.reports := by
  unfold pretimeStep
  split_ifs <;> rfl

theorem sendReady_reports : (s.sendReady snapshot).reports = s.reports := by
  simp only [sendReady, commandBufSend, countdownOff, setCompensationBuffer, countdownOn]
  split_ifs <;> rfl

theorem commandBufPolling_reports : (s.commandBufPolling requests).reports = s.reports := by
  unfold commandBufPolling commandBufPollingFrom
  split_ifs
  · rfl
  · rfl
  · calc (((s.beforeSend s.status requests).sendReady s.status).recordPrior s.status).reports
        = ((s.crossPhase s.status requests).pretimeStep s.status).reports :=
          sendReady_reports _ s.status
      _ = (s.crossPhase s.status requests).reports := pretimeStep_reports _ s.status
      _ = s.reports := crossPhase_reports s s.status requests

end Reports

/-! ## What a packet changes of it -/

section Dispatch

variable (s : Middleware) (packet : TrafficSignalPacket)

theorem updatePhaseOrder_count5F43 (phaseOrder : UInt8) :
    (s.updatePhaseOrder phaseOrder).count5F43 ≠ 0 ↔
      s.count5F43 ≠ 0 ∧ phaseOrder = s.status.phaseOrder := by
  rcases updatePhaseOrder_cases s phaseOrder with ⟨heq, hsame⟩ | ⟨heq, hchanged⟩
  · rw [heq]
    exact (and_iff_left hsame.symm).symm
  · rw [heq]
    exact iff_of_false (fun h => h rfl) fun h => hchanged h.2.symm

/-- The table is answered by a packet about the running phase order, and open again when
the order changes. -/
theorem dispatch_count5F43 :
    (s.dispatch packet).count5F43 ≠ 0 ↔
      (packet.kind = .phaseOrder ∧ packet.info 2 = s.status.phaseOrder) ∨
        s.count5F43 ≠ 0 ∧ ¬ (s.dispatch packet).status.phaseOrder ≠ s.status.phaseOrder := by
  unfold dispatch
  cases hkind : packet.kind with
  | runningPlan =>
      simp only [packet5FC8, updatePhaseOrder_status, updatePreTimeCompensated, updateGreens,
        updatePhaseOrder_count5F43, reduceCtorEq, false_and, false_or, not_not]
  | storedPlan =>
      simp only [packet5FC5, updatePhaseOrder_status, updateGreens, updatePhaseOrder_count5F43,
        reduceCtorEq, false_and, false_or, not_not]
  | phaseOrder =>
      dsimp only [packet5FC3]
      split_ifs with horder
      · exact iff_of_true Nat.one_ne_zero (.inl ⟨rfl, horder⟩)
      · simp [horder]
  | version =>
      unfold packet0FC3
      split_ifs <;> simp
  | phaseReport =>
      simp only [packet5FCC, updateSubPhase, updateCycleIndex]
      split_ifs <;> simp
  | planParameters | daySegments | confirmation | other => simp [packet5FC4, packet5FC6,
      packet5F0C, updatePlanParameters]

theorem dispatch_count5F46 :
    (s.dispatch packet).count5F46 ≠ 0 ↔ packet.kind = .daySegments ∨ s.count5F46 ≠ 0 := by
  unfold dispatch
  cases hkind : packet.kind with
  | runningPlan =>
      rcases updatePhaseOrder_cases { s with status := { s.status with planId := packet.info 2 } }
        (packet.info 4) with ⟨heq, -⟩ | ⟨heq, -⟩ <;> simp [packet5FC8, heq, commandBufClear]
  | storedPlan =>
      rcases updatePhaseOrder_cases s (packet.info 4) with ⟨heq, -⟩ | ⟨heq, -⟩ <;>
        simp [packet5FC5, heq, commandBufClear]
  | version =>
      unfold packet0FC3
      split_ifs <;> simp
  | phaseReport =>
      simp only [packet5FCC, updateSubPhase, updateCycleIndex]
      split_ifs <;> simp
  | daySegments =>
      dsimp only [packet5FC6]
      split_ifs with hfirst <;> simp [hfirst]
  | planParameters | phaseOrder | confirmation | other => simp [packet5FC4, packet5FC3, packet5F0C]

/-- Only the table itself changes the table. -/
theorem dispatch_table (hkind : packet.kind ≠ .phaseOrder) :
    (s.dispatch packet).status.signalCount = s.status.signalCount ∧
      (s.dispatch packet).status.phaseorderPlan = s.status.phaseorderPlan := by
  unfold dispatch
  cases hcase : packet.kind with
  | phaseOrder => exact absurd hcase hkind
  | runningPlan =>
      rw [packet5FC8_status]
      exact ⟨rfl, rfl⟩
  | storedPlan =>
      rw [packet5FC5_status]
      exact ⟨rfl, rfl⟩
  | version =>
      unfold packet0FC3
      split_ifs <;> exact ⟨rfl, rfl⟩
  | phaseReport =>
      simp only [packet5FCC, updateSubPhase, updateCycleIndex]
      split_ifs <;> exact ⟨rfl, rfl⟩
  | planParameters | daySegments | confirmation | other => exact ⟨rfl, rfl⟩

end Dispatch

end Middleware

/-- The clock and the health of the controller leave the middleware. -/
theorem Terminal.dispatch_middleware (t : Terminal) (packet : TrafficSignalPacket × LocalTime) :
    (t.dispatch packet).middleware = t.middleware.dispatch packet.1 := by
  unfold Terminal.dispatch
  cases hhandler : packet.1.handler with
  | status kind => rfl
  | clock | health =>
      have hkind : packet.1.kind = .other := by
        unfold TrafficSignalPacket.handler at hhandler
        unfold TrafficSignalPacket.kind
        split_ifs at hhandler with hclock hhealth
        simp [*]
      dsimp only
      rw [Middleware.dispatch, hkind]

/-! ## Every tick of every run -/

inductive InquirerEvent
  | tick (tick : Tick)
  | packet (packet : TrafficSignalPacket × LocalTime)

def InquirerEvent.isTick : InquirerEvent → Bool
  | .tick _ => true
  | .packet _ => false

/-- The ticks among some events. -/
def ticks (events : List InquirerEvent) : ℕ := events.countP InquirerEvent.isTick

namespace Inquirer

def step (s : Inquirer) : InquirerEvent → Inquirer
  | .tick tick => (s.timerEventHandler tick).1
  | .packet packet => s.receive packet

/-- A tick asks the controller and leaves what it reported. -/
theorem timerEventHandler_reports (s : Inquirer) (tick : Tick) :
    (s.timerEventHandler tick).1.terminal.middleware.reports = s.terminal.middleware.reports :=
  Middleware.commandBufPolling_reports s.terminal.middleware tick.requests

/-- When a tick asks what. -/
def Asks (s : Inquirer) (tick : Tick) : Inquiry → Prop
  | .tsc5F4C => 0 < s.count5fcc
  | .tsc5F48 => 8 < s.count5fxx
  | .tsc5F45 planId => 8 < s.count5fxx ∧ planId = s.terminal.middleware.status.planId
  | .tsc5F44 planId => 8 < s.count5fxx ∧ planId = s.terminal.middleware.status.planId
  | .tsc0F42 => s.count0F42 = 0
  | .tsc5F46 weekDay => s.terminal.middleware.count5F46 = 0 ∧ weekDay = tick.weekDay
  | .tsc5F43 phaseOrder =>
      s.terminal.middleware.count5F43 = 0 ∧
        phaseOrder = s.terminal.middleware.status.phaseOrder

theorem mem_timerEventHandler {s : Inquirer} {tick : Tick} {inquiry : Inquiry} :
    inquiry ∈ (s.timerEventHandler tick).2 ↔ s.Asks tick inquiry := by
  have hreports := Middleware.commandBufPolling_reports s.terminal.middleware tick.requests
  have hsegments := congrArg Reports.count5F46 hreports
  have htable := congrArg Reports.count5F43 hreports
  have horder := congrArg Reports.phaseOrder hreports
  simp only [Middleware.reports] at hsegments htable horder
  simp only [timerEventHandler, askPlan, commandBufPolling, switchToNextStep, askGuaranteed,
    hsegments, htable, horder, List.mem_append, List.mem_ite_nil_right]
  cases inquiry <;> simp [Asks]

/-! ### The counts over a run -/

theorem run_counts (config : Config) (status : TrafficSignalStatus) (report : ControllerReport)
    (events : List InquirerEvent) :
    (run step (boot config status report) events).count5fcc = ticks events % 2 ∧
      (run step (boot config status report) events).count5fxx = ticks events % 10 := by
  induction events using List.reverseRecOn with
  | nil => exact ⟨rfl, rfl⟩
  | append_singleton events event ih =>
      obtain ⟨hphase, hplan⟩ := ih
      rw [run_concat, ticks, List.countP_append, ← ticks]
      generalize run step (boot config status report) events = s at hphase hplan
      cases event with
      | packet packet => exact ⟨hphase, hplan⟩
      | tick tick =>
          constructor
          · change (if 0 < s.count5fcc then 0 else s.count5fcc + 1) = (ticks events + 1) % 2
            split_ifs <;> omega
          · change (if 8 < s.count5fxx then 0 else s.count5fxx + 1) = (ticks events + 1) % 10
            split_ifs <;> omega

/-- A clock came when it was asked for, and some ticks have gone by since. -/
def ClockSince (start : Inquirer) (events : List InquirerEvent) (n : ℕ) : Prop :=
  ∃ before packet after, events = before ++ .packet packet :: after ∧
    packet.1.handler = .clock ∧ (run step start before).count0F42 = 0 ∧ ticks after = n

theorem clockSince_concat {start : Inquirer} {events : List InquirerEvent}
    {event : InquirerEvent} {n : ℕ} :
    ClockSince start (events ++ [event]) n ↔
      (n = 0 ∧ (run step start events).count0F42 = 0 ∧
          ∃ packet, event = .packet packet ∧ packet.1.handler = .clock) ∨
        ∃ m, ClockSince start events m ∧ n = m + event.isTick.toNat := by
  have hticks : ∀ after : List InquirerEvent, ticks (after ++ [event]) =
      ticks after + event.isTick.toNat := fun after => by
    rw [ticks, List.countP_append, ← ticks]
    cases event <;> rfl
  constructor
  · rintro ⟨before, packet, after, heq, hclock, hdue, rfl⟩
    induction after using List.reverseRecOn with
    | nil =>
        obtain ⟨rfl, hlast⟩ := List.append_inj' heq rfl
        exact .inl ⟨rfl, hdue, packet, List.singleton_inj.mp hlast, hclock⟩
    | append_singleton after last =>
        rw [← List.cons_append, ← List.append_assoc] at heq
        obtain ⟨rfl, hlast⟩ := List.append_inj' heq rfl
        obtain rfl := List.singleton_inj.mp hlast
        exact .inr ⟨_, ⟨before, packet, after, rfl, hclock, hdue, rfl⟩, hticks after⟩
  · rintro (⟨rfl, hdue, packet, rfl, hclock⟩ | ⟨m, ⟨before, packet, after, rfl, hclock, hdue,
      rfl⟩, rfl⟩)
    · exact ⟨events, packet, [], rfl, hclock, hdue, rfl⟩
    · exact ⟨before, packet, after ++ [event], by simp, hclock, hdue, hticks after⟩

/-- The count of the clock counts the ticks since it came. -/
theorem run_count0F42 (start : Inquirer) (hstart : start.count0F42 = 0)
    (events : List InquirerEvent) {n : ℕ} :
    (run step start events).count0F42 = n + 1 ↔ ClockSince start events n ∧ n < 3599 := by
  induction events using List.reverseRecOn generalizing n with
  | nil =>
      refine iff_of_false (by rw [run_nil, hstart]; omega) ?_
      rintro ⟨⟨before, packet, after, heq, -⟩, -⟩
      simp at heq
  | append_singleton events event ih =>
      rw [run_concat, clockSince_concat]
      generalize hs : run step start events = s at ih
      cases event with
      | packet packet =>
          change (if packet.1.handler = .clock ∧ s.count0F42 = 0 then 1 else s.count0F42) =
            n + 1 ↔ _
          constructor
          · intro hcount
            split_ifs at hcount with hanswer
            · exact ⟨.inl ⟨by omega, hanswer.2, packet, rfl, hanswer.1⟩, by omega⟩
            · exact ⟨.inr ⟨n, (ih.mp hcount).1, rfl⟩, (ih.mp hcount).2⟩
          · rintro ⟨⟨rfl, hdue, _, heq, hclock⟩ | ⟨m, hsince, rfl⟩, hn⟩
            · cases heq
              rw [if_pos ⟨hclock, hdue⟩]
            · have hcount : s.count0F42 = n + 1 := ih.mpr ⟨hsince, hn⟩
              rw [if_neg (by omega)]
              exact hcount
      | tick tick =>
          change (if s.count0F42 = 0 then 0 else (s.count0F42 + 1) % 3600) = n + 1 ↔ _
          constructor
          · intro hcount
            obtain ⟨m, hm⟩ : ∃ m, s.count0F42 = m + 1 :=
              Nat.exists_eq_succ_of_ne_zero fun h => by rw [if_pos h] at hcount; omega
            obtain ⟨hsince, hbound⟩ := ih.mp hm
            rw [if_neg (by omega), hm] at hcount
            have hn : n = m + 1 := by omega
            exact ⟨.inr ⟨m, hsince, hn⟩, by omega⟩
          · rintro ⟨⟨-, -, _, heq, -⟩ | ⟨m, hsince, hm⟩, hn⟩
            · cases heq
            · replace hm : n = m + 1 := hm
              have hcount : s.count0F42 = m + 1 := ih.mpr ⟨hsince, by omega⟩
              rw [if_neg (by omega), hcount]
              omega

/-- A day segment packet stops its question for good. -/
theorem run_count5F46 (start : Inquirer) (hstart : start.terminal.middleware.count5F46 = 0)
    (events : List InquirerEvent) :
    (run step start events).terminal.middleware.count5F46 ≠ 0 ↔
      ∃ packet, .packet packet ∈ events ∧ packet.1.kind = .daySegments := by
  refine (run_iff_or_exists step (p := fun s => s.terminal.middleware.count5F46 ≠ 0)
    (q := fun event => ∃ packet, event = .packet packet ∧ packet.1.kind = .daySegments)
    (fun s event _ => ?_) start).trans ?_
  · cases event with
    | tick tick =>
        have hcount := congrArg Reports.count5F46 (s.timerEventHandler_reports tick)
        change (s.timerEventHandler tick).1.terminal.middleware.count5F46 =
          s.terminal.middleware.count5F46 at hcount
        change (s.timerEventHandler tick).1.terminal.middleware.count5F46 ≠ 0 ↔ _
        rw [hcount]
        exact (or_iff_left fun ⟨_, heq, _⟩ => by cases heq).symm
    | packet packet =>
        change (s.terminal.dispatch packet).middleware.count5F46 ≠ 0 ↔ _
        rw [Terminal.dispatch_middleware, Middleware.dispatch_count5F46, or_comm]
        simp
  · simp [hstart]

/-! ### The table of the phase order -/

/-- The table of the running phase order comes in. -/
def AnswersTable (s : Inquirer) : InquirerEvent → Prop
  | .tick _ => False
  | .packet packet =>
      packet.1.kind = .phaseOrder ∧ packet.1.info 2 = s.terminal.middleware.status.phaseOrder

/-- Another phase order comes in. -/
def ChangesOrder (s : Inquirer) (event : InquirerEvent) : Prop :=
  (s.step event).terminal.middleware.status.phaseOrder ≠ s.terminal.middleware.status.phaseOrder

theorem run_count5F43 (start : Inquirer) (hstart : start.terminal.middleware.count5F43 = 0)
    (events : List InquirerEvent) :
    (run step start events).terminal.middleware.count5F43 ≠ 0 ↔
      Since step AnswersTable ChangesOrder start events := by
  refine run_since_iff (p := fun s : Inquirer => s.terminal.middleware.count5F43 ≠ 0)
    (fun s event => ?_) (not_not.mpr hstart) events
  cases event with
  | tick tick =>
      have hreports := s.timerEventHandler_reports tick
      have hcount := congrArg Reports.count5F43 hreports
      have horder := congrArg Reports.phaseOrder hreports
      change (s.step (.tick tick)).terminal.middleware.count5F43 = s.terminal.middleware.count5F43
        at hcount
      rw [hcount, AnswersTable, false_or]
      exact (and_iff_left (not_not.mpr horder)).symm
  | packet packet =>
      unfold AnswersTable ChangesOrder
      change (s.terminal.dispatch packet).middleware.count5F43 ≠ 0 ↔
        _ ∨ _ ∧ ¬ (s.terminal.dispatch packet).middleware.status.phaseOrder ≠ _
      rw [Terminal.dispatch_middleware]
      exact Middleware.dispatch_count5F43 _ _

/-- When a tick after some events asks what: the phase and the plan by the number of ticks,
the clock unless it came in the last half hour, the segments of the day unless they ever
came, and the table unless it came since the phase order last changed. -/
def DueAfter (start : Inquirer) (events : List InquirerEvent) (tick : Tick) : Inquiry → Prop
  | .tsc5F4C => ticks events % 2 = 1
  | .tsc5F48 => ticks events % 10 = 9
  | .tsc5F45 planId =>
      ticks events % 10 = 9 ∧ planId = (run step start events).terminal.middleware.status.planId
  | .tsc5F44 planId =>
      ticks events % 10 = 9 ∧ planId = (run step start events).terminal.middleware.status.planId
  | .tsc0F42 => ∀ n < 3599, ¬ ClockSince start events n
  | .tsc5F46 weekDay =>
      weekDay = tick.weekDay ∧
        ∀ packet, .packet packet ∈ events → packet.1.kind ≠ .daySegments
  | .tsc5F43 phaseOrder =>
      phaseOrder = (run step start events).terminal.middleware.status.phaseOrder ∧
        ¬ Since step AnswersTable ChangesOrder start events

end Inquirer

end AdaptiveSignal.Signal
