import AdaptiveSignal.Foundation.StaleAnswers
import AdaptiveSignal.Signal.Inquiries
import AdaptiveSignal.Spat.Termination

/-! # The table of the running phase order

The lights of the phases are those of a phase order, and the controller reports its
order and its table in different packets. A tick asks for the table of the order
last reported until an answer about this order comes in, while older questions and
their answers may still be on the line.
-/

namespace AdaptiveSignal.Signal

open Foundation

/-! ## Questions and answers on the line -/

/-- The answers of the controller, a 5FC3 for each phase order. -/
structure ControllerTables where
  packet : UInt8 → TrafficSignalPacket
  kind_eq : ∀ order, (packet order).kind = .phaseOrder
  order_eq : ∀ order, (packet order).info 2 = order

/-- The table that a packet asks for. -/
def Inquiry.table? : Inquiry → Option UInt8
  | .tsc5F43 phaseOrder => some phaseOrder
  | _ => none

/-- The terminal, with the phase orders of the questions and of the answers that are on
the line, the oldest first. -/
structure TableLine where
  inquirer : Inquirer
  asked : List UInt8
  answers : List UInt8
  /-- The phases that were known when the last answer came in. -/
  rows : ℕ

inductive LineEvent
  | tick (tick : Tick)
  /-- A packet other than an answer comes in. -/
  | packet (packet : TrafficSignalPacket × LocalTime)
  /-- The controller answers the oldest question. -/
  | answer
  /-- The oldest answer comes in. -/
  | deliver (now : LocalTime)
  | loseQuestion (i : ℕ)
  | loseAnswer (i : ℕ)

namespace TableLine

def boot (config : Config) (status : TrafficSignalStatus) (report : ControllerReport) :
    TableLine where
  inquirer := .boot config status report
  asked := []
  answers := []
  rows := 0

variable (tables : ControllerTables)

def step (s : TableLine) : LineEvent → TableLine
  | .tick tick =>
      let (inquirer, asked) := s.inquirer.timerEventHandler tick
      { s with inquirer := inquirer, asked := s.asked ++ asked.filterMap Inquiry.table? }
  | .packet packet => { s with inquirer := s.inquirer.receive packet }
  | .answer =>
      match s.asked with
      | [] => s
      | order :: asked => { s with asked := asked, answers := s.answers ++ [order] }
  | .deliver now =>
      match s.answers with
      | [] => s
      | order :: answers =>
          { s with
            inquirer := s.inquirer.receive (tables.packet order, now)
            answers := answers
            rows := s.inquirer.terminal.middleware.status.subPhaseCount.toNat }
  | .loseQuestion i => { s with asked := s.asked.eraseIdx i }
  | .loseAnswer i => { s with answers := s.answers.eraseIdx i }

def middleware (s : TableLine) : Middleware := s.inquirer.terminal.middleware

def status (s : TableLine) : TrafficSignalStatus := s.middleware.status

/-- The answers come in before those of the questions behind them. -/
def line (s : TableLine) : List UInt8 := s.answers ++ s.asked

/-- The status has the table of the running phase order, for the phases known when it came. -/
def HasTable (s : TableLine) : Prop :=
  s.status.signalCount = (tables.packet s.status.phaseOrder).info 4 ∧
    ∀ i < s.rows, ∀ j < s.status.signalCount.toNat, s.status.phaseorderPlan i j =
      (tables.packet s.status.phaseOrder).info (6 + i * s.status.signalCount.toNat + j)

/-! ## Steps -/

end TableLine

theorem Inquirer.filterMap_table (s : Inquirer) (tick : Tick) :
    (s.timerEventHandler tick).2.filterMap Inquiry.table? =
      if s.terminal.middleware.count5F43 = 0 then [s.terminal.middleware.status.phaseOrder]
      else [] := by
  have hreports := Middleware.commandBufPolling_reports s.terminal.middleware tick.requests
  have htable := congrArg Reports.count5F43 hreports
  have horder := congrArg Reports.phaseOrder hreports
  simp only [Middleware.reports] at htable horder
  simp [timerEventHandler, askPlan, commandBufPolling, switchToNextStep, askGuaranteed, htable,
    horder, apply_ite (List.filterMap Inquiry.table?), List.filterMap_cons, Inquiry.table?]

namespace TableLine

section Steps

variable (tables : ControllerTables) (s : TableLine)

theorem tick_step (tick : Tick) :
    (s.step tables (.tick tick)).middleware.reports = s.middleware.reports ∧
      (s.step tables (.tick tick)).rows = s.rows ∧
      (s.step tables (.tick tick)).line = s.line ++
        (if s.middleware.count5F43 = 0 then [s.status.phaseOrder] else []) := by
  refine ⟨s.inquirer.timerEventHandler_reports tick, rfl, ?_⟩
  change s.answers ++
    (s.asked ++ (s.inquirer.timerEventHandler tick).2.filterMap Inquiry.table?) =
      s.answers ++ s.asked ++ _
  rw [List.append_assoc, s.inquirer.filterMap_table]
  rfl

theorem packet_middleware (packet : TrafficSignalPacket × LocalTime) :
    (s.step tables (.packet packet)).middleware = s.middleware.dispatch packet.1 :=
  s.inquirer.terminal.dispatch_middleware packet

/-- What is answered stays on the line. -/
theorem answer_step :
    (s.step tables .answer).inquirer = s.inquirer ∧ (s.step tables .answer).rows = s.rows ∧
      (s.step tables .answer).line = s.line := by
  cases hasked : s.asked with
  | nil => simp [step, hasked]
  | cons order asked => simp [step, hasked, line]

end Steps

variable {tables : ControllerTables} {s : TableLine}

/-- The oldest answer writes its table, for the phases that are known. -/
theorem deliver_step {now : LocalTime} {order : UInt8} {answers : List UInt8}
    (hanswers : s.answers = order :: answers) :
    (s.step tables (.deliver now)).middleware = s.middleware.packet5FC3 (tables.packet order) ∧
      (s.step tables (.deliver now)).rows = s.status.subPhaseCount.toNat ∧
      (s.step tables (.deliver now)).answers = answers ∧
      (s.step tables (.deliver now)).asked = s.asked := by
  have hstep : s.step tables (.deliver now) =
      { s with
        inquirer := s.inquirer.receive (tables.packet order, now)
        answers := answers
        rows := s.inquirer.terminal.middleware.status.subPhaseCount.toNat } := by
    simp only [step, hanswers]
  rw [hstep]
  refine ⟨?_, rfl, rfl, rfl⟩
  refine (s.inquirer.terminal.dispatch_middleware (tables.packet order, now)).trans ?_
  rw [Middleware.dispatch, tables.kind_eq]
  rfl

theorem deliver_nothing {now : LocalTime} (hanswers : s.answers = []) :
    s.step tables (.deliver now) = s := by
  simp only [step, hanswers]

/-! ## Runs -/

/-- A packet that is no answer may change the phase order, but not to one that is still on
the line. -/
def Orderly (s : TableLine) : LineEvent → Prop
  | .packet packet =>
      packet.1.kind ≠ .phaseOrder ∧
        ((s.middleware.dispatch packet.1).status.phaseOrder ≠ s.status.phaseOrder →
          (s.middleware.dispatch packet.1).status.phaseOrder ∉ s.line)
  | _ => True

/-- Behind an answer about the running phase order there are no others, and once one came
in the table is there. -/
structure Settled (tables : ControllerTables) (s : TableLine) : Prop where
  settling : Settling s.status.phaseOrder s.line
  all : s.middleware.count5F43 ≠ 0 → ∀ order ∈ s.line, order = s.status.phaseOrder
  table : s.middleware.count5F43 ≠ 0 → s.HasTable tables

/-- The table looks at the reports and at the phases known when it came. -/
theorem HasTable.congr {s' : TableLine} (h : s.HasTable tables)
    (hreports : s'.middleware.reports = s.middleware.reports) (hrows : s'.rows = s.rows) :
    s'.HasTable tables := by
  have horder : s'.status.phaseOrder = s.status.phaseOrder := congrArg Reports.phaseOrder hreports
  have hcount : s'.status.signalCount = s.status.signalCount :=
    congrArg Reports.signalCount hreports
  have hplan : s'.status.phaseorderPlan = s.status.phaseorderPlan :=
    congrArg Reports.phaseorderPlan hreports
  unfold HasTable
  rw [horder, hcount, hplan, hrows]
  exact h

namespace Settled

theorem boot (config : Config) (status : TrafficSignalStatus) (report : ControllerReport) :
    Settled tables (.boot config status report) where
  settling := List.Pairwise.nil
  all h := absurd rfl h
  table h := absurd rfl h

/-- Fewer questions and answers about the same reports. -/
theorem of_sublist {s' : TableLine} (h : Settled tables s)
    (hreports : s'.middleware.reports = s.middleware.reports) (hrows : s'.rows = s.rows)
    (hsub : s'.line.Sublist s.line) : Settled tables s' := by
  have horder : s'.status.phaseOrder = s.status.phaseOrder := congrArg Reports.phaseOrder hreports
  have hcount : s'.middleware.count5F43 = s.middleware.count5F43 :=
    congrArg Reports.count5F43 hreports
  refine ⟨?_, ?_, ?_⟩
  · rw [horder]
    exact h.settling.sublist hsub
  · rw [hcount, horder]
    exact fun hanswered order hmem => h.all hanswered order (hsub.subset hmem)
  · rw [hcount]
    exact fun hanswered => (h.table hanswered).congr hreports hrows

theorem tick (h : Settled tables s) (tick : Tick) :
    Settled tables (s.step tables (.tick tick)) := by
  obtain ⟨hreports, hrows, hline⟩ := tick_step tables s tick
  have horder : (s.step tables (.tick tick)).status.phaseOrder = s.status.phaseOrder :=
    congrArg Reports.phaseOrder hreports
  have hcount : (s.step tables (.tick tick)).middleware.count5F43 = s.middleware.count5F43 :=
    congrArg Reports.count5F43 hreports
  split_ifs at hline with hzero
  · refine ⟨?_, ?_, ?_⟩
    · rw [horder, hline]
      exact h.settling.request
    · rw [hcount]
      exact fun hanswered => absurd hzero hanswered
    · rw [hcount]
      exact fun hanswered => absurd hzero hanswered
  · rw [List.append_nil] at hline
    exact h.of_sublist hreports hrows (hline ▸ List.Sublist.refl _)

/-- A packet that is no answer leaves the table, unless it changes the phase order. -/
theorem packet (h : Settled tables s) {packet : TrafficSignalPacket × LocalTime}
    (horderly : s.Orderly (.packet packet)) :
    Settled tables (s.step tables (.packet packet)) := by
  obtain ⟨hkind, hfresh⟩ := horderly
  have hmiddleware := packet_middleware tables s packet
  have hstatus : (s.step tables (.packet packet)).status =
      (s.middleware.dispatch packet.1).status := congrArg Middleware.status hmiddleware
  have hcount := Middleware.dispatch_count5F43 s.middleware packet.1
  obtain ⟨hsignals, hplan⟩ := Middleware.dispatch_table s.middleware packet.1 hkind
  have hanswered : (s.step tables (.packet packet)).middleware.count5F43 ≠ 0 →
      s.middleware.count5F43 ≠ 0 ∧
        (s.middleware.dispatch packet.1).status.phaseOrder = s.status.phaseOrder := by
    rw [hmiddleware, hcount, not_not]
    exact Or.rec (fun h => absurd h.1 hkind) id
  refine ⟨?_, fun hnonzero => ?_, fun hnonzero => ?_⟩
  · rw [hstatus]
    by_cases hsame : (s.middleware.dispatch packet.1).status.phaseOrder = s.status.phaseOrder
    · rw [hsame]
      exact h.settling
    · exact .of_fresh (hfresh hsame)
  · obtain ⟨hbefore, hsame⟩ := hanswered hnonzero
    rw [hstatus, hsame]
    exact h.all hbefore
  · obtain ⟨hbefore, hsame⟩ := hanswered hnonzero
    unfold HasTable
    rw [hstatus, hsame, hsignals, hplan]
    exact h.table hbefore

/-- An answer about the running phase order has no others behind it. -/
theorem deliver (h : Settled tables s) (now : LocalTime) :
    Settled tables (s.step tables (.deliver now)) := by
  cases hanswers : s.answers with
  | nil => rwa [deliver_nothing hanswers]
  | cons order answers =>
      obtain ⟨hmiddleware, hrows, hanswers', hasked⟩ := @deliver_step tables s now order answers
        hanswers
      have horder : (s.step tables (.deliver now)).status.phaseOrder = s.status.phaseOrder :=
        congrArg (fun m => m.status.phaseOrder) hmiddleware
      have hline : s.line = order :: (s.step tables (.deliver now)).line := by
        rw [line, line, hanswers, hanswers', hasked, List.cons_append]
      have hsettling := h.settling
      rw [hline] at hsettling
      -- no other answer is accepted, and none is on the line once one was
      have hrunning : (s.step tables (.deliver now)).middleware.count5F43 ≠ 0 →
          order = s.status.phaseOrder := by
        rw [hmiddleware, Middleware.packet5FC3, tables.order_eq]
        dsimp only
        split_ifs with hsame
        · exact fun _ => hsame
        · exact fun hbefore => h.all hbefore order (hline ▸ List.mem_cons_self)
      refine ⟨?_, fun hanswered => ?_, fun hanswered => ?_⟩
      · rw [horder]
        exact hsettling.sublist (List.sublist_cons_self _ _)
      · obtain rfl := hrunning hanswered
        rw [horder]
        exact hsettling.answered
      · obtain rfl := hrunning hanswered
        unfold HasTable
        rw [horder, hrows, status, hmiddleware]
        refine ⟨rfl, fun i hi j hj => if_pos ⟨hi, hj⟩⟩

theorem step (h : Settled tables s) {event : LineEvent} (horderly : s.Orderly event) :
    Settled tables (s.step tables event) := by
  cases event with
  | tick tick => exact h.tick tick
  | packet packet => exact h.packet horderly
  | answer =>
      obtain ⟨hinquirer, hrows, hline⟩ := answer_step tables s
      refine h.of_sublist ?_ hrows (hline ▸ List.Sublist.refl _)
      rw [middleware, hinquirer, middleware]
  | deliver now => exact h.deliver now
  | loseQuestion i =>
      exact h.of_sublist rfl rfl (List.Sublist.append_left (List.eraseIdx_sublist _ _) _)
  | loseAnswer i =>
      exact h.of_sublist rfl rfl (List.Sublist.append_right (List.eraseIdx_sublist _ _) _)

end Settled

/-! ## When all questions are answered -/

/-- The answer is there or on its way. -/
def Coming (s : TableLine) : Prop :=
  s.middleware.count5F43 ≠ 0 ∨ s.status.phaseOrder ∈ s.line

theorem coming_tick (tables : ControllerTables) (s : TableLine) (tick : Tick) :
    (s.step tables (.tick tick)).Coming := by
  obtain ⟨hreports, -, hline⟩ := tick_step tables s tick
  have horder : (s.step tables (.tick tick)).status.phaseOrder = s.status.phaseOrder :=
    congrArg Reports.phaseOrder hreports
  have hcount : (s.step tables (.tick tick)).middleware.count5F43 = s.middleware.count5F43 :=
    congrArg Reports.count5F43 hreports
  unfold Coming
  rw [hcount, horder, hline]
  split_ifs with hzero
  · exact .inr (List.mem_append_right _ (List.mem_singleton.mpr rfl))
  · exact .inl hzero

theorem Coming.answer (h : s.Coming) : (s.step tables .answer).Coming := by
  obtain ⟨hinquirer, -, hline⟩ := answer_step tables s
  unfold Coming status middleware
  rw [hinquirer, hline]
  exact h

theorem Coming.deliver (h : s.Coming) (now : LocalTime) :
    (s.step tables (.deliver now)).Coming := by
  cases hanswers : s.answers with
  | nil => rwa [deliver_nothing hanswers]
  | cons order answers =>
      obtain ⟨hmiddleware, -, hanswers', hasked⟩ := @deliver_step tables s now order answers
        hanswers
      have hline : s.line = order :: (s.step tables (.deliver now)).line := by
        rw [line, line, hanswers, hanswers', hasked, List.cons_append]
      have horder : (s.step tables (.deliver now)).status.phaseOrder = s.status.phaseOrder :=
        congrArg (fun m => m.status.phaseOrder) hmiddleware
      unfold Coming
      rw [horder, hmiddleware, Middleware.packet5FC3, tables.order_eq]
      dsimp only
      split_ifs with hsame
      · exact .inl Nat.one_ne_zero
      · refine h.imp id fun hmem => ?_
        rw [hline] at hmem
        exact (List.mem_cons.mp hmem).resolve_left fun heq => hsame heq.symm

theorem run_answers {n : ℕ} (hn : s.asked.length ≤ n) :
    (run (step tables) s (List.replicate n .answer)).asked = [] ∧
      (run (step tables) s (List.replicate n .answer)).line = s.line := by
  induction n generalizing s with
  | zero => exact ⟨List.length_eq_zero_iff.mp (Nat.le_zero.mp hn), rfl⟩
  | succ n ih =>
      obtain ⟨-, -, hline⟩ := answer_step tables s
      have hasked : (s.step tables .answer).asked.length ≤ n := by
        cases hasked : s.asked with
        | nil => simp [step, hasked]
        | cons order asked =>
            rw [hasked, List.length_cons] at hn
            simp only [step, hasked]
            omega
      obtain ⟨hnone, hsame⟩ := ih hasked
      exact ⟨hnone, hsame.trans hline⟩

theorem run_delivers {n : ℕ} (hn : s.answers.length ≤ n) (now : LocalTime) :
    (run (step tables) s (List.replicate n (.deliver now))).answers = [] ∧
      (run (step tables) s (List.replicate n (.deliver now))).asked = s.asked := by
  induction n generalizing s with
  | zero => exact ⟨List.length_eq_zero_iff.mp (Nat.le_zero.mp hn), rfl⟩
  | succ n ih =>
      have hstep : (s.step tables (.deliver now)).answers.length ≤ n ∧
          (s.step tables (.deliver now)).asked = s.asked := by
        cases hanswers : s.answers with
        | nil =>
            rw [deliver_nothing hanswers, hanswers]
            exact ⟨Nat.zero_le n, rfl⟩
        | cons order answers =>
            obtain ⟨-, -, hanswers', hasked⟩ := @deliver_step tables s now order answers hanswers
            rw [hanswers, List.length_cons] at hn
            rw [hanswers']
            exact ⟨by omega, hasked⟩
      obtain ⟨hnone, hsame⟩ := ih hstep.1
      exact ⟨hnone, hsame.trans hstep.2⟩

/-- A tick, and then as much time as it takes to answer and deliver all that is asked. -/
def exchange (tick : Tick) (now : LocalTime) (n : ℕ) : List LineEvent :=
  .tick tick :: (List.replicate n .answer ++ List.replicate n (.deliver now))

/-- Where nothing is lost, the answer is there after an exchange. -/
theorem run_exchange (s : TableLine) (tick : Tick) (now : LocalTime) {n : ℕ}
    (hn : s.line.length < n) :
    (run (step tables) s (exchange tick now n)).middleware.count5F43 ≠ 0 := by
  have hcoming := coming_tick tables s tick
  obtain ⟨-, -, hline⟩ := tick_step tables s tick
  have hlength : (s.step tables (.tick tick)).line.length ≤ n := by
    rw [hline, List.length_append]
    split_ifs <;> simp <;> omega
  rw [exchange, run_cons, run_append]
  generalize s.step tables (.tick tick) = ticked at hcoming hlength
  have hparts : ticked.line.length = ticked.answers.length + ticked.asked.length :=
    List.length_append
  obtain ⟨hasked, hsame⟩ := @run_answers tables ticked n (by omega)
  have hcoming : (run (step tables) ticked (List.replicate n .answer)).Coming :=
    run_invariant_of_mem (step tables) Coming _ hcoming fun s event hevent h => by
      obtain rfl := List.eq_of_mem_replicate hevent
      exact h.answer
  generalize run (step tables) ticked (List.replicate n .answer) = answered at *
  have hanswers : answered.answers.length ≤ n := by
    rw [line, hasked, List.append_nil] at hsame
    rw [hsame]
    exact hlength
  obtain ⟨hnone, hasked'⟩ := @run_delivers tables answered n hanswers now
  have hcoming : (run (step tables) answered (List.replicate n (.deliver now))).Coming :=
    run_invariant_of_mem (step tables) Coming _ hcoming fun s event hevent h => by
      obtain rfl := List.eq_of_mem_replicate hevent
      exact h.deliver now
  refine hcoming.resolve_right fun hmem => ?_
  rw [line, hnone, hasked', hasked] at hmem
  exact List.not_mem_nil hmem

/-- A plan of one phase under a phase order. -/
def planUnder (order : UInt8) : TrafficSignalPacket × LocalTime :=
  (⟨fun i => if i = 0 then 0x5F else if i = 1 then 0xC8 else if i = 4 then order
    else if i = 5 then 1 else 0⟩, ⟨0, 0, 0⟩)

/-- Tables of one signal, with a light that names the order. -/
def namedTables : ControllerTables where
  packet order := ⟨fun i => if i = 0 then 0x5F else if i = 1 then 0xC3 else if i = 4 then 1
    else if i = 3 then 0 else order⟩
  kind_eq _ := rfl
  order_eq _ := rfl

/-- A terminal that has heard nothing yet. -/
def silentStart : TableLine :=
  boot .initial (.initial fun _ => .unset) ⟨0, 0, 0, 0, 0, 0, 0, 0, 0⟩

/-- An order that comes back while its first question is still on the line gets the table of
the order between. -/
example :
    let s := run (step namedTables) silentStart [.packet (planUnder 5), .tick ⟨1, []⟩,
      .packet (planUnder 6), .tick ⟨1, []⟩, .packet (planUnder 5), .answer, .answer,
      .deliver ⟨0, 0, 0⟩, .deliver ⟨0, 0, 0⟩]
    s.middleware.count5F43 = 1 ∧ s.status.phaseOrder = 5 ∧ s.status.phaseorderPlan 0 0 = 6 := by
  decide

/-! ## Answers before the first plan -/

/-- The controller stays with phase order 0, and its answers come in while no plan has told
of any phases. -/
def Early (s : TableLine) : LineEvent → Prop
  | .packet packet => packet.1.kind ≠ .phaseOrder ∧
      (s.middleware.dispatch packet.1).status.phaseOrder = 0
  | .deliver _ => s.status.subPhaseCount = 0
  | _ => True

/-- Only order 0 is asked for, and its table stays empty. -/
structure Unlit (s : TableLine) : Prop where
  order : s.status.phaseOrder = 0
  line : ∀ order ∈ s.line, order = 0
  table : s.status.phaseorderPlan = fun _ _ => 0

namespace Unlit

/-- Fewer questions and answers about the same reports. -/
theorem of_sublist {s' : TableLine} (h : s.Unlit)
    (hreports : s'.middleware.reports = s.middleware.reports)
    (hline : ∀ order ∈ s'.line, order = 0) : s'.Unlit where
  order := (congrArg Reports.phaseOrder hreports).trans h.order
  line := hline
  table := (congrArg Reports.phaseorderPlan hreports).trans h.table

theorem tick (h : s.Unlit) (tick : Tick) : (s.step tables (.tick tick)).Unlit := by
  obtain ⟨hreports, -, hline⟩ := tick_step tables s tick
  refine h.of_sublist hreports fun order hmem => ?_
  rw [hline] at hmem
  rcases List.mem_append.mp hmem with hmem | hmem
  · exact h.line order hmem
  · rw [List.mem_ite_nil_right, List.mem_singleton] at hmem
    exact hmem.2.trans h.order

/-- An answer writes the lights of no phase. -/
theorem deliver (h : s.Unlit) (hphases : s.status.subPhaseCount = 0) {now : LocalTime}
    {order : UInt8} {answers : List UInt8} (hanswers : s.answers = order :: answers) :
    (s.step tables (.deliver now)).Unlit ∧
      (s.step tables (.deliver now)).middleware.count5F43 = 1 := by
  obtain ⟨hmiddleware, -, hanswers', hasked⟩ := @deliver_step tables s now order answers hanswers
  have hline : s.line = order :: (s.step tables (.deliver now)).line := by
    rw [TableLine.line, TableLine.line, hanswers, hanswers', hasked, List.cons_append]
  have hzero : order = 0 := h.line order (hline ▸ List.mem_cons_self)
  have hrows : s.middleware.status.subPhaseCount.toNat = 0 := congrArg UInt8.toNat hphases
  refine ⟨⟨?_, fun order' hmem => h.line order' (hline ▸ List.mem_cons_of_mem order hmem), ?_⟩,
    ?_⟩
  · rw [status, hmiddleware]
    exact h.order
  · rw [status, hmiddleware, ← h.table]
    funext i j
    exact if_neg fun hcell => by omega
  · rw [hmiddleware, Middleware.packet5FC3, tables.order_eq]
    exact if_pos (hzero.trans h.order.symm)

theorem step (h : s.Unlit) {event : LineEvent} (hearly : s.Early event) :
    (s.step tables event).Unlit := by
  cases event with
  | tick tick => exact h.tick tick
  | packet packet =>
      obtain ⟨hkind, horder⟩ := hearly
      have hmiddleware := packet_middleware tables s packet
      refine ⟨?_, h.line, ?_⟩
      · rw [status, hmiddleware]
        exact horder
      · rw [status, hmiddleware, (Middleware.dispatch_table s.middleware packet.1 hkind).2]
        exact h.table
  | answer =>
      obtain ⟨hinquirer, -, hline⟩ := answer_step tables s
      refine h.of_sublist (by rw [middleware, hinquirer, middleware]) ?_
      rw [hline]
      exact h.line
  | deliver now =>
      cases hanswers : s.answers with
      | nil => rwa [deliver_nothing hanswers]
      | cons order answers => exact (h.deliver hearly hanswers).1
  | loseQuestion i =>
      refine h.of_sublist rfl fun order hmem => h.line order ?_
      exact (List.Sublist.append_left (List.eraseIdx_sublist _ _) _).subset hmem
  | loseAnswer i =>
      refine h.of_sublist rfl fun order hmem => h.line order ?_
      exact (List.Sublist.append_right (List.eraseIdx_sublist _ _) _).subset hmem

/-- The order does not change, and so an answer is not forgotten. -/
theorem step_answered (h : s.Unlit) {event : LineEvent} (hearly : s.Early event)
    (hanswered : s.middleware.count5F43 ≠ 0) :
    (s.step tables event).middleware.count5F43 ≠ 0 := by
  cases event with
  | tick tick =>
      exact (congrArg Reports.count5F43 (tick_step tables s tick).1).trans_ne
        hanswered
  | packet packet =>
      rw [packet_middleware, Middleware.dispatch_count5F43]
      exact .inr ⟨hanswered, not_not.mpr (hearly.2.trans h.order.symm)⟩
  | answer =>
      rw [middleware, (answer_step tables s).1]
      exact hanswered
  | deliver now =>
      cases hanswers : s.answers with
      | nil => rwa [deliver_nothing hanswers]
      | cons order answers =>
          rw [(h.deliver hearly hanswers).2]
          exact Nat.one_ne_zero
  | loseQuestion i | loseAnswer i => exact hanswered

/-- No light, and so no group to tell of. -/
theorem spatMsgUpdate (h : s.Unlit) (fuel : ℕ) (table : ℕ → ℕ → List SignalIdObj) :
    s.status.spatMsgUpdate fuel table = some [] := by
  have hnone : s.status.processedGroups table = [] := by
    refine List.eq_nil_iff_forall_not_mem.mpr fun ⟨i, mask, group⟩ hgroup => ?_
    obtain ⟨k, -, hshown⟩ := s.status.exists_shows_of_mem_processedGroups table hgroup
    rw [TrafficSignalStatus.shows, h.table] at hshown
    simp at hshown
  rw [TrafficSignalStatus.spatMsgUpdate, hnone]
  exact ite_self _

end Unlit

/-- A controller that keeps phase order 0 and answers before the first plan has told of any
phases is not asked again, and the timing message tells of no group. -/
theorem early_answer_empties_spat (tables : ControllerTables) (config : Config)
    (plan : UInt8 → StaticPlan) (report : ControllerReport) {before after : List LineEvent}
    {now : LocalTime}
    (hanswer : (run (step tables) (boot config (.initial plan) report) before).answers ≠ [])
    (hrun : Guarded (step tables) Early (boot config (.initial plan) report)
      (before ++ .deliver now :: after)) :
    let s := run (step tables) (boot config (.initial plan) report)
      (before ++ .deliver now :: after)
    (∀ fuel table, s.status.spatMsgUpdate fuel table = some []) ∧
      ∀ tick order, Inquiry.tsc5F43 order ∉ (s.inquirer.timerEventHandler tick).2 := by
  have hstart : (boot config (.initial plan) report).Unlit :=
    ⟨rfl, fun _ hmem => absurd hmem List.not_mem_nil, rfl⟩
  obtain ⟨hbefore, hdeliver, hafter⟩ := Guarded.append.mp hrun
  have hempty := hbefore.invariant Unlit hstart fun s event h hearly => h.step hearly
  obtain ⟨order, answers, hanswers⟩ := List.exists_cons_of_ne_nil hanswer
  obtain ⟨hdelivered, hcount⟩ := @Unlit.deliver tables _ hempty hdeliver now order answers hanswers
  obtain ⟨hend, hanswered⟩ := hafter.invariant
    (fun s => s.Unlit ∧ s.middleware.count5F43 ≠ 0)
    ⟨hdelivered, hcount ▸ Nat.one_ne_zero⟩
    fun s event h hearly => ⟨h.1.step hearly, h.1.step_answered hearly h.2⟩
  rw [run_append, run_cons]
  refine ⟨hend.spatMsgUpdate, fun tick order hasks => ?_⟩
  exact hanswered (Inquirer.mem_timerEventHandler.mp hasks).1

theorem early_answer_empties_spat_order_zero :
    let s := run (step namedTables) silentStart
      ([.tick ⟨1, []⟩, .answer] ++ .deliver ⟨0, 0, 0⟩ :: [.packet (planUnder 0), .tick ⟨1, []⟩])
    (∀ fuel table, s.status.spatMsgUpdate fuel table = some []) ∧
      ∀ tick order, Inquiry.tsc5F43 order ∉ (s.inquirer.timerEventHandler tick).2 :=
  early_answer_empties_spat namedTables .initial (fun _ => .unset) ⟨0, 0, 0, 0, 0, 0, 0, 0, 0⟩
    (by decide) ⟨trivial, trivial, rfl, ⟨by decide, by decide⟩, trivial, trivial⟩

end TableLine

end AdaptiveSignal.Signal
