import AdaptiveSignal.Foundation.Run
import AdaptiveSignal.Signal.PlanPackets

/-! # The INFO bytes a handler interprets

Besides the plans and phases, packets carry the clock and the health of the
controller into the signal status. A handler reads INFO up to a length that the
counts in INFO and in the status give, and never asks how many bytes the packet
had. Up to that length the bytes decide what the status becomes, and the last of
them never fails to.
-/

namespace AdaptiveSignal.Signal

open Foundation

/-! ## The clock and the health of the controller -/

/-- The local time of the computer. -/
structure LocalTime where
  hour : ℤ
  min : ℤ
  sec : ℤ

/-- What the signal status keeps of the packets 0FC2 and 0F04. -/
structure ControllerReport where
  year : UInt8
  month : UInt8
  day : UInt8
  week : UInt8
  hour : UInt8
  min : UInt8
  sec : UInt8
  tcTimeOffset : ℤ
  originalTcHealthStatus : UInt16

/-- Report of the clock. -/
def packet0FC2 (report : ControllerReport) (now : LocalTime) (packet : TrafficSignalPacket) :
    ControllerReport :=
  let hour := packet.info 6
  let min := packet.info 7
  let sec := packet.info 8
  { report with
    year := packet.info 2
    month := packet.info 3
    day := packet.info 4
    week := packet.info 5
    hour := hour
    min := min
    sec := sec
    tcTimeOffset := ((hour.toNat - now.hour) * 60 + min.toNat - now.min) * 60 +
      sec.toNat - now.sec }

/-- Report of the health. -/
def packet0F04 (report : ControllerReport) (packet : TrafficSignalPacket) : ControllerReport :=
  { report with originalTcHealthStatus := packet.word 2 }

/-! ## Dispatch -/

inductive Handler
  | status (kind : PacketKind)
  | clock
  | health
  deriving DecidableEq

/-- What `recv_info` calls for a packet. -/
def TrafficSignalPacket.handler (packet : TrafficSignalPacket) : Handler :=
  if packet.info 0 = 0x0F ∧ packet.info 1 = 0xC2 then .clock
  else if packet.info 0 = 0x0F ∧ packet.info 1 = 0x04 then .health
  else .status packet.kind

/-- The middleware with the whole signal status. -/
structure Terminal where
  middleware : Middleware
  report : ControllerReport

namespace Terminal

def signalStatus (t : Terminal) : TrafficSignalStatus × ControllerReport :=
  (t.middleware.status, t.report)

def dispatch (t : Terminal) (packet : TrafficSignalPacket × LocalTime) : Terminal :=
  match packet.1.handler with
  | .status _ => { t with middleware := t.middleware.dispatch packet.1 }
  | .clock => { t with report := packet0FC2 t.report packet.2 packet.1 }
  | .health => { t with report := packet0F04 t.report packet.1 }

end Terminal

/-- The number of signal groups in a 5FC3: as many for each phase as it says. -/
def signalCells (status : TrafficSignalStatus) (packet : TrafficSignalPacket) : ℕ :=
  status.subPhaseCount.toNat * (packet.info 4).toNat

/-- How many INFO bytes the dispatch and the handler interpret for the status. A packet
whose first byte no handler has is not looked at any further. -/
def interpretedLen (status : TrafficSignalStatus) (packet : TrafficSignalPacket) : ℕ :=
  if packet.info 0 ≠ 0x5F ∧ packet.info 0 ≠ 0x0F then 1
  else
    match packet.handler with
    | .status .phaseReport => 7
    | .status .confirmation => 5
    | .status .runningPlan => 10 + 2 * (packet.info 5).toNat
    | .status .storedPlan => 10 + 2 * (packet.info 5).toNat
    | .status .planParameters => 4 + 7 * (packet.info 3).toNat
    | .status .daySegments => 4 + 3 * (packet.info 3).toNat
    | .status .phaseOrder =>
        if signalCells status packet = 0 then 5 else 6 + signalCells status packet
    | .status .version => 2
    | .status .other => 2
    | .clock => 9
    | .health => 4

/-- The cell of a signal group is one of those of its phase order. -/
theorem cell_lt {rows columns i j : ℕ} (hi : i < rows) (hj : j < columns) :
    i * columns + j < rows * columns := by
  calc i * columns + j < i * columns + columns := by omega
    _ = (i + 1) * columns := by rw [Nat.succ_mul]
    _ ≤ rows * columns := Nat.mul_le_mul_right _ hi

/-! ## The bytes up to that length decide -/

/-- The packets have the same bytes up to a length. -/
def SameUpTo (n : ℕ) (packet packet' : TrafficSignalPacket) : Prop :=
  ∀ i < n, packet.info i = packet'.info i

namespace SameUpTo

variable {n m : ℕ} {packet packet' : TrafficSignalPacket}

theorem mono (h : SameUpTo n packet packet') (hm : m ≤ n) : SameUpTo m packet packet' :=
  fun i hi => h i (Nat.lt_of_lt_of_le hi hm)

theorem symm (h : SameUpTo n packet packet') : SameUpTo n packet' packet :=
  fun i hi => (h i hi).symm

theorem word (h : SameUpTo n packet packet') {i : ℕ} (hi : i + 1 < n) :
    packet.word i = packet'.word i := by
  unfold TrafficSignalPacket.word
  rw [h i (by omega), h (i + 1) hi]

/-- Two bytes name the handler. -/
theorem handler (h : SameUpTo n packet packet') (hn : 2 ≤ n) :
    packet.handler = packet'.handler := by
  unfold TrafficSignalPacket.handler TrafficSignalPacket.kind
  rw [h 0 (by omega), h 1 (by omega)]

theorem kind (h : SameUpTo n packet packet') (hn : 2 ≤ n) : packet.kind = packet'.kind := by
  unfold TrafficSignalPacket.kind
  rw [h 0 (by omega), h 1 (by omega)]

theorem updateGreens (h : SameUpTo n packet packet') (hn : 10 + 2 * (packet.info 5).toNat ≤ n)
    (status : TrafficSignalStatus) :
    Middleware.updateGreens status packet = Middleware.updateGreens status packet' := by
  unfold Middleware.updateGreens
  dsimp only
  rw [← h 5 (by omega), h.word (by omega), h.word (i := 8 + _) (by omega)]
  congr 1
  funext p
  split_ifs with hp
  · have hle := UInt8.le_iff_toNat_le.mp hp.2
    rw [h.word (by omega)]
  · rfl

theorem updatePlanParameters (h : SameUpTo n packet packet')
    (hn : 4 + 7 * (packet.info 3).toNat ≤ n) (status : TrafficSignalStatus) :
    Middleware.updatePlanParameters status packet =
      Middleware.updatePlanParameters status packet' := by
  unfold Middleware.updatePlanParameters
  dsimp only
  rw [← h 3 (by omega)]
  congr 1
  funext p
  split_ifs with hp
  · have hone := UInt8.le_iff_toNat_le.mp hp.1
    have hle := UInt8.le_iff_toNat_le.mp hp.2
    change 1 ≤ p.toNat at hone
    rw [h (4 + (p.toNat - 1) * 7) (by omega), h.word (by omega),
      h (7 + (p.toNat - 1) * 7) (by omega), h (8 + (p.toNat - 1) * 7) (by omega),
      h (9 + (p.toNat - 1) * 7) (by omega), h (10 + (p.toNat - 1) * 7) (by omega)]
  · rfl

end SameUpTo

theorem kind_of_handler {packet : TrafficSignalPacket} {kind : PacketKind}
    (hhandler : packet.handler = .status kind) : packet.kind = kind := by
  unfold TrafficSignalPacket.handler at hhandler
  split_ifs at hhandler
  exact Handler.status.inj hhandler

/-- A first byte no handler has. -/
theorem handler_of_first {packet : TrafficSignalPacket}
    (hfirst : packet.info 0 ≠ 0x5F ∧ packet.info 0 ≠ 0x0F) : packet.handler = .status .other := by
  have hkind : packet.kind = .other := by
    unfold TrafficSignalPacket.kind
    rw [if_neg hfirst.1, if_neg fun h => hfirst.2 h.1]
  unfold TrafficSignalPacket.handler
  rw [if_neg fun h => hfirst.2 h.1, if_neg fun h => hfirst.2 h.1, hkind]

theorem two_le_interpretedLen (status : TrafficSignalStatus) {packet : TrafficSignalPacket}
    (hfirst : ¬ (packet.info 0 ≠ 0x5F ∧ packet.info 0 ≠ 0x0F)) :
    2 ≤ interpretedLen status packet := by
  unfold interpretedLen
  rw [if_neg hfirst]
  split <;> try split_ifs
  all_goals omega

theorem interpretedLen_pos (status : TrafficSignalStatus) (packet : TrafficSignalPacket) :
    0 < interpretedLen status packet := by
  by_cases hfirst : packet.info 0 ≠ 0x5F ∧ packet.info 0 ≠ 0x0F
  · rw [interpretedLen, if_pos hfirst]
    exact Nat.one_pos
  · exact Nat.lt_of_lt_of_le Nat.two_pos (two_le_interpretedLen status hfirst)

/-- A word changes with its lower byte. -/
theorem word_ne {packet packet' : TrafficSignalPacket} {i : ℕ}
    (hlow : packet.info (i + 1) ≠ packet'.info (i + 1)) :
    packet.word i ≠ packet'.word i := by
  have hlower : ∀ high low : UInt8, (high.toUInt16 <<< 8 ||| low.toUInt16).toUInt8 = low := by
    intro high low
    apply UInt8.toBitVec_inj.mp
    ext i hi
    simp
  intro heq
  have hbytes := congrArg UInt16.toUInt8 heq
  rw [TrafficSignalPacket.word, TrafficSignalPacket.word, hlower, hlower] at hbytes
  exact hlow hbytes

namespace Middleware

variable {s s' : Middleware} {packet packet' : TrafficSignalPacket}

/-- The strategy of a phase report is mapped for one manufacturer. -/
def isChengLong (s : Middleware) : Prop := s.config.signalControllerManufacturer = .chengLong

theorem packet5FCC_status :
    (s.packet5FCC packet).status =
      { s.status with
        controlStrategy :=
          mapControlStrategy s.config.signalControllerManufacturer (packet.info 2)
        subPhaseId := if reportsPhase packet then packet.info 3 else s.status.subPhaseId
        stepId := packet.info 4
        stepSec := packet.word 5 } := by
  by_cases hphase : packet.info 3 ≠ 0 ∧ packet.info 4 ≠ 5
  · by_cases hless : packet.info 3 < s.status.subPhaseId <;>
      simp [packet5FCC, updateSubPhase, reportsPhase, updateCycleIndex, hphase, hless]
  · have hnot : reportsPhase packet = false := by simpa [reportsPhase] using hphase
    simp only [packet5FCC, updateSubPhase, hphase, hnot, if_false, Bool.false_eq_true]

theorem updatePhaseOrder_config (phaseOrder : UInt8) :
    (s.updatePhaseOrder phaseOrder).config = s.config := by
  unfold updatePhaseOrder
  split_ifs <;> rfl

/-- A version changes the make of one manufacturer into another. -/
theorem dispatch_isChengLong : (s.dispatch packet).isChengLong ↔ s.isChengLong := by
  unfold dispatch isChengLong
  cases packet.kind with
  | phaseReport =>
      simp only [packet5FCC, updateSubPhase, updateCycleIndex]
      split_ifs <;> rfl
  | runningPlan =>
      simp only [packet5FC8, updatePhaseOrder_config]
  | storedPlan =>
      simp only [packet5FC5, updatePhaseOrder_config]
  | version =>
      simp only [packet0FC3]
      split_ifs with hnewer
      · simp [hnewer.2]
      · rfl
  | planParameters | daySegments | confirmation | phaseOrder | other => rfl

theorem packet5FCC_status_congr (hstatus : s.status = s'.status)
    (hmake : s.isChengLong ↔ s'.isChengLong) (hsame : SameUpTo 7 packet packet') :
    (s.packet5FCC packet).status = (s'.packet5FCC packet').status := by
  have hreports : reportsPhase packet = reportsPhase packet' := by
    unfold reportsPhase
    rw [hsame 3 (by omega), hsame 4 (by omega)]
  have hmapped : mapControlStrategy s.config.signalControllerManufacturer (packet.info 2) =
      mapControlStrategy s'.config.signalControllerManufacturer (packet'.info 2) := by
    unfold isChengLong at hmake
    simp only [mapControlStrategy, hmake, hsame 2 (by omega)]
  rw [packet5FCC_status, packet5FCC_status, hmapped, hreports, hstatus, hsame 3 (by omega),
    hsame 4 (by omega), hsame.word (by omega)]

theorem packet5FC6_status_congr (hstatus : s.status = s'.status)
    (hsame : SameUpTo (4 + 3 * (packet.info 3).toNat) packet packet') :
    (s.packet5FC6 packet).status = (s'.packet5FC6 packet').status := by
  have hsegments := hsame 3 (by omega)
  simp only [packet5FC6, hstatus, hsame 2 (by omega), ← hsegments]
  congr 1
  funext i
  split_ifs with hi
  · rw [hsame (4 + 3 * i) (by omega), hsame (5 + 3 * i) (by omega),
      hsame (6 + 3 * i) (by omega)]
  · rfl

/-- The signal groups are read by the number of phases in the status. -/
theorem packet5FC3_status_congr (hstatus : s.status = s'.status)
    (hsame : SameUpTo (if signalCells s.status packet = 0 then 5
      else 6 + signalCells s.status packet) packet packet') :
    (s.packet5FC3 packet).status = (s'.packet5FC3 packet').status := by
  have hcount : 5 ≤ (if signalCells s.status packet = 0 then 5
      else 6 + signalCells s.status packet) := by
    split_ifs <;> omega
  have hsignals := hsame 4 hcount
  simp only [packet5FC3, ← hstatus, hsame 3 (by omega), ← hsignals]
  congr 1
  funext i j
  split_ifs with hcell
  · have hlt := cell_lt hcell.1 hcell.2
    change _ < signalCells s.status packet at hlt
    rw [if_neg (by omega)] at hsame
    exact hsame _ (by omega)
  · rfl

/-- The bytes a handler interprets decide with the status before what it becomes. -/
theorem dispatch_status_congr (hstatus : s.status = s'.status)
    (hmake : s.isChengLong ↔ s'.isChengLong) (hhandler : packet.handler = .status packet.kind)
    (hsame : SameUpTo (interpretedLen s.status packet) packet packet') :
    (s.dispatch packet).status = (s'.dispatch packet').status := by
  by_cases hfirst : packet.info 0 ≠ 0x5F ∧ packet.info 0 ≠ 0x0F
  · have hnone : packet.info 0 = packet'.info 0 := hsame 0 (interpretedLen_pos _ _)
    have hkind := kind_of_handler (handler_of_first hfirst)
    have hkind' := kind_of_handler (handler_of_first (hnone ▸ hfirst))
    simp only [dispatch, hkind, hkind']
    exact hstatus
  have hkind := hsame.kind (two_le_interpretedLen s.status hfirst)
  unfold interpretedLen at hsame
  rw [if_neg hfirst, hhandler] at hsame
  unfold dispatch
  rw [← hkind]
  cases hcase : packet.kind with
  | phaseReport =>
      simp only [hcase] at hsame
      exact packet5FCC_status_congr hstatus hmake hsame
  | runningPlan =>
      simp only [hcase] at hsame
      rw [packet5FC8_status, packet5FC8_status, hstatus, hsame 2 (by omega), hsame 4 (by omega),
        hsame.updateGreens le_rfl]
  | storedPlan =>
      simp only [hcase] at hsame
      rw [packet5FC5_status, packet5FC5_status, hstatus, hsame 4 (by omega),
        hsame.updateGreens le_rfl]
  | planParameters =>
      simp only [hcase] at hsame
      simp only [packet5FC4]
      rw [hstatus, hsame.updatePlanParameters le_rfl]
  | daySegments =>
      simp only [hcase] at hsame
      exact packet5FC6_status_congr hstatus hsame
  | confirmation =>
      simp only [hcase] at hsame
      simp only [packet5F0C, hstatus, hsame 2 (by omega), hsame 3 (by omega),
        hsame 4 (by omega)]
  | phaseOrder =>
      simp only [hcase] at hsame
      exact packet5FC3_status_congr hstatus hsame
  | version =>
      simp only [packet0FC3]
      split_ifs <;> exact hstatus
  | other => exact hstatus

/-- The offset is the last word of a plan. -/
theorem offset_ne {last : ℕ} (hlength : last + 1 = 10 + 2 * (packet.info 5).toNat)
    (hsame : SameUpTo last packet packet') (hlast : packet.info last ≠ packet'.info last) :
    packet.word (8 + (packet.info 5).toNat * 2) ≠
      packet'.word (8 + (packet'.info 5).toNat * 2) := by
  obtain rfl : last = 8 + (packet.info 5).toNat * 2 + 1 := by omega
  rw [← hsame 5 (by omega)]
  exact word_ne hlast

/-- The pedestrian red of the last phase, or the number of phases if there is none. -/
theorem packet5FC4_status_ne {last : ℕ} (hlength : last + 1 = 4 + 7 * (packet.info 3).toNat)
    (hsame : SameUpTo last packet packet') (hlast : packet.info last ≠ packet'.info last) :
    (s.packet5FC4 packet).status ≠ (s.packet5FC4 packet').status := by
  intro heq
  have hcount : packet.info 3 = packet'.info 3 := congrArg TrafficSignalStatus.subPhaseCount heq
  have hsome : (packet.info 3).toNat ≠ 0 := by
    intro hnone
    obtain rfl : last = 3 := by omega
    exact hlast hcount
  have hcovers : Covers (packet.info 3) (packet.info 3) :=
    ⟨UInt8.le_iff_toNat_le.mpr (by change 1 ≤ _; omega), UInt8.le_refl _⟩
  have hplan := congrArg (fun status => (status.plan (packet.info 3)).pedRed) heq
  simp only [packet5FC4, updatePlanParameters, ← hcount, if_pos hcovers] at hplan
  obtain rfl : last = 10 + ((packet.info 3).toNat - 1) * 7 := by omega
  exact hlast hplan

/-- The plan of the last segment, or the number of segments if there is none. -/
theorem packet5FC6_status_ne {last : ℕ} (hlength : last + 1 = 4 + 3 * (packet.info 3).toNat)
    (hsame : SameUpTo last packet packet') (hlast : packet.info last ≠ packet'.info last) :
    (s.packet5FC6 packet).status ≠ (s.packet5FC6 packet').status := by
  intro heq
  have hcount : packet.info 3 = packet'.info 3 := congrArg TrafficSignalStatus.segmentCount heq
  have hsome : (packet.info 3).toNat ≠ 0 := by
    intro hnone
    obtain rfl : last = 3 := by omega
    exact hlast hcount
  have hsegment := congrArg
    (fun status => (status.alldayPlan ((packet.info 3).toNat - 1)).planId) heq
  simp only [packet5FC6, ← hcount, if_pos (Nat.sub_one_lt hsome)] at hsegment
  obtain rfl : last = 6 + 3 * ((packet.info 3).toNat - 1) := by omega
  exact hlast hsegment

/-- The last signal group of the last phase, or the number of groups if there is none. -/
theorem packet5FC3_status_ne {last : ℕ}
    (hlength : last + 1 =
      if signalCells s.status packet = 0 then 5 else 6 + signalCells s.status packet)
    (hsame : SameUpTo last packet packet') (hlast : packet.info last ≠ packet'.info last) :
    (s.packet5FC3 packet).status ≠ (s.packet5FC3 packet').status := by
  intro heq
  have hcount : packet.info 4 = packet'.info 4 := congrArg TrafficSignalStatus.signalCount heq
  split_ifs at hlength with hnone
  · obtain rfl : last = 4 := by omega
    exact hlast hcount
  have hrows : s.status.subPhaseCount.toNat ≠ 0 := fun h => hnone (by simp [signalCells, h])
  have hcolumns : (packet.info 4).toNat ≠ 0 := fun h => hnone (by simp [signalCells, h])
  have hcell := congrArg (fun status => status.phaseorderPlan (s.status.subPhaseCount.toNat - 1)
    ((packet.info 4).toNat - 1)) heq
  simp only [packet5FC3, ← hcount,
    if_pos (And.intro (Nat.sub_one_lt hrows) (Nat.sub_one_lt hcolumns))] at hcell
  obtain rfl : last = 6 + (s.status.subPhaseCount.toNat - 1) * (packet.info 4).toNat +
      ((packet.info 4).toNat - 1) := by
    have hcells : signalCells s.status packet =
        (s.status.subPhaseCount.toNat - 1) * (packet.info 4).toNat + (packet.info 4).toNat := by
      rw [signalCells, ← Nat.succ_mul, Nat.succ_eq_add_one, Nat.sub_one_add_one hrows]
    omega
  exact hlast hcell

/-- The last byte a handler of the middleware interprets shows in the status. -/
theorem dispatch_status_ne (hhandler : packet.handler = .status packet.kind) {last : ℕ}
    (hlength : last + 1 = interpretedLen s.status packet) (hlong : 2 ≤ last)
    (hsame : SameUpTo last packet packet') (hlast : packet.info last ≠ packet'.info last) :
    (s.dispatch packet).status ≠ (s.dispatch packet').status := by
  have hkind := hsame.kind hlong
  have hfirst : ¬ (packet.info 0 ≠ 0x5F ∧ packet.info 0 ≠ 0x0F) := by
    intro hnone
    rw [interpretedLen, if_pos hnone] at hlength
    omega
  rw [interpretedLen, if_neg hfirst, hhandler] at hlength
  unfold dispatch
  rw [← hkind]
  cases hcase : packet.kind with
  | phaseReport =>
      simp only [hcase] at hlength
      obtain rfl : last = 6 := by omega
      rw [packet5FCC_status, packet5FCC_status]
      exact fun heq => word_ne hlast (congrArg TrafficSignalStatus.stepSec heq)
  | runningPlan =>
      simp only [hcase] at hlength
      rw [packet5FC8_status, packet5FC8_status]
      exact fun heq => offset_ne hlength hsame hlast (congrArg TrafficSignalStatus.offset heq)
  | storedPlan =>
      simp only [hcase] at hlength
      rw [packet5FC5_status, packet5FC5_status]
      exact fun heq => offset_ne hlength hsame hlast (congrArg TrafficSignalStatus.offset heq)
  | planParameters =>
      simp only [hcase] at hlength
      exact packet5FC4_status_ne hlength hsame hlast
  | daySegments =>
      simp only [hcase] at hlength
      exact packet5FC6_status_ne hlength hsame hlast
  | confirmation =>
      simp only [hcase] at hlength
      obtain rfl : last = 4 := by omega
      exact fun heq => hlast (congrArg TrafficSignalStatus.stepId heq)
  | phaseOrder =>
      simp only [hcase] at hlength
      exact packet5FC3_status_ne hlength hsame hlast
  | version | other =>
      simp only [hcase] at hlength
      omega

end Middleware

/-- 255 phases with 255 signal groups each. -/
def maxInterpretedLen : ℕ := 6 + 255 * 255

theorem interpretedLen_le (status : TrafficSignalStatus) (packet : TrafficSignalPacket) :
    interpretedLen status packet ≤ maxInterpretedLen := by
  have hbyte : ∀ byte : UInt8, byte.toNat ≤ 255 := fun byte => Nat.le_of_lt_succ byte.toNat_lt
  have hthree := hbyte (packet.info 3)
  have hfive := hbyte (packet.info 5)
  have hcells : signalCells status packet ≤ 255 * 255 :=
    Nat.mul_le_mul (hbyte _) (hbyte _)
  unfold interpretedLen maxInterpretedLen
  by_cases hfirst : packet.info 0 ≠ 0x5F ∧ packet.info 0 ≠ 0x0F
  · rw [if_pos hfirst]
    omega
  · rw [if_neg hfirst]
    split <;> try split_ifs
    all_goals omega

/-! ## The outcome of a packet -/

/-- The packet whose first INFO bytes have been received, over what was there. -/
def TrafficSignalPacket.over (info : List UInt8) (memory : ℕ → UInt8) : TrafficSignalPacket where
  info := fun i => (info[i]?).getD (memory i)

theorem SameUpTo.over {info : List UInt8} (memory memory' : ℕ → UInt8) :
    SameUpTo info.length (.over info memory) (.over info memory') := by
  intro i hi
  simp [TrafficSignalPacket.over, hi]

namespace Terminal

variable {t t' : Terminal} {packet packet' : TrafficSignalPacket} {now : LocalTime}

/-- The handler a packet is dispatched to and the signal status after it. -/
def outcome (t : Terminal) (packet : TrafficSignalPacket) (now : LocalTime) :
    Handler × TrafficSignalStatus × ControllerReport :=
  (packet.handler, (t.dispatch (packet, now)).signalStatus)

theorem handler_congr {status : TrafficSignalStatus}
    (hsame : SameUpTo (interpretedLen status packet) packet packet') :
    packet.handler = packet'.handler := by
  by_cases hfirst : packet.info 0 ≠ 0x5F ∧ packet.info 0 ≠ 0x0F
  · have hnone : packet.info 0 = packet'.info 0 := hsame 0 (interpretedLen_pos _ _)
    rw [handler_of_first hfirst, handler_of_first (hnone ▸ hfirst)]
  · exact hsame.handler (two_le_interpretedLen status hfirst)

/-- No other packets than those of the clock and the health begin like them. -/
theorem interpretedLen_of_report {status : TrafficSignalStatus}
    (hreport : ∀ kind, packet.handler ≠ .status kind) :
    interpretedLen status packet = if packet.handler = .clock then 9 else 4 := by
  have hfirst : ¬ (packet.info 0 ≠ 0x5F ∧ packet.info 0 ≠ 0x0F) :=
    fun hnone => hreport _ (handler_of_first hnone)
  rw [interpretedLen, if_neg hfirst]
  cases hcase : packet.handler with
  | status kind => exact absurd hcase (hreport kind)
  | clock => rfl
  | health => rfl

/-- The bytes that are interpreted decide the outcome. -/
theorem outcome_congr (hstatus : t.signalStatus = t'.signalStatus)
    (hmake : t.middleware.isChengLong ↔ t'.middleware.isChengLong)
    (hsame : SameUpTo (interpretedLen t.middleware.status packet) packet packet') :
    t.outcome packet now = t'.outcome packet' now := by
  have hhandler := handler_congr hsame
  have hmiddleware : t.middleware.status = t'.middleware.status := congrArg Prod.fst hstatus
  have hreport : t.report = t'.report := congrArg Prod.snd hstatus
  unfold outcome dispatch signalStatus
  dsimp only
  rw [← hhandler]
  cases hcase : packet.handler with
  | status kind =>
      obtain rfl := kind_of_handler hcase
      dsimp only
      rw [hreport, Middleware.dispatch_status_congr hmiddleware hmake hcase hsame]
  | clock =>
      rw [interpretedLen_of_report (by simp [hcase]), if_pos hcase] at hsame
      simp only [packet0FC2, hmiddleware, hreport, hsame 2 (by omega), hsame 3 (by omega),
        hsame 4 (by omega), hsame 5 (by omega), hsame 6 (by omega), hsame 7 (by omega),
        hsame 8 (by omega)]
  | health =>
      rw [interpretedLen_of_report (by simp [hcase]), if_neg (by simp [hcase])] at hsame
      simp only [packet0F04, hmiddleware, hreport, hsame.word (show 2 + 1 < 4 by omega)]

/-- The last byte that is interpreted shows in the outcome. -/
theorem outcome_ne {last : ℕ} (hlength : last + 1 = interpretedLen t.middleware.status packet)
    (hlong : 2 ≤ last) (hsame : SameUpTo last packet packet')
    (hlast : packet.info last ≠ packet'.info last) :
    t.outcome packet now ≠ t.outcome packet' now := by
  intro heq
  have hstatus := congrArg Prod.snd heq
  unfold outcome dispatch signalStatus at hstatus
  dsimp only at hstatus
  rw [← hsame.handler hlong] at hstatus
  cases hcase : packet.handler with
  | status kind =>
      obtain rfl := kind_of_handler hcase
      simp only [hcase] at hstatus
      exact Middleware.dispatch_status_ne hcase hlength hlong hsame hlast
        (congrArg Prod.fst hstatus)
  | clock =>
      rw [interpretedLen_of_report (by simp [hcase]), if_pos hcase] at hlength
      obtain rfl : last = 8 := by omega
      simp only [hcase] at hstatus
      exact hlast (congrArg (fun after => after.2.sec) hstatus)
  | health =>
      rw [interpretedLen_of_report (by simp [hcase]), if_neg (by simp [hcase])] at hlength
      obtain rfl : last = 3 := by omega
      simp only [hcase] at hstatus
      exact word_ne hlast (congrArg (fun after => after.2.originalTcHealthStatus) hstatus)

/-- A packet of fewer bytes than name a handler is dispatched by what was there. -/
theorem exists_handler_ne {info : List UInt8}
    (hshort : info = [] ∨ info = [0x5F] ∨ info = [0x0F]) :
    ∃ memory : ℕ → UInt8,
      (TrafficSignalPacket.over info fun _ => 0).handler ≠
        (TrafficSignalPacket.over info memory).handler := by
  rcases hshort with rfl | rfl | rfl
  · exact ⟨fun i => if i = 0 then 0x5F else 0xCC, by decide⟩
  · exact ⟨fun _ => 0xCC, by decide⟩
  · exact ⟨fun _ => 0xC2, by decide⟩

theorem interpretedLen_le_one {status : TrafficSignalStatus}
    (hfirst : packet.info 0 ≠ 0x5F ∧ packet.info 0 ≠ 0x0F) : interpretedLen status packet = 1 :=
  if_pos hfirst

/-- A packet that ends before what is interpreted has another outcome over other bytes. -/
theorem exists_outcome_ne (t : Terminal) (info : List UInt8) (now : LocalTime)
    (hshort : info.length < interpretedLen t.middleware.status (.over info fun _ => 0)) :
    ∃ memory : ℕ → UInt8,
      t.outcome (.over info fun _ => 0) now ≠ t.outcome (.over info memory) now := by
  rcases Nat.lt_or_ge 2 (interpretedLen t.middleware.status (.over info fun _ => 0)) with
    hlong | hnames
  · obtain ⟨last, hlast⟩ : ∃ last,
        last + 1 = interpretedLen t.middleware.status (.over info fun _ => 0) :=
      ⟨_, Nat.sub_one_add_one (by omega)⟩
    refine ⟨Function.update (fun _ => 0) last 1, outcome_ne hlast (by omega) ?_ ?_⟩
    · intro i hi
      simp [TrafficSignalPacket.over, Nat.ne_of_lt hi]
    · have hnone : info[last]? = none := List.getElem?_eq_none (by omega)
      simp [TrafficSignalPacket.over, hnone]
  · obtain ⟨memory, hmemory⟩ : ∃ memory : ℕ → UInt8,
        (TrafficSignalPacket.over info fun _ => 0).handler ≠
          (TrafficSignalPacket.over info memory).handler := by
      apply exists_handler_ne
      match info with
      | [] => exact Or.inl rfl
      | [first] =>
          refine Or.inr (by_contra fun hfirst => ?_)
          rw [interpretedLen_le_one] at hshort
          · exact absurd hshort (by simp)
          · simpa [TrafficSignalPacket.over] using hfirst
      | _ :: _ :: _ =>
          simp only [List.length_cons] at hshort
          omega
    exact ⟨memory, fun heq => hmemory (congrArg Prod.fst heq)⟩

end Terminal

end AdaptiveSignal.Signal
