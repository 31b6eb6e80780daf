import AdaptiveSignal.Signal.StatusUpdating

/-! # Plan packets and the dispatch of packets

The handlers of the remaining packets the status is built from: the parameters
of a plan (5FC4), the signal groups of a phase order (5FC3), the segments of the
day (5FC6) and the confirmation of a phase (5F0C). An accepted packet is handed
to the handler its first two INFO bytes name.
-/

namespace AdaptiveSignal.Signal

namespace Middleware

/-- The parameters of the phases up to `SubPhaseCount`. Step 1 of a phase is what
the flashing pedestrian green leaves of the green stored so far. -/
def updatePlanParameters (status : TrafficSignalStatus) (packet : TrafficSignalPacket) :
    TrafficSignalStatus :=
  let count := packet.info 3
  { status with
    subPhaseCount := count
    plan := fun p =>
      let i := p.toNat - 1
      let plan := status.plan p
      if 1 ≤ p ∧ p ≤ count then
        { plan with
          minGreen := packet.info (4 + i * 7)
          maxGreen := packet.word (5 + i * 7)
          yellow := packet.info (7 + i * 7)
          allRed := packet.info (8 + i * 7)
          pedGreenFlash := packet.info (9 + i * 7)
          pedRed := packet.info (10 + i * 7)
          preGreen := plan.green - (packet.info (9 + i * 7)).toUInt16 }
      else plan }

/-- Report of the parameters of a plan. -/
def packet5FC4 (s : Middleware) (packet : TrafficSignalPacket) : Middleware :=
  { s with status := updatePlanParameters s.status packet }

/-- Report of the signal groups of a phase order. -/
def packet5FC3 (s : Middleware) (packet : TrafficSignalPacket) : Middleware :=
  let signalCount := packet.info 4
  { s with
    status := { s.status with
      signalMap := packet.info 3
      signalCount := signalCount
      phaseorderPlan := fun i j =>
        if i < s.status.subPhaseCount.toNat ∧ j < signalCount.toNat then
          packet.info (6 + i * signalCount.toNat + j)
        else s.status.phaseorderPlan i j }
    -- only an answer about the running phase order counts
    count5F43 := if packet.info 2 = s.status.phaseOrder then 1 else s.count5F43 }

/-- Report of the segments of the day. -/
def packet5FC6 (s : Middleware) (packet : TrafficSignalPacket) : Middleware :=
  let segmentCount := packet.info 3
  { s with
    status := { s.status with
      segmentType := packet.info 2
      segmentCount := segmentCount
      alldayPlan := fun i =>
        if i < segmentCount.toNat then
          ⟨packet.info (4 + 3 * i), packet.info (5 + 3 * i), packet.info (6 + 3 * i)⟩
        else s.status.alldayPlan i }
    count5F46 := if s.count5F46 = 0 then 1 else s.count5F46 }

/-- Confirmation of a phase and step. Unlike a report of the phase it neither maps
the strategy nor moves the ring. -/
def packet5F0C (s : Middleware) (packet : TrafficSignalPacket) : Middleware :=
  { s with status := { s.status with
      controlStrategy := packet.info 2
      subPhaseId := packet.info 3
      stepId := packet.info 4 } }

/-- Version of the controller: the newer SHAN_ZHU is another make. -/
def packet0FC3 (s : Middleware) (packet : TrafficSignalPacket) : Middleware :=
  if 0x6E ≤ packet.info 2 ∧ s.config.signalControllerManufacturer = .shanZhu then
    { s with config := { s.config with signalControllerManufacturer := .shanZhuM } }
  else s

end Middleware

/-! ## Dispatch -/

/-- What a packet is about, by its first two INFO bytes. -/
inductive PacketKind
  | phaseReport
  | runningPlan
  | storedPlan
  | planParameters
  | daySegments
  | confirmation
  | phaseOrder
  | version
  | other
  deriving DecidableEq, Repr

def TrafficSignalPacket.kind (packet : TrafficSignalPacket) : PacketKind :=
  if packet.info 0 = 0x5F then
    if packet.info 1 = 0xCC then .phaseReport
    else if packet.info 1 = 0xC8 then .runningPlan
    else if packet.info 1 = 0xC5 then .storedPlan
    else if packet.info 1 = 0xC4 then .planParameters
    else if packet.info 1 = 0xC6 then .daySegments
    else if packet.info 1 = 0x0C then .confirmation
    else if packet.info 1 = 0xC3 then .phaseOrder
    else .other
  else if packet.info 0 = 0x0F ∧ packet.info 1 = 0xC3 then .version
  else .other

/-- The phases a plan packet is about. -/
abbrev Covers (count p : UInt8) : Prop :=
  1 ≤ p ∧ p ≤ count

/-- The green of a phase in a 5FC5 or 5FC8. -/
def TrafficSignalPacket.greenOf (packet : TrafficSignalPacket) (p : UInt8) : UInt16 :=
  packet.word (6 + (p.toNat - 1) * 2)

/-- The flashing pedestrian green of a phase in a 5FC4. -/
def TrafficSignalPacket.pedGreenFlashOf (packet : TrafficSignalPacket) (p : UInt8) : UInt8 :=
  packet.info (9 + (p.toNat - 1) * 7)

/-- The pedestrian red of a phase in a 5FC4. -/
def TrafficSignalPacket.pedRedOf (packet : TrafficSignalPacket) (p : UInt8) : UInt8 :=
  packet.info (10 + (p.toNat - 1) * 7)

/-- The packet under the header `5F code`. -/
def TrafficSignalPacket.headed (code : UInt8) (packet : TrafficSignalPacket) :
    TrafficSignalPacket where
  info
    | 0 => 0x5F
    | 1 => code
    | i => packet.info i

/-- A confirmation of strategy, phase and step. -/
def TrafficSignalPacket.confirmation (controlStrategy subPhaseId stepId : UInt8) :
    TrafficSignalPacket where
  info
    | 0 => 0x5F
    | 1 => 0x0C
    | 2 => controlStrategy
    | 3 => subPhaseId
    | 4 => stepId
    | _ => 0

/-- The parameters of a plan of one phase. -/
def TrafficSignalPacket.onePhaseParameters
    (planId minGreen maxGreen pedGreenFlash pedRed : UInt8) : TrafficSignalPacket where
  info
    | 0 => 0x5F
    | 1 => 0xC4
    | 2 => planId
    | 3 => 1
    | 4 => minGreen
    | 6 => maxGreen
    | 9 => pedGreenFlash
    | 10 => pedRed
    | _ => 0

/-- A plan of one phase, stored (5FC5) or running (5FC8). -/
def TrafficSignalPacket.onePhasePlan (code planId green : UInt8) : TrafficSignalPacket where
  info
    | 0 => 0x5F
    | 1 => code
    | 2 => planId
    | 5 => 1
    | 7 => green
    | _ => 0

namespace Middleware

/-- The handlers `recv_info` calls for an accepted packet. -/
def dispatch (s : Middleware) (packet : TrafficSignalPacket) : Middleware :=
  match packet.kind with
  | .phaseReport => s.packet5FCC packet
  | .runningPlan => s.packet5FC8 packet
  | .storedPlan => s.packet5FC5 packet
  | .planParameters => s.packet5FC4 packet
  | .daySegments => s.packet5FC6 packet
  | .confirmation => s.packet5F0C packet
  | .phaseOrder => s.packet5FC3 packet
  | .version => s.packet0FC3 packet
  | .other => s

/-! ## What a packet changes -/

section Dispatch

variable (s : Middleware) (packet : TrafficSignalPacket)

theorem updatePhaseOrder_cases (phaseOrder : UInt8) :
    (s.updatePhaseOrder phaseOrder =
        { s with status := { s.status with phaseOrder := phaseOrder } } ∧
      s.status.phaseOrder = phaseOrder) ∨
    (s.updatePhaseOrder phaseOrder =
        { s.commandBufClear with
          count5F43 := 0
          status := { s.status with phaseOrder := phaseOrder } } ∧
      s.status.phaseOrder ≠ phaseOrder) := by
  unfold updatePhaseOrder
  by_cases hsame : s.status.phaseOrder = phaseOrder
  · exact Or.inl ⟨by simp [hsame], hsame⟩
  · refine Or.inr ⟨?_, hsame⟩
    simp only [ne_eq, hsame, not_false_eq_true, if_true]
    rfl

/-- A packet about the plan or its parameters leaves the ring and the phase. -/
structure SameRing (s s' : Middleware) : Prop where
  cycle : s'.cycleIndex = s.cycleIndex
  priorCycle : s'.priorCycleIndex = s.priorCycleIndex
  prior : s'.priorSubPhaseId = s.priorSubPhaseId
  phase : s'.status.subPhaseId = s.status.subPhaseId

theorem packet5FC8_sameRing : SameRing s (s.packet5FC8 packet) := by
  rcases updatePhaseOrder_cases { s with status := { s.status with planId := packet.info 2 } }
    (packet.info 4) with ⟨heq, -⟩ | ⟨heq, -⟩
  all_goals
    simp only [packet5FC8, heq]
    exact ⟨rfl, rfl, rfl, rfl⟩

theorem packet5FC5_sameRing : SameRing s (s.packet5FC5 packet) := by
  rcases updatePhaseOrder_cases s (packet.info 4) with ⟨heq, -⟩ | ⟨heq, -⟩
  all_goals
    simp only [packet5FC5, heq]
    exact ⟨rfl, rfl, rfl, rfl⟩

theorem packet0FC3_sameRing : SameRing s (s.packet0FC3 packet) := by
  unfold packet0FC3
  split_ifs <;> exact ⟨rfl, rfl, rfl, rfl⟩

/-- Only a report and a confirmation of the phase move it. -/
theorem dispatch_sameRing (hreport : packet.kind ≠ .phaseReport)
    (hconfirm : packet.kind ≠ .confirmation) : SameRing s (s.dispatch packet) := by
  unfold dispatch
  cases hkind : packet.kind with
  | phaseReport => exact absurd hkind hreport
  | confirmation => exact absurd hkind hconfirm
  | runningPlan => exact packet5FC8_sameRing s packet
  | storedPlan => exact packet5FC5_sameRing s packet
  | version => exact packet0FC3_sameRing s packet
  | planParameters => exact ⟨rfl, rfl, rfl, rfl⟩
  | daySegments => exact ⟨rfl, rfl, rfl, rfl⟩
  | phaseOrder => exact ⟨rfl, rfl, rfl, rfl⟩
  | other => exact ⟨rfl, rfl, rfl, rfl⟩

/-- What the polling timer saw last is not for a packet to change. -/
theorem dispatch_prior :
    (s.dispatch packet).priorSubPhaseId = s.priorSubPhaseId ∧
      (s.dispatch packet).priorCycleIndex = s.priorCycleIndex := by
  by_cases hreport : packet.kind = .phaseReport
  · simp only [dispatch, hreport]
    exact ⟨packet5FCC_priorSubPhaseId s packet, packet5FCC_priorCycleIndex s packet⟩
  · by_cases hconfirm : packet.kind = .confirmation
    · simp only [dispatch, hconfirm]
      exact ⟨rfl, rfl⟩
    · have hring := dispatch_sameRing s packet hreport hconfirm
      exact ⟨hring.prior, hring.priorCycle⟩

/-- A packet leaves the command buffer alone or empties it. -/
theorem dispatch_commandBuf :
    (s.dispatch packet).commandBuf = s.commandBuf ∨
      (s.dispatch packet).commandBuf = fun _ _ => TscCommandObject.cleared := by
  unfold dispatch
  cases hkind : packet.kind with
  | phaseReport => exact Or.inl (packet5FCC_commandBuf s packet)
  | runningPlan =>
      rcases updatePhaseOrder_cases { s with status := { s.status with planId := packet.info 2 } }
        (packet.info 4) with ⟨heq, -⟩ | ⟨heq, -⟩
      · exact Or.inl (by simp only [packet5FC8, heq])
      · exact Or.inr (by simp only [packet5FC8, heq]; rfl)
  | storedPlan =>
      rcases updatePhaseOrder_cases s (packet.info 4) with ⟨heq, -⟩ | ⟨heq, -⟩
      · exact Or.inl (by simp only [packet5FC5, heq])
      · exact Or.inr (by simp only [packet5FC5, heq]; rfl)
  | version =>
      simp only [packet0FC3]
      split_ifs <;> exact Or.inl rfl
  | planParameters => exact Or.inl rfl
  | daySegments => exact Or.inl rfl
  | confirmation => exact Or.inl rfl
  | phaseOrder => exact Or.inl rfl
  | other => exact Or.inl rfl

/-! ## What a packet does to the plans -/

@[simp] theorem updatePhaseOrder_status (phaseOrder : UInt8) :
    (s.updatePhaseOrder phaseOrder).status = { s.status with phaseOrder := phaseOrder } := by
  rcases updatePhaseOrder_cases s phaseOrder with ⟨heq, -⟩ | ⟨heq, -⟩
  · rw [heq]
  · rw [heq]

theorem packet5FC8_status :
    (s.packet5FC8 packet).status = updatePreTimeCompensated (updateGreens
      { s.status with planId := packet.info 2, phaseOrder := packet.info 4 } packet) := by
  simp only [packet5FC8, updatePhaseOrder_status]

theorem packet5FC5_status :
    (s.packet5FC5 packet).status =
      updateGreens { s.status with phaseOrder := packet.info 4 } packet := by
  simp only [packet5FC5, updatePhaseOrder_status]

/-- A running plan brings the greens, and the step 1 seconds as the pedestrian
seconds stored so far give them. -/
theorem dispatch_runningPlan (hkind : packet.kind = .runningPlan) :
    (s.dispatch packet).status.subPhaseCount = packet.info 5 ∧
      ∀ p, (s.dispatch packet).status.plan p =
        if Covers (packet.info 5) p then
          { s.status.plan p with
            green := packet.greenOf p
            preTimeCompensated := packet.greenOf p -
              (s.status.plan p).pedGreenFlash.toUInt16 - (s.status.plan p).pedRed.toUInt16 }
        else s.status.plan p := by
  simp only [dispatch, hkind, packet5FC8_status]
  refine ⟨rfl, fun p => ?_⟩
  simp only [updatePreTimeCompensated, updateGreens]
  split_ifs <;> rfl

/-- A stored plan brings the greens. -/
theorem dispatch_storedPlan (hkind : packet.kind = .storedPlan) :
    (s.dispatch packet).status.subPhaseCount = packet.info 5 ∧
      ∀ p, (s.dispatch packet).status.plan p =
        if Covers (packet.info 5) p then { s.status.plan p with green := packet.greenOf p }
        else s.status.plan p := by
  simp only [dispatch, hkind, packet5FC5_status]
  exact ⟨rfl, fun p => rfl⟩

/-- The parameters bring the pedestrian seconds, and step 1 as the green stored
so far gives it. -/
theorem dispatch_planParameters (hkind : packet.kind = .planParameters) :
    (s.dispatch packet).status.subPhaseCount = packet.info 3 ∧
      ∀ p, (s.dispatch packet).status.plan p =
        if Covers (packet.info 3) p then
          { s.status.plan p with
            minGreen := packet.info (4 + (p.toNat - 1) * 7)
            maxGreen := packet.word (5 + (p.toNat - 1) * 7)
            yellow := packet.info (7 + (p.toNat - 1) * 7)
            allRed := packet.info (8 + (p.toNat - 1) * 7)
            pedGreenFlash := packet.pedGreenFlashOf p
            pedRed := packet.pedRedOf p
            preGreen := (s.status.plan p).green - (packet.pedGreenFlashOf p).toUInt16 }
        else s.status.plan p := by
  simp only [dispatch, hkind]
  exact ⟨rfl, fun p => rfl⟩

/-- The other packets leave the plans. -/
theorem dispatch_otherPlan (hrunning : packet.kind ≠ .runningPlan)
    (hstored : packet.kind ≠ .storedPlan) (hparameters : packet.kind ≠ .planParameters) :
    (s.dispatch packet).status.subPhaseCount = s.status.subPhaseCount ∧
      (s.dispatch packet).status.plan = s.status.plan := by
  unfold dispatch
  cases hkind : packet.kind with
  | runningPlan => exact absurd hkind hrunning
  | storedPlan => exact absurd hkind hstored
  | planParameters => exact absurd hkind hparameters
  | phaseReport =>
      simp only [packet5FCC, updateSubPhase, updateCycleIndex]
      split_ifs <;> exact ⟨rfl, rfl⟩
  | version =>
      simp only [packet0FC3]
      split_ifs <;> exact ⟨rfl, rfl⟩
  | daySegments => exact ⟨rfl, rfl⟩
  | confirmation => exact ⟨rfl, rfl⟩
  | phaseOrder => exact ⟨rfl, rfl⟩
  | other => exact ⟨rfl, rfl⟩

end Dispatch

end Middleware

end AdaptiveSignal.Signal
