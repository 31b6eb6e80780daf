import AdaptiveSignal.Compensation.Conservation
import AdaptiveSignal.Signal.TableAccess

/-! # Phases and steps of the polling timer and the compensation

The polling timer, the test for a running compensation and the compensation itself
index the command buffer, the plans and the seconds of the steps by the phase, the
step and the counts of the status, which come unchecked from the packets. What
they access is listed along the loops of the source; loops with constant bounds
are left out.
-/

namespace AdaptiveSignal.Signal

open Foundation TableAccess

/-! ## The accesses of a compensation -/

namespace TrafficSignalStatus

variable (status : TrafficSignalStatus)

/-- `get_alignment_compensation_time`: the phases after the running one, and the
steps after the running one. The index of the phase is kept in 16 bits. -/
def alignmentAccesses : List TableAccess :=
  let subPhaseId := (status.subPhaseId.toUInt16 - 1).toNat
  let count := status.subPhaseCount.toNat
  let stepId := status.stepId.toNat
  (List.range' (subPhaseId + 1) (count - (subPhaseId + 1))).map (fun i : ℕ => .plan i) ++
    (List.range' stepId (5 - stepId)).flatMap fun step : ℕ =>
      [.plan subPhaseId, .stepArr (step - 1)]

/-- One phase in the search of `traffic_compensation_method3` for the longest green
and the second longest, which is 255 as long as there is none. -/
def rankPhase (roads : ℕ × ℕ) (i : ℕ) : ℕ × ℕ :=
  if (status.planAt roads.1).preGreen < (status.planAt i).preGreen then (i, roads.1)
  else if roads.2 = 255 ∨ (status.planAt roads.2).preGreen < (status.planAt i).preGreen then
    (roads.1, i)
  else roads

def rankPhaseAccesses (roads : ℕ × ℕ) (i : ℕ) : List TableAccess :=
  [.plan i, .plan roads.1] ++
    if (status.planAt roads.1).preGreen < (status.planAt i).preGreen ∨ roads.2 = 255 then []
    else [.plan i, .plan roads.2]

def rankAccesses : List TableAccess :=
  emitted status.rankPhase status.rankPhaseAccesses (0, 255)
    (List.range' 1 (status.subPhaseCount.toNat - 1))

/-- `allocate_compensation_by_weight`, which ends as soon as nothing remains. -/
def weightAccesses (share : PhaseShare) (compensationTime : Int) (seconds : ℕ → Int16) :
    List TableAccess :=
  emitted (status.allocatePhase share compensationTime)
    (fun a i => if a.remaining = 0 then [] else [.plan i]) ⟨seconds, compensationTime⟩
    (List.range status.subPhaseCount.toNat)

/-- The bubble sort of `allocate_remaining_time`. -/
def sortAccesses : List TableAccess :=
  let passes (i : ℕ) := List.range (status.subPhaseCount.toNat - i - 1)
  emitted (fun index i => run status.swapGreens index (passes i))
    (fun index i => emitted status.swapGreens
      (fun index j => [.plan (index j), .plan (index (j + 1))]) index (passes i))
    (fun i => i) (List.range (status.subPhaseCount.toNat - 1))

def remainingAccesses (remaining : Int) (seconds : ℕ → Int16) : List TableAccess :=
  if remaining = 0 then []
  else status.sortAccesses ++ emitted
    (fun a i =>
      if a.remaining = 0 then a
      else status.allocateCompensationByWeight (.whole (status.greenOrder i)) a.remaining a.seconds)
    (fun a i =>
      if a.remaining = 0 then []
      else status.weightAccesses (.whole (status.greenOrder i)) a.remaining a.seconds)
    ⟨seconds, remaining⟩ (List.range status.subPhaseCount.toNat)

def cycleAccesses (share : PhaseShare) (compensation : Int16) : List TableAccess :=
  let byWeight := status.allocateCompensationByWeight share compensation.toInt fun _ => 0
  status.weightAccesses share compensation.toInt (fun _ => 0) ++
    status.remainingAccesses (Int16.ofInt byWeight.remaining).toInt byWeight.seconds

/-- `subphase_ptr` before the loop of `insert_compensation_command`. A reported phase
0 has the index −1, and is moved on to the first phase. -/
def firstPhase (seconds : ℕ → Int16) : ℕ :=
  if status.subPhaseId = 0 then 0 else status.startIndex seconds

/-- `insert_compensation_command`: the bounds of the running phase are compared in
step 1 only; every pass logs the green of its phase. -/
def insertionAccesses (seconds : ℕ → Int16) : List TableAccess :=
  (if status.stepId = 1 then [.plan (status.subPhaseId.toNat - 1)] else []) ++
    emitted status.nextPhase (fun ptr _ => [.plan ptr.2]) (0, status.firstPhase seconds)
      (List.range status.subPhaseCount.toNat)

/-- `implement_compensation_by_weight`. -/
def implementAccesses (share : PhaseShare) (total : Int16) (compCycleNum : ℕ) :
    List TableAccess :=
  (List.range compCycleNum).flatMap fun cycle =>
    status.cycleAccesses share (cycleCompensations total compCycleNum cycle) ++
      status.insertionAccesses (status.cycleAllocation share total compCycleNum cycle).seconds

/-- `is_in_compensation` outside its loops over the whole command buffer. -/
def isInCompensationAccesses : List TableAccess :=
  if status.controlStrategy = 1 then [.plan (status.subPhaseId.toNat - 1)] else []

/-- `command_buf_send` for the running phase. -/
def sendAccesses : List TableAccess :=
  .plan (status.subPhaseId.toNat - 1) :: status.isInCompensationAccesses

end TrafficSignalStatus

/-- What a compensation finds out from the clock and the settings: the shares of the
phases, the total, the number of cycles, and the commands it comes to. -/
structure CompensationCall where
  share : PhaseShare
  total : Int16
  compCycleNum : ℕ
  requests : List CompensationRequest

/-- `command_buf_insert_effect_time`, whose checks precede its accesses. -/
def CompensationRequest.accesses (request : CompensationRequest) : List TableAccess :=
  match request.command.check with
  | some _ => []
  | none => [.plan (request.phase.toNat - 1), .commandBuf (request.phase.toNat - 1)]

namespace Middleware

/-- `start_compensation`: a method that is not known inserts nothing, but reports the
seconds like the others. -/
def startCompensationAccesses (s : Middleware) (call : CompensationCall) : List TableAccess :=
  let method := s.config.trafficCompensationMethod
  if method = 0 then []
  else
    (if 1 ≤ method ∧ method ≤ 3 then
      s.status.alignmentAccesses ++ (if method = 3 then s.status.rankAccesses else []) ++
        s.status.implementAccesses call.share call.total call.compCycleNum ++
        call.requests.flatMap CompensationRequest.accesses
    else []) ++ s.status.alignmentAccesses

/-- `command_buf_polling`. -/
def pollingAccesses (s : Middleware) (call : CompensationCall) : List TableAccess :=
  let prior := TableAccess.commandBuf (s.priorSubPhaseId.toNat - 1)
  let current := TableAccess.commandBuf (s.status.subPhaseId.toNat - 1)
  if s.status.subPhaseId = 0 ∨ s.priorSubPhaseId = 0 then []
  else
    (if s.priorSubPhaseId ≠ s.status.subPhaseId then
      prior :: (if s.leftResumed then s.startCompensationAccesses call else []) ++ [prior, current]
    else []) ++
    current ::
      if (s.beforeSend s.status call.requests).readyToSend s.status then
        s.status.sendAccesses ++ [current]
      else []

end Middleware

/-- What happens to the status and the command buffer, each as one step. -/
inductive TableEvent
  | packet (packet : TrafficSignalPacket)
  | poll (call : CompensationCall)
  | isInCompensation
  | startCompensation (call : CompensationCall)
  /-- The applications leave these commands in the buffer. -/
  | applications (commandBuf : CycleIndex → UInt8 → TscCommandObject)

namespace Middleware

def onTableEvent (s : Middleware) : TableEvent → Middleware
  | .packet packet => s.dispatch packet
  | .poll call => s.commandBufPolling call.requests
  | .isInCompensation => s
  | .startCompensation call => s.startCompensation call.requests
  | .applications commandBuf => { s with commandBuf := commandBuf }

def tableAccesses (s : Middleware) : TableEvent → List TableAccess
  | .packet packet => packetAccesses s.status packet
  | .poll call => s.pollingAccesses call
  | .isInCompensation => s.status.isInCompensationAccesses
  | .startCompensation call => s.startCompensationAccesses call
  | .applications _ => []

end Middleware

/-! ## When they stay in the tables -/

theorem staysInTables_emitted {State Input : Type*} {step : State → Input → State}
    {accesses : State → Input → List TableAccess} {s : State} {inputs : List Input} :
    StaysInTables (emitted step accesses s inputs) ↔
      Guarded step (fun s input => StaysInTables (accesses s input)) s inputs := by
  induction inputs generalizing s with
  | nil => exact iff_of_true staysInTables_nil trivial
  | cons input rest ih =>
      rw [emitted, staysInTables_append, ih]
      rfl

namespace TrafficSignalStatus

variable {status : TrafficSignalStatus} {share : PhaseShare}

/-- A running step before the fifth is one of a phase with a plan, and the phases after
the running one have plans. -/
def AlignmentFits (status : TrafficSignalStatus) : Prop :=
  (5 ≤ status.stepId.toNat ∨
      1 ≤ status.stepId.toNat ∧ 1 ≤ status.subPhaseId.toNat ∧ status.subPhaseId.toNat ≤ 8) ∧
    (status.subPhaseId.toNat = 0 ∨ status.subPhaseCount.toNat ≤ 8 ∨
      status.subPhaseCount.toNat ≤ status.subPhaseId.toNat)

theorem phaseIndex_eq (phase : UInt8) :
    (phase.toUInt16 - 1).toNat = if phase.toNat = 0 then 65535 else phase.toNat - 1 := by
  have hphase := phase.toNat_lt
  rw [UInt16.toNat_sub, UInt8.toNat_toUInt16]
  change (65536 - 1 + phase.toNat) % 65536 = _
  split_ifs <;> omega

theorem alignmentAccesses_stay :
    StaysInTables status.alignmentAccesses ↔ status.AlignmentFits := by
  have hcount := status.subPhaseCount.toNat_lt
  simp only [alignmentAccesses, staysInTables_append, staysInTables_map, staysInTables_flatMap,
    staysInTables_cons, staysInTables_nil, and_true, phaseIndex_eq, AlignmentFits, InBounds,
    phaseCountMaxNum, stepArrLen, List.mem_range'_1]
  generalize status.subPhaseId.toNat = phase
  generalize status.subPhaseCount.toNat = count at *
  generalize status.stepId.toNat = step
  rw [and_comm]
  refine and_congr ⟨fun h => ?_, fun h i hi => ?_⟩ ⟨fun h => ?_, fun h i hi => ?_⟩
  · by_contra hfit
    have hfirst := h step (by omega)
    split_ifs at hfirst <;> omega
  · split_ifs <;> omega
  · by_contra hfit
    have hlast := h (count - 1) (by split_ifs <;> omega)
    omega
  · split_ifs at hi <;> omega

/-- The index of a plan that the table has. -/
theorem plan_inBounds {i : ℕ} : (TableAccess.plan i).InBounds ↔ i < 8 := by
  simp only [InBounds, phaseCountMaxNum]
  omega

theorem rankPhase_bounded {roads : ℕ × ℕ} {i : ℕ} (hi : i < 8)
    (hroads : roads.1 < 8 ∧ (roads.2 = 255 ∨ roads.2 < 8)) :
    (status.rankPhase roads i).1 < 8 ∧
      ((status.rankPhase roads i).2 = 255 ∨ (status.rankPhase roads i).2 < 8) := by
  unfold rankPhase
  split_ifs
  · exact ⟨hi, Or.inr hroads.1⟩
  · exact ⟨hroads.1, Or.inr hi⟩
  · exact hroads

theorem rankAccesses_stay :
    StaysInTables status.rankAccesses ↔ status.subPhaseCount.toNat ≤ 8 := by
  constructor
  · intro h
    by_contra hcount
    have hrange : List.range' 1 7 ++ [8] <+: List.range' 1 (status.subPhaseCount.toNat - 1) := by
      refine ⟨List.range' 9 (status.subPhaseCount.toNat - 1 - 8), ?_⟩
      rw [show List.range' 1 7 ++ [8] = List.range' 1 8 from rfl,
        show 9 = 1 + 8 from rfl, List.range'_append_1]
      congr 1
      omega
    have heighth := (guarded_iff_steps _).mp (staysInTables_emitted.mp h) _ _ hrange
    exact absurd (plan_inBounds.mp (heighth _ List.mem_cons_self)) (by decide)
  · intro hcount
    refine emitted_forall_of_mem _
      (fun roads => roads.1 < 8 ∧ (roads.2 = 255 ∨ roads.2 < 8)) _ _ ⟨by decide, Or.inl rfl⟩ ?_ ?_
    · intro roads i hi hroads
      rw [List.mem_range'_1] at hi
      exact rankPhase_bounded (by omega) hroads
    · intro roads i hi hroads access haccess
      rw [List.mem_range'_1] at hi
      unfold rankPhaseAccesses at haccess
      split_ifs at haccess with hskip
      · simp only [List.append_nil, List.mem_cons, List.not_mem_nil, or_false] at haccess
        rcases haccess with rfl | rfl <;> exact plan_inBounds.mpr (by omega)
      · simp only [List.cons_append, List.nil_append, List.mem_cons, List.not_mem_nil,
          or_false] at haccess
        rcases haccess with rfl | rfl | rfl | rfl <;> exact plan_inBounds.mpr (by omega)

/-- The sort moves the indices of the plans about. -/
theorem swapGreens_bounded {index : ℕ → ℕ} {j : ℕ} (hj : j + 1 < 8)
    (hindex : ∀ k < 8, index k < 8) : ∀ k < 8, status.swapGreens index j k < 8 := by
  intro k hk
  unfold swapGreens
  split_ifs
  · simp only [Function.update_apply]
    split_ifs
    · exact hindex j (by omega)
    · exact hindex (j + 1) hj
    · exact hindex k hk
  · exact hindex k hk

section Phases

variable (hcount : status.subPhaseCount.toNat ≤ 8)
include hcount

theorem weightAccesses_stay (compensationTime : Int) (seconds : ℕ → Int16) :
    StaysInTables (status.weightAccesses share compensationTime seconds) := by
  refine emitted_forall_of_mem _ (fun _ => True) _ _ trivial (fun _ _ _ _ => trivial) ?_
  intro a i hi _ access haccess
  rw [List.mem_range] at hi
  split_ifs at haccess
  · simp at haccess
  · rw [List.mem_singleton.mp haccess]
    exact plan_inBounds.mpr (by omega)

theorem sortAccesses_stay : StaysInTables status.sortAccesses := by
  have hpass {i j : ℕ} (hi : i ∈ List.range (status.subPhaseCount.toNat - 1))
      (hj : j ∈ List.range (status.subPhaseCount.toNat - i - 1)) : j + 1 < 8 := by
    rw [List.mem_range] at hi hj
    omega
  refine emitted_forall_of_mem _ (fun index : ℕ → ℕ => ∀ k < 8, index k < 8) _ _
    (fun k hk => hk) ?_ ?_
  · intro index i hi hindex
    refine run_invariant_of_mem _ (fun index : ℕ → ℕ => ∀ k < 8, index k < 8) _ hindex ?_
    exact fun index j hj hindex => swapGreens_bounded (hpass hi hj) hindex
  · intro index i hi hindex
    refine emitted_forall_of_mem _ (fun index : ℕ → ℕ => ∀ k < 8, index k < 8) _ _ hindex ?_ ?_
    · exact fun index j hj hindex => swapGreens_bounded (hpass hi hj) hindex
    · intro index j hj hindex access haccess
      have hbound := hpass hi hj
      simp only [List.mem_cons, List.not_mem_nil, or_false] at haccess
      rcases haccess with rfl | rfl
      · exact plan_inBounds.mpr (hindex j (by omega))
      · exact plan_inBounds.mpr (hindex (j + 1) hbound)

theorem remainingAccesses_stay (remaining : Int) (seconds : ℕ → Int16) :
    StaysInTables (status.remainingAccesses remaining seconds) := by
  unfold remainingAccesses
  split_ifs
  · exact staysInTables_nil
  · rw [staysInTables_append]
    refine ⟨sortAccesses_stay hcount, ?_⟩
    refine emitted_forall_of_mem _ (fun _ => True) _ _ trivial (fun _ _ _ _ => trivial) ?_
    intro a i _ _ access haccess
    split_ifs at haccess
    · simp at haccess
    · exact weightAccesses_stay hcount _ _ access haccess

theorem cycleAccesses_stay (compensation : Int16) :
    StaysInTables (status.cycleAccesses share compensation) := by
  rw [cycleAccesses, staysInTables_append]
  exact ⟨weightAccesses_stay hcount _ _, remainingAccesses_stay hcount _ _⟩

end Phases

/-- The first pass is at a phase of the plan, or at the running one in its step 1. -/
theorem firstPhase_lt {bound : ℕ} {seconds : ℕ → Int16} (hpositive : 0 < status.subPhaseCount.toNat)
    (hcount : status.subPhaseCount.toNat ≤ bound)
    (hrunning : status.stepId = 1 → status.subPhaseId.toNat ≤ bound) :
    status.firstPhase seconds < bound := by
  unfold firstPhase startIndex
  dsimp only
  have hmod := Nat.mod_lt (status.subPhaseId.toNat - 1 + 1) hpositive
  split_ifs with hphase hmoves
  · omega
  · omega
  · rw [not_or, not_not] at hmoves
    have := hrunning hmoves.1
    omega

theorem insertionAccesses_stay (hcount : status.subPhaseCount.toNat ≤ 8)
    (hfits : status.AlignmentFits) (seconds : ℕ → Int16) :
    StaysInTables (status.insertionAccesses seconds) := by
  have hrunning (hstep : status.stepId = 1) :
      1 ≤ status.subPhaseId.toNat ∧ status.subPhaseId.toNat ≤ 8 := by
    have hone : status.stepId.toNat = 1 := congrArg UInt8.toNat hstep
    have hbounds := hfits.1
    omega
  rw [insertionAccesses, staysInTables_append]
  constructor
  · split_ifs with hstep
    · simp only [staysInTables_cons, staysInTables_nil, and_true, InBounds, phaseCountMaxNum]
      have := hrunning hstep
      omega
    · exact staysInTables_nil
  · rcases Nat.eq_zero_or_pos status.subPhaseCount.toNat with hnone | hpositive
    · rw [hnone]
      exact staysInTables_nil
    refine emitted_forall _ (fun ptr : ℕ × ℕ => ptr.2 < 8) _ ?_ ?_ ?_ _
    · intro ptr i _
      rw [nextPhase_index]
      exact Nat.lt_of_lt_of_le (Nat.mod_lt _ hpositive) hcount
    · intro ptr i hptr access haccess
      rw [List.mem_singleton.mp haccess]
      exact plan_inBounds.mpr hptr
    · exact firstPhase_lt hpositive hcount fun hstep => (hrunning hstep).2

/-- The passes go round all phases of the plan, so that a ninth one is met. -/
theorem not_insertionAccesses_stay (hcount : 8 < status.subPhaseCount.toNat)
    (hstep : status.stepId ≠ 1) (seconds : ℕ → Int16) :
    ¬ StaysInTables (status.insertionAccesses seconds) := by
  rw [insertionAccesses, if_neg hstep, List.nil_append, staysInTables_emitted, guarded_iff_steps]
  have hfirst : status.firstPhase seconds < status.subPhaseCount.toNat :=
    firstPhase_lt (by omega) le_rfl fun hcontra => absurd hcontra hstep
  obtain ⟨k, hk, hninth⟩ : ∃ k < status.subPhaseCount.toNat,
      (status.firstPhase seconds + k) % status.subPhaseCount.toNat = 8 := by
    generalize status.firstPhase seconds = start at *
    generalize status.subPhaseCount.toNat = count at *
    by_cases hstart : start ≤ 8
    · refine ⟨8 - start, by omega, ?_⟩
      rw [show start + (8 - start) = 8 by omega, Nat.mod_eq_of_lt hcount]
    · refine ⟨count - start + 8, by omega, ?_⟩
      rw [show start + (count - start + 8) = count + 8 by omega, Nat.add_mod_left,
        Nat.mod_eq_of_lt hcount]
  intro hstay
  have hprefix : List.range k ++ [k] <+: List.range status.subPhaseCount.toNat := by
    rw [← List.range_succ]
    have htake := List.take_prefix (k + 1) (List.range status.subPhaseCount.toNat)
    rwa [List.take_range, Nat.min_eq_left hk] at htake
  have hplan := plan_inBounds.mp (hstay _ _ hprefix _ (List.mem_singleton_self _))
  rw [run_nextPhase 0 hfirst, hninth] at hplan
  exact absurd hplan (by decide)

/-- Nothing is indexed beyond a plan of eight phases, and a ninth one is met as soon as
there is a cycle to compensate in. -/
theorem implementAccesses_stay (hfits : status.AlignmentFits) (total : Int16)
    (compCycleNum : ℕ) :
    StaysInTables (status.implementAccesses share total compCycleNum) ↔
      (0 < compCycleNum → status.subPhaseCount.toNat ≤ 8) := by
  rw [implementAccesses, staysInTables_flatMap]
  constructor
  · intro hstay hcycles
    by_contra hcount
    refine not_insertionAccesses_stay (by omega) (fun hstep => ?_) _
      (staysInTables_append.mp (hstay 0 (List.mem_range.mpr hcycles))).2
    have hone : status.stepId.toNat = 1 := congrArg UInt8.toNat hstep
    obtain ⟨hbounds, hphases⟩ := hfits
    omega
  · intro hcount cycle hcycle
    have hcount := hcount (Nat.zero_lt_of_lt (List.mem_range.mp hcycle))
    rw [staysInTables_append]
    exact ⟨cycleAccesses_stay hcount _, insertionAccesses_stay hcount hfits _⟩

end TrafficSignalStatus

namespace Middleware

variable {s : Middleware}

/-- A compensation, whatever it compensates, has a phase and a step to align with, and
plans for the phases it distributes seconds over. -/
def CompensationFits (s : Middleware) (call : CompensationCall) : Prop :=
  let method := s.config.trafficCompensationMethod
  method = 0 ∨ s.status.AlignmentFits ∧
    ((1 ≤ method ∧ method ≤ 3) ∧ (method = 3 ∨ 0 < call.compCycleNum) →
      s.status.subPhaseCount.toNat ≤ 8)

/-- The phase before and the phase now have slots in the command buffer. -/
def PollFits (s : Middleware) (call : CompensationCall) : Prop :=
  s.status.subPhaseId = 0 ∨ s.priorSubPhaseId = 0 ∨
    s.status.subPhaseId.toNat ≤ 8 ∧
      (s.priorSubPhaseId ≠ s.status.subPhaseId →
        s.priorSubPhaseId.toNat ≤ 8 ∧ (s.leftResumed = true → s.CompensationFits call))

/-- The counts, phases and steps the event works with fit the tables. -/
def TablesFit (s : Middleware) : TableEvent → Prop
  | .packet packet => CountsFit s.status packet
  | .poll call => s.PollFits call
  | .isInCompensation =>
      s.status.controlStrategy = 1 →
        1 ≤ s.status.subPhaseId.toNat ∧ s.status.subPhaseId.toNat ≤ 8
  | .startCompensation call => s.CompensationFits call
  | .applications _ => True

/-- An index one below a phase. -/
theorem phase_inBounds {phase : ℕ} :
    (0 ≤ (phase : ℤ) - 1 ∧ (phase : ℤ) - 1 < (8 : ℕ)) ↔ 1 ≤ phase ∧ phase ≤ 8 := by
  omega

/-- The plan and the slot of a phase. -/
theorem phaseAccesses_stay {phase : UInt8} :
    StaysInTables [.plan (phase.toNat - 1), .commandBuf (phase.toNat - 1)] ↔
      1 ≤ phase.toNat ∧ phase.toNat ≤ 8 := by
  rw [staysInTables_cons, staysInTables_cons, and_iff_left staysInTables_nil]
  exact (and_congr phase_inBounds phase_inBounds).trans and_self_iff

/-- The insertion checks the phase before it uses it. -/
theorem requests_stay (requests : List CompensationRequest) :
    StaysInTables (requests.flatMap CompensationRequest.accesses) := by
  rw [staysInTables_flatMap]
  intro request _
  unfold CompensationRequest.accesses
  split
  · exact staysInTables_nil
  · next hcheck => exact phaseAccesses_stay.mpr (phase_of_check hcheck)

theorem startCompensationAccesses_stay (call : CompensationCall) :
    StaysInTables (s.startCompensationAccesses call) ↔ s.CompensationFits call := by
  unfold startCompensationAccesses CompensationFits
  dsimp only
  by_cases hnone : s.config.trafficCompensationMethod = 0
  · exact iff_of_true (by rw [if_pos hnone]; exact staysInTables_nil) (Or.inl hnone)
  rw [if_neg hnone, or_iff_right hnone, staysInTables_append,
    TrafficSignalStatus.alignmentAccesses_stay, and_comm]
  refine and_congr_right fun hfits => ?_
  by_cases hknown : 1 ≤ s.config.trafficCompensationMethod ∧ s.config.trafficCompensationMethod ≤ 3
  · rw [if_pos hknown, staysInTables_append, staysInTables_append, staysInTables_append,
      TrafficSignalStatus.alignmentAccesses_stay,
      TrafficSignalStatus.implementAccesses_stay hfits, and_iff_left (requests_stay _),
      and_iff_right hfits]
    split_ifs with hthird
    · rw [TrafficSignalStatus.rankAccesses_stay]
      refine ⟨fun h _ => h.1, fun h => ?_⟩
      have hcount := h ⟨hknown, Or.inl hthird⟩
      exact ⟨hcount, fun _ => hcount⟩
    · rw [and_iff_right staysInTables_nil]
      exact ⟨fun h hcall => h (hcall.2.resolve_left hthird),
        fun h hcycles => h ⟨hknown, Or.inr hcycles⟩⟩
  · rw [if_neg hknown]
    exact iff_of_true staysInTables_nil fun hcall => absurd hcall.1 hknown

theorem isInCompensationAccesses_stay {status : TrafficSignalStatus} :
    StaysInTables status.isInCompensationAccesses ↔
      (status.controlStrategy = 1 →
        1 ≤ status.subPhaseId.toNat ∧ status.subPhaseId.toNat ≤ 8) := by
  unfold TrafficSignalStatus.isInCompensationAccesses
  split_ifs with hpretime
  · rw [staysInTables_cons, and_iff_left staysInTables_nil]
    exact phase_inBounds.trans (true_imp_iff.symm.trans (by simp [hpretime]))
  · exact iff_of_true staysInTables_nil fun hcontra => absurd hcontra hpretime

/-- A phase that is not 0 has a slot exactly if there are so many. -/
theorem slot_inBounds {phase : UInt8} (hphase : phase ≠ 0) :
    (TableAccess.commandBuf (phase.toNat - 1)).InBounds ↔ phase.toNat ≤ 8 := by
  have hpositive : 1 ≤ phase.toNat := Nat.pos_of_ne_zero fun hzero =>
    hphase (UInt8.toNat_inj.mp hzero)
  exact phase_inBounds.trans (and_iff_right hpositive)

theorem sendAccesses_stay {status : TrafficSignalStatus} (hphase : status.subPhaseId ≠ 0)
    (hle : status.subPhaseId.toNat ≤ 8) : StaysInTables status.sendAccesses := by
  have hbounds := (slot_inBounds hphase).mpr hle
  rw [TrafficSignalStatus.sendAccesses, staysInTables_cons, isInCompensationAccesses_stay]
  exact ⟨hbounds, fun _ => phase_inBounds.mp hbounds⟩

theorem pollingAccesses_stay (call : CompensationCall) :
    StaysInTables (s.pollingAccesses call) ↔ s.PollFits call := by
  unfold pollingAccesses PollFits
  dsimp only
  by_cases hearly : s.status.subPhaseId = 0 ∨ s.priorSubPhaseId = 0
  · rw [if_pos hearly, ← or_assoc]
    exact iff_of_true staysInTables_nil (Or.inl hearly)
  rw [if_neg hearly, ← or_assoc, or_iff_right hearly]
  obtain ⟨hcurrent, hprior⟩ := not_or.mp hearly
  rw [staysInTables_append, staysInTables_cons, slot_inBounds hcurrent]
  have hsend (hle : s.status.subPhaseId.toNat ≤ 8) : StaysInTables
      (if (s.beforeSend s.status call.requests).readyToSend s.status then
        s.status.sendAccesses ++
          [TableAccess.commandBuf (s.status.subPhaseId.toNat - 1)]
      else []) := by
    split_ifs
    · rw [staysInTables_append, staysInTables_cons, slot_inBounds hcurrent]
      exact ⟨sendAccesses_stay hcurrent hle, hle, staysInTables_nil⟩
    · exact staysInTables_nil
  have hcross : StaysInTables
      (TableAccess.commandBuf (s.priorSubPhaseId.toNat - 1) ::
        (if s.leftResumed then s.startCompensationAccesses call else []) ++
        [TableAccess.commandBuf (s.priorSubPhaseId.toNat - 1),
          TableAccess.commandBuf (s.status.subPhaseId.toNat - 1)]) ↔
      (s.priorSubPhaseId.toNat ≤ 8 ∧ (s.leftResumed = true → s.CompensationFits call)) ∧
        s.status.subPhaseId.toNat ≤ 8 := by
    rw [staysInTables_append, staysInTables_cons, staysInTables_cons, staysInTables_cons,
      slot_inBounds hprior, slot_inBounds hcurrent, ← startCompensationAccesses_stay,
      and_iff_left staysInTables_nil]
    split_ifs with hresumed
    · simp only [hresumed, true_imp_iff]
      tauto
    · simp only [hresumed, staysInTables_nil, Bool.false_eq_true, false_imp_iff]
      tauto
  constructor
  · rintro ⟨hfirst, hle, -⟩
    refine ⟨hle, fun hne => ?_⟩
    rw [if_pos hne] at hfirst
    exact (hcross.mp hfirst).1
  · rintro ⟨hle, hcrosses⟩
    refine ⟨?_, hle, hsend hle⟩
    by_cases hne : s.priorSubPhaseId ≠ s.status.subPhaseId
    · rw [if_pos hne]
      exact hcross.mpr ⟨hcrosses hne, hle⟩
    · rw [if_neg hne]
      exact staysInTables_nil

theorem tableAccesses_stay (event : TableEvent) :
    StaysInTables (s.tableAccesses event) ↔ s.TablesFit event := by
  cases event with
  | packet packet => exact packetAccesses_stay
  | poll call => exact pollingAccesses_stay call
  | isInCompensation => exact isInCompensationAccesses_stay
  | startCompensation call => exact startCompensationAccesses_stay call
  | applications commandBuf => exact iff_of_true staysInTables_nil trivial

/-- Of every sequence of packets, polls, tests and compensations, from any state: every
table is indexed within its bounds exactly if every event finds counts, phases and
steps that fit the tables. -/
theorem tables_stay_iff (s : Middleware) (events : List TableEvent) :
    StaysInTables (emitted onTableEvent tableAccesses s events) ↔
      Guarded onTableEvent TablesFit s events := by
  rw [staysInTables_emitted]
  exact guarded_congr fun _ event => tableAccesses_stay event

/-- A running plan of nine phases is stored beyond the plans, the last segment of 39 is
read beyond INFO, and in phase 9 the test for a compensation reads a ninth plan. -/
theorem ninth_phase_indexed :
    let s := boot .initial (.initial fun _ => .unset)
    let announcing (code count : UInt8) : TrafficSignalPacket :=
      .headed code ⟨fun _ => count⟩
    ¬ StaysInTables (emitted onTableEvent tableAccesses s [.packet (announcing 0xC8 9)]) ∧
      ¬ StaysInTables (emitted onTableEvent tableAccesses s [.packet (announcing 0xC6 39)]) ∧
      ¬ StaysInTables (emitted onTableEvent tableAccesses s
        [.packet (.confirmation 1 9 1), .isInCompensation]) := by
  intro s announcing
  simp only [staysInTables_emitted]
  refine ⟨fun h => ?_, fun h => ?_, fun h => ?_⟩
  · have hcount : 9 ≤ 8 := (tableAccesses_stay _).mp h.1
    exact absurd hcount (by decide)
  · have hcount : 39 ≤ 38 := (tableAccesses_stay _).mp h.1
    exact absurd hcount (by decide)
  · have hphase := (tableAccesses_stay .isInCompensation).mp h.2.1 rfl
    exact absurd hphase.2 (by decide)

end Middleware

end AdaptiveSignal.Signal
