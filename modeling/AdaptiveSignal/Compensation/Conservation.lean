import AdaptiveSignal.Compensation.Allocation
import AdaptiveSignal.CommandBuffer.Events
import AdaptiveSignal.CommandBuffer.GreenBounds
import Mathlib.Algebra.BigOperators.Fin
import Mathlib.Algebra.Group.Fin.Basic

/-! # What the command buffer keeps of a compensation

The seconds allocated to a phase are added to its green and inserted into the command
buffer, which bounds the green a second time. The allocation bounds the green without
the pedestrian seconds, the insertion with them.
-/

namespace AdaptiveSignal.Signal

open Foundation

/-- The seconds inserted for one phase of one cycle. -/
structure Allotment where
  cycle : ℕ
  index : ℕ
  seconds : Int16
  deriving DecidableEq

def Allotment.request (status : TrafficSignalStatus) (allotment : Allotment) :
    CompensationRequest where
  cycle := UInt8.ofNat allotment.cycle
  phase := phaseAt allotment.index
  effectTime := Int16.ofInt ((status.planAt allotment.index).preGreen.toInt16.toInt +
    allotment.seconds.toInt)

namespace TrafficSignalStatus

variable (status : TrafficSignalStatus)

/-- The first phase to compensate: the running one, as long as its first step lasts and
its remaining seconds stay within the green bounds, else the next one. -/
def startIndex (seconds : ℕ → Int16) : ℕ :=
  let current := status.subPhaseId.toNat - 1
  let plan := status.planAt current
  let left : Int := status.stepSec.toNat - (seconds current).toInt
  if status.stepId ≠ 1 ∨ left < plan.minGreen.toNat ∨ plan.maxGreen.toNat < left then
    (current + 1) % status.subPhaseCount.toNat
  else current

/-- `cycle_ptr` and `subphase_ptr` move on to the next phase. -/
def nextPhase (ptr : ℕ × ℕ) (_ : ℕ) : ℕ × ℕ :=
  if status.subPhaseCount.toNat ≤ ptr.2 + 1 then
    ((ptr.1 + 1) % cycleNum, (ptr.2 + 1) % status.subPhaseCount.toNat)
  else (ptr.1, ptr.2 + 1)

/-- Some phase after the one of pass `i` has seconds. -/
def compensatesLater (seconds : ℕ → Int16) (index i : ℕ) : Bool :=
  (List.range (status.subPhaseCount.toNat - (i + 1))).any fun j =>
    seconds ((index + j + 1) % status.subPhaseCount.toNat) ≠ 0

/-- The insertion for one phase. The last cycle ends with the last phase that has
seconds. -/
def allot (compCycleNum cycleIndex : ℕ) (seconds : ℕ → Int16) (ptr : ℕ × ℕ) (i : ℕ) :
    List Allotment :=
  if compCycleNum - 1 ≤ cycleIndex ∧ seconds ptr.2 = 0 ∧
      status.compensatesLater seconds ptr.2 i = false then []
  else [⟨ptr.1, ptr.2, seconds ptr.2⟩]

/-- `insert_compensation_command`: what it inserts for one cycle, in order. -/
def insertCompensationCommand (compCycleNum cycleIndex : ℕ) (seconds : ℕ → Int16) :
    List Allotment :=
  emitted status.nextPhase (status.allot compCycleNum cycleIndex seconds)
    (cycleIndex % cycleNum, status.startIndex seconds) (List.range status.subPhaseCount.toNat)

variable (share : PhaseShare) (total : Int16) (compCycleNum : ℕ)

/-- The allocation of each cycle of a compensation. -/
def cycleAllocation (cycle : ℕ) : Allocation :=
  status.allocateCycle share (cycleCompensations total compCycleNum cycle)

/-- `implement_compensation_by_weight`. -/
def implementCompensationByWeight : List Allotment :=
  (List.range compCycleNum).flatMap fun cycle =>
    status.insertCompensationCommand compCycleNum cycle
      (status.cycleAllocation share total compCycleNum cycle).seconds

/-- The seconds no phase could take. -/
def compensationRemainder : Int :=
  ∑ cycle ∈ Finset.range compCycleNum,
    (status.cycleAllocation share total compCycleNum cycle).remaining

end TrafficSignalStatus

/-! ## One pass over the phases -/

section Pass

variable {status : TrafficSignalStatus} {compCycleNum cycleIndex : ℕ} {seconds : ℕ → Int16}

/-- The running phase is a phase of the plan. -/
def TrafficSignalStatus.RunsPhase (status : TrafficSignalStatus) : Prop :=
  1 ≤ status.subPhaseId.toNat ∧ status.subPhaseId.toNat ≤ status.subPhaseCount.toNat

instance (status : TrafficSignalStatus) : Decidable status.RunsPhase :=
  inferInstanceAs (Decidable (_ ∧ _))

/-- The running phase by its array index. -/
theorem planAt_running (hruns : 1 ≤ status.subPhaseId.toNat) :
    status.planAt (status.subPhaseId.toNat - 1) = status.plan status.subPhaseId := by
  rw [TrafficSignalStatus.planAt, phaseAt, Nat.sub_add_cancel hruns, UInt8.ofNat_toNat]

theorem startIndex_lt (hruns : status.RunsPhase) :
    status.startIndex seconds < status.subPhaseCount.toNat := by
  unfold TrafficSignalStatus.RunsPhase at hruns
  unfold TrafficSignalStatus.startIndex
  dsimp only
  split_ifs
  · exact Nat.mod_lt _ (by omega)
  · omega

theorem nextPhase_index (ptr : ℕ × ℕ) (i : ℕ) :
    (status.nextPhase ptr i).2 = (ptr.2 + 1) % status.subPhaseCount.toNat := by
  unfold TrafficSignalStatus.nextPhase
  split_ifs
  · rfl
  · exact (Nat.mod_eq_of_lt (by omega)).symm

/-- The passes go round the phases. -/
theorem run_nextPhase (cycle : ℕ) {start : ℕ} (hstart : start < status.subPhaseCount.toNat)
    (passes : ℕ) :
    (run status.nextPhase (cycle, start) (List.range passes)).2 =
      (start + passes) % status.subPhaseCount.toNat := by
  induction passes with
  | zero => exact (Nat.mod_eq_of_lt hstart).symm
  | succ passes ih =>
      rw [List.range_succ, run_concat, nextPhase_index, ih, Nat.mod_add_mod, Nat.add_assoc]

theorem nextPhase_bounded {ptr : ℕ × ℕ} (i : ℕ)
    (hptr : ptr.1 < cycleNum ∧ ptr.2 < status.subPhaseCount.toNat) :
    (status.nextPhase ptr i).1 < cycleNum ∧
      (status.nextPhase ptr i).2 < status.subPhaseCount.toNat := by
  rw [nextPhase_index]
  refine ⟨?_, Nat.mod_lt _ (by omega)⟩
  unfold TrafficSignalStatus.nextPhase
  split_ifs
  · exact Nat.mod_lt _ (by decide)
  · exact hptr.1

/-- Every insertion is for a phase of the plan and carries the seconds allocated to it. -/
theorem insertCompensationCommand_mem (hruns : status.RunsPhase) {allotment : Allotment}
    (hmem : allotment ∈ status.insertCompensationCommand compCycleNum cycleIndex seconds) :
    allotment.cycle < cycleNum ∧ allotment.index < status.subPhaseCount.toNat ∧
      allotment.seconds = seconds allotment.index := by
  refine emitted_forall _
    (fun ptr => ptr.1 < cycleNum ∧ ptr.2 < status.subPhaseCount.toNat)
    (fun allotment => allotment.cycle < cycleNum ∧
      allotment.index < status.subPhaseCount.toNat ∧
      allotment.seconds = seconds allotment.index) ?_ ?_ ?_ _ allotment hmem
  · intro ptr i hptr
    exact nextPhase_bounded i hptr
  · intro ptr i hptr allotment hallot
    unfold TrafficSignalStatus.allot at hallot
    split_ifs at hallot
    · simp at hallot
    · rw [List.mem_singleton] at hallot
      subst hallot
      exact ⟨hptr.1, hptr.2, rfl⟩
  · exact ⟨Nat.mod_lt _ (by decide), startIndex_lt hruns⟩

/-- A phase that is passed over has no seconds. -/
theorem sum_allot (ptr : ℕ × ℕ) (i : ℕ) :
    ((status.allot compCycleNum cycleIndex seconds ptr i).map fun allotment =>
      allotment.seconds.toInt).sum = (seconds ptr.2).toInt := by
  unfold TrafficSignalStatus.allot
  split_ifs with hskip
  · simp [hskip.2.1]
  · simp

theorem sum_range_rotate (f : ℕ → Int) {start count : ℕ} (hstart : start < count) :
    ∑ i ∈ Finset.range count, f ((start + i) % count) = ∑ i ∈ Finset.range count, f i := by
  obtain ⟨n, rfl⟩ : ∃ n, count = n + 1 := ⟨count - 1, by omega⟩
  rw [Finset.sum_range, Finset.sum_range]
  exact Equiv.sum_comp (Equiv.addLeft (⟨start, hstart⟩ : Fin (n + 1))) fun i => f i

/-- Altogether a cycle inserts the seconds allocated to its phases. -/
theorem sum_insertCompensationCommand (hruns : status.RunsPhase) :
    ((status.insertCompensationCommand compCycleNum cycleIndex seconds).map fun allotment =>
      allotment.seconds.toInt).sum =
      ∑ index ∈ Finset.range status.subPhaseCount.toNat, (seconds index).toInt := by
  have hstart : status.startIndex seconds < status.subPhaseCount.toNat := startIndex_lt hruns
  have hpasses : ∀ passes, ((emitted status.nextPhase (status.allot compCycleNum cycleIndex seconds)
      (cycleIndex % cycleNum, status.startIndex seconds) (List.range passes)).map fun allotment =>
        allotment.seconds.toInt).sum =
      ∑ i ∈ Finset.range passes,
        (seconds ((status.startIndex seconds + i) % status.subPhaseCount.toNat)).toInt := by
    intro passes
    induction passes with
    | zero => rfl
    | succ passes ih =>
        rw [List.range_succ, emitted_concat, List.map_append, List.sum_append, ih, sum_allot,
          run_nextPhase _ hstart, Finset.sum_range_succ]
  unfold TrafficSignalStatus.insertCompensationCommand
  rw [hpasses]
  exact sum_range_rotate (fun index => (seconds index).toInt) hstart

/-- A round of cycles inserts all of the total but what no phase could take. -/
theorem sum_implementCompensationByWeight (hruns : status.RunsPhase)
    (hgreens : status.GreensBounded) (share : PhaseShare) (total : Int16)
    (hcycles : 0 < compCycleNum) :
    ((status.implementCompensationByWeight share total compCycleNum).map fun allotment =>
      allotment.seconds.toInt).sum =
      total.toInt - status.compensationRemainder share total compCycleNum := by
  have hcycle : ∀ cycle,
      ((status.insertCompensationCommand compCycleNum cycle
          (status.cycleAllocation share total compCycleNum cycle).seconds).map fun allotment =>
        allotment.seconds.toInt).sum =
      (cycleCompensations total compCycleNum cycle).toInt -
        (status.cycleAllocation share total compCycleNum cycle).remaining := by
    intro cycle
    have hamount := (allocateCycle_sound hgreens share
      (cycleCompensations total compCycleNum cycle)).amount
    rw [sum_insertCompensationCommand hruns, ← hamount]
    exact (add_sub_cancel_right _ _).symm
  have hround : ∀ upTo, (((List.range upTo).flatMap fun cycle =>
      status.insertCompensationCommand compCycleNum cycle
        (status.cycleAllocation share total compCycleNum cycle).seconds).map fun allotment =>
          allotment.seconds.toInt).sum =
      ∑ cycle ∈ Finset.range upTo, ((cycleCompensations total compCycleNum cycle).toInt -
        (status.cycleAllocation share total compCycleNum cycle).remaining) := by
    intro upTo
    induction upTo with
    | zero => rfl
    | succ upTo ih =>
        rw [List.range_succ, List.flatMap_append, List.map_append, List.sum_append, ih,
          List.flatMap_singleton, hcycle, Finset.sum_range_succ]
  unfold TrafficSignalStatus.implementCompensationByWeight TrafficSignalStatus.compensationRemainder
  rw [hround, ← sum_cycleCompensations total hcycles, ← Finset.sum_sub_distrib]

/-- Every insertion is for a phase of the plan and leaves its green within its bounds. -/
theorem implementCompensationByWeight_mem (hruns : status.RunsPhase)
    (hgreens : status.GreensBounded) {share : PhaseShare} {total : Int16} {allotment : Allotment}
    (hmem : allotment ∈ status.implementCompensationByWeight share total compCycleNum) :
    allotment.cycle < cycleNum ∧ allotment.index < status.subPhaseCount.toNat ∧
      (status.planAt allotment.index).minGreen.toNat ≤
        (status.planAt allotment.index).preGreen.toNat + allotment.seconds.toInt := by
  obtain ⟨cycle, -, hmem⟩ := List.mem_flatMap.mp hmem
  obtain ⟨hcycle, hindex, hseconds⟩ := insertCompensationCommand_mem hruns hmem
  have hsound := allocateCycle_sound hgreens share (cycleCompensations total compCycleNum cycle)
  refine ⟨hcycle, hindex, ?_⟩
  rw [hseconds]
  exact (hsound.bounded allotment.index hindex).1

end Pass

/-! ## Accepted commands -/

namespace Middleware

/-- The command is accepted. -/
def acceptsCommand (s : Middleware) (command : TscCommand) : Prop :=
  (s.commandBufInsertEffectTime command).1 = .insertAccept

instance (s : Middleware) (command : TscCommand) : Decidable (s.acceptsCommand command) :=
  inferInstanceAs (Decidable (_ = _))

theorem inserted_keeps (s : Middleware) (command : TscCommand) :
    (s.inserted command).status = s.status ∧
      (s.inserted command).cycleIndex = s.cycleIndex := by
  by_cases haccept : s.acceptsCommand command
  · rw [inserted, (insert_accepted haccept).2.2]
    exact ⟨rfl, rfl⟩
  · rw [inserted, insert_refused haccept]
    exact ⟨rfl, rfl⟩

theorem inserted_run_keeps (s : Middleware) (commands : List TscCommand) :
    (run inserted s commands).status = s.status ∧
      (run inserted s commands).cycleIndex = s.cycleIndex := by
  induction commands generalizing s with
  | nil => exact ⟨rfl, rfl⟩
  | cons command rest ih =>
      obtain ⟨hstatus, hcycle⟩ := inserted_keeps s command
      obtain ⟨hstatus', hcycle'⟩ := ih (s.inserted command)
      exact ⟨hstatus'.trans hstatus, hcycle'.trans hcycle⟩

/-- The commands address one slot. -/
def SameSlot (s : Middleware) (command other : TscCommand) : Prop :=
  s.slotCycle command = s.slotCycle other ∧ command.phase = other.phase

theorem target_of_sameSlot {s : Middleware} {command other : TscCommand}
    (hslot : s.SameSlot command other) : s.target command = s.target other := by
  unfold target
  rw [hslot.1, hslot.2]

theorem sameSlot_of_cycleIndex {s s' : Middleware} (hcycle : s'.cycleIndex = s.cycleIndex)
    {command other : TscCommand} : s'.SameSlot command other ↔ s.SameSlot command other := by
  simp only [SameSlot, slotCycle, hcycle]

/-- An insert into another slot leaves the object a command addresses. -/
theorem inserted_target_of_ne {s : Middleware} {last command : TscCommand}
    (haccept : s.acceptsCommand last) (hslot : ¬ s.SameSlot last command) :
    (s.inserted last).target command = s.target command := by
  have hcycle : (s.inserted last).slotCycle command = s.slotCycle command := by
    simp only [slotCycle, (inserted_keeps s last).2]
  unfold target
  rw [hcycle, inserted, (insert_accepted haccept).2.2]
  apply setSlot_of_ne
  rintro ⟨hcycle', hphase⟩
  exact hslot ⟨hcycle'.symm, hphase.symm⟩

/-- When all commands are accepted, the slot of each holds the clamped request of one
that addresses it. -/
theorem accepted_run_target {s : Middleware} {commands : List TscCommand}
    (haccepted : Guarded inserted acceptsCommand s commands) {command : TscCommand}
    (hmem : command ∈ commands) :
    ∃ last ∈ commands, s.SameSlot last command ∧
      (((run inserted s commands).target command).effectTime.toNat : Int) =
        greenClamp (s.status.plan last.phase) last.effectTime.toInt % 256 := by
  induction commands using List.reverseRecOn with
  | nil => simp at hmem
  | append_singleton commands last ih =>
      obtain ⟨hbefore, haccept⟩ := Guarded.concat.mp haccepted
      obtain ⟨hstatus, hcycle⟩ := inserted_run_keeps s commands
      rw [run_concat]
      by_cases hslot : s.SameSlot last command
      · refine ⟨last, by simp, hslot, ?_⟩
        have hafter : ((run inserted s commands).inserted last).SameSlot last command :=
          (sameSlot_of_cycleIndex ((inserted_keeps _ last).2.trans hcycle)).mpr hslot
        rw [← target_of_sameSlot hafter, ← hstatus]
        exact stored_eq_greenClamp haccept
      · have hne : command ≠ last := by
          rintro rfl
          exact hslot ⟨rfl, rfl⟩
        obtain ⟨earlier, hearlier, hsame, hstored⟩ := ih hbefore (by simpa [hne] using hmem)
        refine ⟨earlier, by simp [hearlier], hsame, ?_⟩
        rw [inserted_target_of_ne haccept (mt (sameSlot_of_cycleIndex hcycle).mp hslot)]
        exact hstored

theorem startCompensation_target {s : Middleware} (requests : List CompensationRequest)
    (hmethod : 1 ≤ s.config.trafficCompensationMethod ∧ s.config.trafficCompensationMethod ≤ 3)
    (command : TscCommand) :
    (s.startCompensation requests).target command =
      (run inserted s (requests.map CompensationRequest.command)).target command := by
  have hcycle := (startCompensation_samePosition s requests).cycle
  have hcycle' := (inserted_run_keeps s (requests.map CompensationRequest.command)).2
  simp only [target, slotCycle, startCompensation_commandBuf requests hmethod, hcycle, hcycle']

/-! ## Conservation -/

section Round

variable (s : Middleware) (share : PhaseShare) (total : Int16) (compCycleNum : ℕ)

/-- The seconds and slots of a round of compensation. -/
abbrev allotments : List Allotment :=
  s.status.implementCompensationByWeight share total compCycleNum

def compensationRequests : List CompensationRequest :=
  (s.allotments share total compCycleNum).map (Allotment.request s.status)

/-- What the buffer holds for an allotment when the compensation has started. -/
def compensatedSeconds (allotment : Allotment) : Int :=
  ((s.startCompensation (s.compensationRequests share total compCycleNum)).target
    (allotment.request s.status).command).effectTime.toNat

def plannedGreen (allotment : Allotment) : Int :=
  (s.status.planAt allotment.index).preGreen.toNat

/-- The buffer holds the green of every phase with the seconds allocated to it, and
these add up to the total but for the remainder. -/
def CompensationConserved : Prop :=
  (∀ allotment ∈ s.allotments share total compCycleNum,
    s.compensatedSeconds share total compCycleNum allotment =
      s.plannedGreen allotment + allotment.seconds.toInt) ∧
  ((s.allotments share total compCycleNum).map fun allotment =>
      s.compensatedSeconds share total compCycleNum allotment - s.plannedGreen allotment).sum =
    total.toInt - s.status.compensationRemainder share total compCycleNum

instance : Decidable (s.CompensationConserved share total compCycleNum) :=
  inferInstanceAs (Decidable (_ ∧ _))

/-- The green of the phase with its seconds fits a byte, and the pedestrian seconds on
top of it stay within the upper bound, or go beyond it by a multiple of 256. -/
def Unclamped (allotment : Allotment) : Prop :=
  let plan := s.status.planAt allotment.index
  let green := s.plannedGreen allotment + allotment.seconds.toInt
  green ≤ 255 ∧ (green + plan.pedGreen ≤ plan.maxGreen.toNat ∨
    (green + plan.pedGreen - plan.maxGreen.toNat) % 256 = 0)

instance (allotment : Allotment) : Decidable (s.Unclamped allotment) :=
  inferInstanceAs (Decidable (_ ∧ _))

/-- A round of a compensation method from a plan in order, with every command accepted. -/
structure AcceptedRound : Prop where
  method : 1 ≤ s.config.trafficCompensationMethod ∧ s.config.trafficCompensationMethod ≤ 3
  cycles : 0 < compCycleNum
  runs : s.status.RunsPhase
  greens : s.status.GreensBounded
  accepted : Guarded inserted acceptsCommand s
    ((s.compensationRequests share total compCycleNum).map CompensationRequest.command)

/-- No slot is given different seconds. -/
def SlotsAgree : Prop :=
  ∀ allotment ∈ s.allotments share total compCycleNum,
    ∀ other ∈ s.allotments share total compCycleNum,
      other.cycle = allotment.cycle → other.index = allotment.index →
        other.seconds = allotment.seconds

instance : Decidable (s.SlotsAgree share total compCycleNum) :=
  inferInstanceAs (Decidable (∀ _ ∈ _, ∀ _ ∈ _, _ → _ → _))

end Round

/-- A green from its lower bound on is stored as it is when it passes the upper clamp. -/
theorem greenClamp_byte_iff (plan : StaticPlan) {green : Int}
    (hmin : plan.minGreen.toNat ≤ green) (hbyte : green ≤ 255) :
    greenClamp plan green % 256 = green ↔
      green + plan.pedGreen ≤ plan.maxGreen.toNat ∨
        (green + plan.pedGreen - plan.maxGreen.toNat) % 256 = 0 := by
  have hped := (pedGreen_bounds plan).1
  have hlow : ¬ green + plan.pedGreen < plan.minGreen.toNat := by omega
  unfold greenClamp
  rw [if_neg hlow]
  dsimp only
  split_ifs <;> omega

/-- The 16 bits of a request hold every time that fits a byte. -/
theorem request_effectTime (status : TrafficSignalStatus) {allotment : Allotment}
    (hnonneg : 0 ≤ (status.planAt allotment.index).preGreen.toNat + allotment.seconds.toInt)
    (hbyte : (status.planAt allotment.index).preGreen.toNat + allotment.seconds.toInt ≤ 255) :
    (allotment.request status).effectTime.toInt =
      (status.planAt allotment.index).preGreen.toNat + allotment.seconds.toInt := by
  have hgreen : (status.planAt allotment.index).preGreen.toInt16.toInt =
      ((status.planAt allotment.index).preGreen.toNat : Int).bmod (2 ^ 16) :=
    BitVec.toInt_eq_toNat_bmod _
  simp only [Allotment.request]
  rw [Int16.toInt_ofInt, hgreen]
  change Int.bmod (Int.bmod _ 65536 + _) 65536 = _
  rw [Int.bmod_add_bmod]
  exact Int.bmod_eq_of_le (by omega) (by omega)

section Main

variable {s : Middleware} {share : PhaseShare} {total : Int16} {compCycleNum : ℕ}

/-- Allotments for one slot are for one cycle and one phase. -/
theorem eq_of_sameSlot {allotment other : Allotment} (hcycle : allotment.cycle < cycleNum)
    (hindex : allotment.index < s.status.subPhaseCount.toNat) (hcycle' : other.cycle < cycleNum)
    (hindex' : other.index < s.status.subPhaseCount.toNat)
    (hslot : s.SameSlot (allotment.request s.status).command (other.request s.status).command) :
    allotment.cycle = other.cycle ∧ allotment.index = other.index := by
  obtain ⟨hring, hphase⟩ := hslot
  have hcount := s.status.subPhaseCount.toNat_lt
  have hoffset := congrArg Fin.val (add_left_cancel hring)
  have hnumber := congrArg UInt8.toNat hphase
  simp only [CompensationRequest.command, Allotment.request, phaseAt, UInt8.toNat_ofNat',
    Fin.val_ofNat] at hoffset hnumber
  unfold cycleNum at *
  omega

/-- The buffer holds for an allotment what the clamps leave of one for the same slot. -/
theorem compensatedSeconds_eq
    (hround : s.AcceptedRound share total compCycleNum)
    {allotment : Allotment} (hmem : allotment ∈ s.allotments share total compCycleNum) :
    ∃ last ∈ s.allotments share total compCycleNum,
      (last.cycle = allotment.cycle ∧ last.index = allotment.index) ∧
        s.compensatedSeconds share total compCycleNum allotment =
          greenClamp (s.status.planAt allotment.index)
            (last.request s.status).effectTime.toInt % 256 := by
  have hcommand : (allotment.request s.status).command ∈
      (s.compensationRequests share total compCycleNum).map CompensationRequest.command :=
    List.mem_map_of_mem (List.mem_map_of_mem hmem)
  obtain ⟨command, hcommand', hslot, hstored⟩ := accepted_run_target hround.accepted hcommand
  obtain ⟨request, hrequest, rfl⟩ := List.mem_map.mp hcommand'
  obtain ⟨last, hlast, rfl⟩ := List.mem_map.mp hrequest
  have hsame := eq_of_sameSlot (implementCompensationByWeight_mem hround.runs hround.greens hlast).1
    (implementCompensationByWeight_mem hround.runs hround.greens hlast).2.1
    (implementCompensationByWeight_mem hround.runs hround.greens hmem).1
    (implementCompensationByWeight_mem hround.runs hround.greens hmem).2.1 hslot
  refine ⟨last, hlast, hsame, ?_⟩
  unfold compensatedSeconds
  rw [startCompensation_target _ hround.method, hstored, ← hsame.2]
  rfl

theorem compensatedSeconds_congr {allotment other : Allotment}
    (hcycle : other.cycle = allotment.cycle) (hindex : other.index = allotment.index) :
    s.compensatedSeconds share total compCycleNum other =
      s.compensatedSeconds share total compCycleNum allotment := by
  simp only [compensatedSeconds, target, slotCycle, Allotment.request, CompensationRequest.command,
    hcycle, hindex]

/-- Where the slots agree the buffer holds the green of a phase with its seconds, clamped. -/
theorem compensatedSeconds_of_agree
    (hround : s.AcceptedRound share total compCycleNum)
    (hagree : s.SlotsAgree share total compCycleNum)
    {allotment : Allotment} (hmem : allotment ∈ s.allotments share total compCycleNum)
    (hbyte : s.plannedGreen allotment + allotment.seconds.toInt ≤ 255) :
    s.compensatedSeconds share total compCycleNum allotment =
      greenClamp (s.status.planAt allotment.index)
        (s.plannedGreen allotment + allotment.seconds.toInt) % 256 := by
  obtain ⟨last, hlast, ⟨hcycle, hindex⟩, hstored⟩ :=
    compensatedSeconds_eq hround hmem
  have hseconds := hagree allotment hmem last hlast hcycle hindex
  have hmin := (implementCompensationByWeight_mem hround.runs hround.greens hmem).2.2
  unfold plannedGreen at hbyte
  have heffect : (last.request s.status).effectTime.toInt =
      s.plannedGreen allotment + allotment.seconds.toInt := by
    rw [plannedGreen, ← hindex, ← hseconds]
    rw [← hindex, ← hseconds] at hmin hbyte
    exact request_effectTime s.status (by omega) hbyte
  rw [hstored, heffect]

end Main

/-- In the first of two phases, each with a plan of 50 seconds between 10 and 60 and some
pedestrian seconds. -/
def firstOfTwo (pedGreenFlash pedRed : UInt8) : Middleware :=
  boot { Config.initial with trafficCompensationMethod := 3 }
    { TrafficSignalStatus.initial fun _ =>
        { StaticPlan.unset with
          minGreen := 10, maxGreen := 60, preGreen := 50
          pedGreenFlash := pedGreenFlash, pedRed := pedRed } with
      subPhaseId := 1, subPhaseCount := 2, stepId := 1, stepSec := 30 }

end Middleware

end AdaptiveSignal.Signal
