import AdaptiveSignal.Compensation.TableBounds

/-! # The phases a compensation is inserted for

The seconds of a cycle are inserted for one round of the phases, those of the next cycle
for the round after it. The first phase is the running one or the next one, and every
cycle finds out anew which of them. The rounds are to follow one another from a phase that
is still to come.
-/

namespace AdaptiveSignal.Signal

open Foundation TableAccess

/-- The place of the command buffer that seconds are inserted at. -/
def Allotment.slot (allotment : Allotment) : ℕ × ℕ := (allotment.cycle, allotment.index)

namespace TrafficSignalStatus

variable (status : TrafficSignalStatus)

/-- The running phase is not compensated any more: it is past its first step, or its
remaining seconds would leave the green bounds. -/
def MovesOn (seconds : ℕ → Int16) : Prop :=
  let plan := status.plan status.subPhaseId
  let left : Int := status.stepSec.toNat - (seconds (status.subPhaseId.toNat - 1)).toInt
  status.stepId ≠ 1 ∨ left < plan.minGreen.toNat ∨ plan.maxGreen.toNat < left

instance (seconds : ℕ → Int16) : Decidable (status.MovesOn seconds) :=
  inferInstanceAs (Decidable (_ ∨ _ ∨ _))

/-- `subphase_ptr` before the loop of `insert_compensation_command`, for any reported
phase. -/
def subphasePtr (seconds : ℕ → Int16) : ℕ :=
  if status.MovesOn seconds then status.subPhaseId.toNat % status.subPhaseCount.toNat
  else status.subPhaseId.toNat - 1

/-- The plan that is read to decide whether to move on. -/
def movesOnAccesses : List TableAccess :=
  if status.stepId = 1 then [.plan (status.subPhaseId.toNat - 1)] else []

/-- `insert_compensation_command` for one cycle, whatever phase is running. -/
def insertBatch (compCycleNum cycleIndex : ℕ) (seconds : ℕ → Int16) : List Allotment :=
  emitted status.nextPhase (status.allot compCycleNum cycleIndex seconds)
    (cycleIndex % cycleNum, status.subphasePtr seconds) (List.range status.subPhaseCount.toNat)

/-- `cycle_ptr` and `subphase_ptr` after so many passes. -/
def ptrAfter (cycleIndex : ℕ) (seconds : ℕ → Int16) (passes : ℕ) : ℕ × ℕ :=
  run status.nextPhase (cycleIndex % cycleNum, status.subphasePtr seconds) (List.range passes)

/-- The insertions of all cycles, where `seconds` are the seconds of each. -/
def insertBatches (compCycleNum : ℕ) (seconds : ℕ → ℕ → Int16) : List Allotment :=
  (List.range compCycleNum).flatMap fun cycle =>
    status.insertBatch compCycleNum cycle (seconds cycle)

/-- The `m`-th occurrence of a phase, counted from the start of the running cycle. -/
def occurrence (m : ℕ) : ℕ × ℕ :=
  (m / status.subPhaseCount.toNat, m % status.subPhaseCount.toNat)

/-- The insertions land on distinct phases that are still to come, round after round, and
no phase with seconds is left out. -/
structure LandsAhead (compCycleNum : ℕ) (seconds : ℕ → ℕ → Int16) : Prop where
  reads : StaysInTables status.movesOnAccesses
  distinct : ((status.insertBatches compCycleNum seconds).map Allotment.slot).Nodup
  coming : ∀ allotment ∈ status.insertBatches compCycleNum seconds,
    allotment.index < status.subPhaseCount.toNat ∧
      (allotment.cycle = 0 → status.subPhaseId.toNat ≤ allotment.index + 1 ∧
        (status.subPhaseId.toNat = allotment.index + 1 → status.stepId = 1))
  rounds : ∃ first, ∀ cycle < compCycleNum,
    (status.insertBatch compCycleNum cycle (seconds cycle)).map Allotment.slot <+:
      (List.range status.subPhaseCount.toNat).map fun i =>
        status.occurrence (first + cycle * status.subPhaseCount.toNat + i)
  complete : ∀ cycle < compCycleNum, ∀ index < status.subPhaseCount.toNat,
    seconds cycle index ≠ 0 →
      ∃ allotment ∈ status.insertBatch compCycleNum cycle (seconds cycle),
        allotment.index = index

/-- A phase has seconds in the cycle. -/
def HasSeconds (seconds : ℕ → Int16) : Prop :=
  ∃ index < status.subPhaseCount.toNat, seconds index ≠ 0

/-- All rounds start with one phase, which is still to come, and the last of three does
not reach into the cycle after it. -/
structure StartsAhead (compCycleNum : ℕ) (seconds : ℕ → ℕ → Int16) : Prop where
  phase : status.subPhaseId.toNat ≤ status.subPhaseCount.toNat
  moved : status.MovesOn (seconds 0) →
    status.subPhaseId.toNat < status.subPhaseCount.toNat ∨
      status.subPhaseCount.toNat = 1 ∧ status.stepId = 1
  agree : status.subPhaseCount.toNat = 1 ∨ ∀ cycle < compCycleNum,
    cycle + 1 < compCycleNum ∨ status.HasSeconds (seconds cycle) →
      (status.MovesOn (seconds cycle) ↔ status.MovesOn (seconds 0))
  third : compCycleNum = 3 → status.subPhaseCount.toNat = 1 ∨
    ∀ index < status.subPhaseCount.toNat,
      index + 1 < status.subPhaseId.toNat ∨
          index + 1 = status.subPhaseId.toNat ∧ status.MovesOn (seconds 0) →
        seconds 2 index = 0

end TrafficSignalStatus

/-! ## One round -/

section Round

variable {status : TrafficSignalStatus} {compCycleNum cycleIndex : ℕ} {seconds : ℕ → Int16}

/-- For a running phase of the plan the first phase is the one found before. -/
theorem subphasePtr_eq (hruns : status.RunsPhase) :
    status.subphasePtr seconds = status.startIndex seconds := by
  unfold TrafficSignalStatus.subphasePtr TrafficSignalStatus.startIndex
    TrafficSignalStatus.MovesOn
  dsimp only
  rw [planAt_running hruns.1, Nat.sub_add_cancel hruns.1]
  rfl

theorem insertBatch_eq (hruns : status.RunsPhase) :
    status.insertBatch compCycleNum cycleIndex seconds =
      status.insertCompensationCommand compCycleNum cycleIndex seconds := by
  rw [TrafficSignalStatus.insertBatch, subphasePtr_eq hruns]
  rfl

/-- The passes after one go round the phases from its phase on. -/
theorem ptrAfter_later (cycleIndex : ℕ) (seconds : ℕ → Int16) (i passes : ℕ) :
    (status.ptrAfter cycleIndex seconds (i + passes + 1)).2 =
      ((status.ptrAfter cycleIndex seconds i).2 + passes + 1) % status.subPhaseCount.toNat := by
  unfold TrafficSignalStatus.ptrAfter
  induction passes with
  | zero =>
      rw [List.range_succ, run_concat, nextPhase_index]
  | succ passes ih =>
      rw [← Nat.add_assoc, List.range_succ, run_concat, nextPhase_index, ih, Nat.mod_add_mod,
        Nat.add_assoc _ passes 1]

theorem compensatesLater_iff (cycleIndex i : ℕ) :
    status.compensatesLater seconds (status.ptrAfter cycleIndex seconds i).2 i = true ↔
      ∃ j, i < j ∧ j < status.subPhaseCount.toNat ∧
        seconds (status.ptrAfter cycleIndex seconds j).2 ≠ 0 := by
  simp only [TrafficSignalStatus.compensatesLater, List.any_eq_true, List.mem_range,
    decide_eq_true_eq]
  constructor
  · rintro ⟨passes, hpasses, hseconds⟩
    refine ⟨i + passes + 1, by omega, by omega, ?_⟩
    rw [ptrAfter_later]
    exact hseconds
  · rintro ⟨j, hij, hj, hseconds⟩
    obtain ⟨passes, rfl⟩ : ∃ passes, j = i + passes + 1 := ⟨j - i - 1, by omega⟩
    rw [ptrAfter_later] at hseconds
    exact ⟨passes, by omega, hseconds⟩

variable (status compCycleNum cycleIndex seconds)

/-- The pass inserts: the cycle is not the last one, or a phase from its own on has
seconds. -/
def TrafficSignalStatus.PassInserts (i : ℕ) : Prop :=
  i < status.subPhaseCount.toNat ∧
    (cycleIndex + 1 < compCycleNum ∨ ∃ j, i ≤ j ∧ j < status.subPhaseCount.toNat ∧
      seconds (status.ptrAfter cycleIndex seconds j).2 ≠ 0)

variable {status compCycleNum cycleIndex seconds}

theorem passInserts_before {i j : ℕ} (hij : i ≤ j)
    (hj : status.PassInserts compCycleNum cycleIndex seconds j) :
    status.PassInserts compCycleNum cycleIndex seconds i := by
  obtain ⟨hlt, hinserts⟩ := hj
  refine ⟨by omega, hinserts.imp_right ?_⟩
  rintro ⟨later, hlater, hseconds⟩
  exact ⟨later, hij.trans hlater, hseconds⟩

theorem allot_skips_iff {i : ℕ} (hi : i < status.subPhaseCount.toNat) :
    (compCycleNum - 1 ≤ cycleIndex ∧ seconds (status.ptrAfter cycleIndex seconds i).2 = 0 ∧
        status.compensatesLater seconds (status.ptrAfter cycleIndex seconds i).2 i = false) ↔
      ¬ status.PassInserts compCycleNum cycleIndex seconds i := by
  rw [← Bool.not_eq_true, compensatesLater_iff, TrafficSignalStatus.PassInserts,
    and_iff_right hi, not_or, not_lt]
  refine and_congr (by omega) ⟨?_, fun hnone => ⟨?_, ?_⟩⟩
  · rintro ⟨hself, hlater⟩ ⟨j, hij, hj, hseconds⟩
    rcases Nat.eq_or_lt_of_le hij with rfl | hlt
    · exact hseconds hself
    · exact hlater ⟨j, hlt, hj, hseconds⟩
  · by_contra hself
    exact hnone ⟨i, le_rfl, hi, hself⟩
  · rintro ⟨j, hij, hj, hseconds⟩
    exact hnone ⟨j, hij.le, hj, hseconds⟩

/-- A round inserts for the phases in turn, in the last cycle up to the last phase that
has seconds. -/
theorem insertBatch_prefix (status : TrafficSignalStatus) (compCycleNum cycleIndex : ℕ)
    (seconds : ℕ → Int16) :
    ∃ length, (∀ i, status.PassInserts compCycleNum cycleIndex seconds i ↔ i < length) ∧
      status.insertBatch compCycleNum cycleIndex seconds =
        (List.range length).map fun i =>
          ⟨(status.ptrAfter cycleIndex seconds i).1, (status.ptrAfter cycleIndex seconds i).2,
            seconds (status.ptrAfter cycleIndex seconds i).2⟩ := by
  obtain ⟨length, hlength⟩ := exists_bound (status.PassInserts compCycleNum cycleIndex seconds)
    (fun i j => passInserts_before) ⟨status.subPhaseCount.toNat, fun h => lt_irrefl _ h.1⟩
  refine ⟨length, hlength, ?_⟩
  have hle : length ≤ status.subPhaseCount.toNat := by
    by_contra hgt
    exact lt_irrefl _ ((hlength status.subPhaseCount.toNat).mpr (by omega)).1
  rw [TrafficSignalStatus.insertBatch, emitted_range _ length, Nat.min_eq_right hle]
  intro i hi
  change status.allot compCycleNum cycleIndex seconds (status.ptrAfter cycleIndex seconds i) i = _
  unfold TrafficSignalStatus.allot
  by_cases hlt : i < length
  · rw [if_pos hlt, if_neg fun hskips => (allot_skips_iff hi).mp hskips ((hlength i).mpr hlt)]
  · rw [if_neg hlt, if_pos ((allot_skips_iff hi).mpr (mt (hlength i).mp hlt))]

/-- The occurrence after one is of the next phase, or of the first in the next cycle. -/
theorem occurrence_succ (hcount : 0 < status.subPhaseCount.toNat) (m : ℕ) :
    status.occurrence (m + 1) =
      if status.subPhaseCount.toNat ≤ (status.occurrence m).2 + 1 then
        ((status.occurrence m).1 + 1, 0)
      else ((status.occurrence m).1, (status.occurrence m).2 + 1) := by
  have hlt := Nat.mod_lt m hcount
  have hdivision := Nat.mod_add_div m status.subPhaseCount.toNat
  unfold TrafficSignalStatus.occurrence
  split_ifs with hlast
  · apply Prod.ext_iff.mpr
    refine (Nat.div_mod_unique hcount).mpr ⟨?_, hcount⟩
    dsimp only at hlast ⊢
    rw [Nat.mul_succ]
    omega
  · apply Prod.ext_iff.mpr
    refine (Nat.div_mod_unique hcount).mpr ⟨?_, ?_⟩ <;> dsimp only at hlast ⊢ <;> omega

/-- A round that starts with a phase of the plan visits its occurrences one by one; the
cycles are counted in the ring. -/
theorem ptrAfter_eq (hptr : status.subphasePtr seconds < status.subPhaseCount.toNat) (i : ℕ) :
    status.ptrAfter cycleIndex seconds i =
      ((status.occurrence (status.subphasePtr seconds +
          cycleIndex * status.subPhaseCount.toNat + i)).1 % cycleNum,
        (status.occurrence (status.subphasePtr seconds +
          cycleIndex * status.subPhaseCount.toNat + i)).2) := by
  have hcount : 0 < status.subPhaseCount.toNat := by omega
  induction i with
  | zero =>
      simp only [TrafficSignalStatus.ptrAfter, TrafficSignalStatus.occurrence, List.range_zero,
        run_nil, Nat.add_zero, Nat.add_mul_div_right _ _ hcount, Nat.add_mul_mod_self_right,
        Nat.div_eq_of_lt hptr, Nat.mod_eq_of_lt hptr, Nat.zero_add]
  | succ i ih =>
      have hstep : status.ptrAfter cycleIndex seconds (i + 1) =
          status.nextPhase (status.ptrAfter cycleIndex seconds i) i := by
        rw [TrafficSignalStatus.ptrAfter, List.range_succ, run_concat]
        rfl
      rw [hstep, ih, ← Nat.add_assoc, occurrence_succ hcount]
      generalize hm : status.subphasePtr seconds + cycleIndex * status.subPhaseCount.toNat + i = m
      have hlt : (status.occurrence m).2 < status.subPhaseCount.toNat := Nat.mod_lt _ hcount
      unfold TrafficSignalStatus.nextPhase
      split_ifs with hlast
      · rw [Nat.mod_add_mod, show (status.occurrence m).2 + 1 = status.subPhaseCount.toNat by omega,
          Nat.mod_self]
      · rfl

end Round

/-! ## All rounds -/

namespace TrafficSignalStatus

variable (status : TrafficSignalStatus) (compCycleNum : ℕ) (seconds : ℕ → ℕ → Int16)

/-- The cycle is not the last one or has seconds. -/
def CycleInserts (cycle : ℕ) : Prop :=
  cycle + 1 < compCycleNum ∨ status.HasSeconds (seconds cycle)

/-- The first round starts ahead, the others with the same phase, and the third does not
reach into the next cycle. -/
structure RoundsAhead : Prop where
  first : status.subphasePtr (seconds 0) < status.subPhaseCount.toNat
  ahead : status.subPhaseId.toNat ≤ status.subphasePtr (seconds 0) + 1
  running : status.subPhaseId.toNat = status.subphasePtr (seconds 0) + 1 → status.stepId = 1
  agree : ∀ cycle < compCycleNum, status.CycleInserts compCycleNum seconds cycle →
    status.subphasePtr (seconds cycle) = status.subphasePtr (seconds 0)
  third : compCycleNum = 3 → ∀ index < status.subphasePtr (seconds 0), seconds 2 index = 0

end TrafficSignalStatus

section Rounds

variable {status : TrafficSignalStatus} {compCycleNum : ℕ} {seconds : ℕ → ℕ → Int16}

theorem movesOnAccesses_stay : StaysInTables status.movesOnAccesses ↔
    (status.stepId = 1 → 1 ≤ status.subPhaseId.toNat ∧ status.subPhaseId.toNat ≤ 8) := by
  unfold TrafficSignalStatus.movesOnAccesses
  split_ifs with hstep
  · rw [staysInTables_cons, and_iff_left staysInTables_nil, imp_iff_right hstep]
    exact Middleware.phase_inBounds
  · exact iff_of_true staysInTables_nil fun h => absurd h hstep

/-- Only in step 1 the running phase is kept. -/
theorem stepId_of_not_movesOn {seconds : ℕ → Int16} (hkeeps : ¬ status.MovesOn seconds) :
    status.stepId = 1 := by
  by_contra hstep
  exact hkeeps (Or.inl hstep)

section Reads

variable (hreads : status.stepId = 1 → 1 ≤ status.subPhaseId.toNat ∧ status.subPhaseId.toNat ≤ 8)
  (hcount : 0 < status.subPhaseCount.toNat)
include hreads hcount

/-- The first phase is one of the plan that is still to come. -/
theorem firstPhase_ahead_iff {seconds : ℕ → Int16} :
    (status.subphasePtr seconds < status.subPhaseCount.toNat ∧
        status.subPhaseId.toNat ≤ status.subphasePtr seconds + 1 ∧
        (status.subPhaseId.toNat = status.subphasePtr seconds + 1 → status.stepId = 1)) ↔
      status.subPhaseId.toNat ≤ status.subPhaseCount.toNat ∧
        (status.MovesOn seconds → status.subPhaseId.toNat < status.subPhaseCount.toNat ∨
          status.subPhaseCount.toNat = 1 ∧ status.stepId = 1) := by
  unfold TrafficSignalStatus.subphasePtr
  split_ifs with hmoves
  · rw [imp_iff_right hmoves]
    have hlt := Nat.mod_lt status.subPhaseId.toNat hcount
    rcases lt_trichotomy status.subPhaseId.toNat status.subPhaseCount.toNat with
      hbefore | hlast | hbeyond
    · rw [Nat.mod_eq_of_lt hbefore] at hlt ⊢
      exact ⟨fun _ => ⟨hbefore.le, Or.inl hbefore⟩,
        fun _ => ⟨hlt, Nat.le_succ _, fun h => absurd h (Nat.lt_succ_self _).ne⟩⟩
    · rw [hlast, Nat.mod_self]
      constructor
      · rintro ⟨-, hle, hrunning⟩
        have hone : status.subPhaseCount.toNat = 1 := by omega
        exact ⟨le_rfl, Or.inr ⟨hone, hrunning hone⟩⟩
      · rintro ⟨-, hlt | ⟨hone, hstep⟩⟩
        · exact absurd hlt (lt_irrefl _)
        · exact ⟨hcount, by omega, fun _ => hstep⟩
    · refine iff_of_false (fun h => ?_) fun h => ?_
      · have hahead := h.2.1
        omega
      · exact absurd h.1 (not_le.mpr hbeyond)
  · have hstep := stepId_of_not_movesOn hmoves
    have hphase := (hreads hstep).1
    refine ⟨fun h => ⟨by omega, fun h => absurd h hmoves⟩, fun h => ⟨by omega, by omega, ?_⟩⟩
    exact fun _ => hstep

/-- Rounds start with one phase exactly if they all move on or none does. -/
theorem subphasePtr_eq_iff (hphase : status.subPhaseId.toNat ≤ status.subPhaseCount.toNat)
    {seconds other : ℕ → Int16} :
    status.subphasePtr seconds = status.subphasePtr other ↔
      status.subPhaseCount.toNat = 1 ∨ (status.MovesOn seconds ↔ status.MovesOn other) := by
  have hnext : status.stepId = 1 → (status.subPhaseId.toNat % status.subPhaseCount.toNat =
      status.subPhaseId.toNat - 1 ↔ status.subPhaseCount.toNat = 1) := by
    intro hstep
    have hpositive := (hreads hstep).1
    rcases Nat.eq_or_lt_of_le hphase with hlast | hlt
    · rw [hlast, Nat.mod_self]
      omega
    · rw [Nat.mod_eq_of_lt hlt]
      omega
  unfold TrafficSignalStatus.subphasePtr
  by_cases hmoves : status.MovesOn seconds <;> by_cases hother : status.MovesOn other
  · simp [hmoves, hother]
  · simpa [hmoves, hother] using hnext (stepId_of_not_movesOn hother)
  · simpa [hmoves, hother, eq_comm] using hnext (stepId_of_not_movesOn hmoves)
  · simp [hmoves, hother]

omit hcount in
/-- The phases before the first one that is compensated. -/
theorem lt_subphasePtr_iff (hphase : status.subPhaseId.toNat ≤ status.subPhaseCount.toNat)
    {seconds : ℕ → Int16}
    (hmoved : status.MovesOn seconds → status.subPhaseId.toNat < status.subPhaseCount.toNat ∨
      status.subPhaseCount.toNat = 1 ∧ status.stepId = 1) {index : ℕ} :
    index < status.subphasePtr seconds ↔ status.subPhaseCount.toNat ≠ 1 ∧
      (index + 1 < status.subPhaseId.toNat ∨
        index + 1 = status.subPhaseId.toNat ∧ status.MovesOn seconds) := by
  unfold TrafficSignalStatus.subphasePtr
  split_ifs with hmoves
  · rcases hmoved hmoves with hlt | ⟨hone, -⟩
    · rw [Nat.mod_eq_of_lt hlt]
      simp only [hmoves, and_true]
      omega
    · rw [hone, Nat.mod_one]
      omega
  · have hpositive := (hreads (stepId_of_not_movesOn hmoves)).1
    simp only [hmoves, and_false, or_false]
    omega

theorem roundsAhead_iff :
    status.RoundsAhead compCycleNum seconds ↔ status.StartsAhead compCycleNum seconds := by
  constructor
  · rintro ⟨hfirst, hahead, hrunning, hagree, hthird⟩
    obtain ⟨hphase, hmoved⟩ :=
      (firstPhase_ahead_iff hreads hcount).mp ⟨hfirst, hahead, hrunning⟩
    refine ⟨hphase, hmoved, ?_, fun hthree => ?_⟩
    · refine or_iff_not_imp_left.mpr fun hmany cycle hcycle hinserts => ?_
      exact ((subphasePtr_eq_iff hreads hcount hphase).mp
        (hagree cycle hcycle hinserts)).resolve_left hmany
    · refine or_iff_not_imp_left.mpr fun hmany index _ hbefore => ?_
      exact hthird hthree index
        ((lt_subphasePtr_iff hreads hphase hmoved).mpr ⟨hmany, hbefore⟩)
  · rintro ⟨hphase, hmoved, hagree, hthird⟩
    obtain ⟨hfirst, hahead, hrunning⟩ :=
      (firstPhase_ahead_iff hreads hcount).mpr ⟨hphase, hmoved⟩
    refine ⟨hfirst, hahead, hrunning, fun cycle hcycle hinserts => ?_,
      fun hthree index hindex => ?_⟩
    · exact (subphasePtr_eq_iff hreads hcount hphase).mpr
        (hagree.imp_right fun hall => hall cycle hcycle hinserts)
    · obtain ⟨hmany, hbefore⟩ := (lt_subphasePtr_iff hreads hphase hmoved).mp hindex
      exact (hthird hthree).resolve_left hmany index (by omega) hbefore

end Reads

theorem occurrence_injective (status : TrafficSignalStatus) :
    Function.Injective status.occurrence := by
  intro m other heq
  have hdiv := congrArg Prod.fst heq
  have hmod := congrArg Prod.snd heq
  simp only [TrafficSignalStatus.occurrence] at hdiv hmod
  rw [← Nat.mod_add_div m status.subPhaseCount.toNat, hdiv, hmod, Nat.mod_add_div]

section Ahead

variable (hahead : status.RoundsAhead compCycleNum seconds) (hcycles : compCycleNum ≤ 3)
  (hseconds : ∀ cycle index, status.subPhaseCount.toNat ≤ index → seconds cycle index = 0)
include hahead hcycles hseconds

omit hcycles in
/-- A cycle that inserts at all starts with the phase of the first one. -/
theorem subphasePtr_of_passInserts {cycle i : ℕ} (hcycle : cycle < compCycleNum)
    (hinserts : status.PassInserts compCycleNum cycle (seconds cycle) i) :
    status.subphasePtr (seconds cycle) = status.subphasePtr (seconds 0) := by
  apply hahead.agree cycle hcycle
  refine hinserts.2.imp_right ?_
  rintro ⟨j, -, -, hnonzero⟩
  refine ⟨_, ?_, hnonzero⟩
  by_contra houtside
  exact hnonzero (hseconds cycle _ (not_lt.mp houtside))

/-- No pass reaches the cycle after the third. -/
theorem occurrence_in_ring {cycle i : ℕ} (hcycle : cycle < compCycleNum)
    (hinserts : status.PassInserts compCycleNum cycle (seconds cycle) i) :
    status.subphasePtr (seconds 0) + cycle * status.subPhaseCount.toNat + i <
      cycleNum * status.subPhaseCount.toNat := by
  have hfirst := hahead.first
  have hi := hinserts.1
  unfold cycleNum
  rcases Nat.lt_or_ge cycle 2 with hearly | hlate
  · have hmul := Nat.mul_le_mul_right status.subPhaseCount.toNat (Nat.le_of_lt_succ hearly)
    omega
  obtain rfl : cycle = 2 := by omega
  obtain ⟨j, hij, hj, hnonzero⟩ := hinserts.2.resolve_left (by omega)
  have hsame := subphasePtr_of_passInserts hahead hseconds hcycle hinserts
  -- past the end of the third cycle only phases before the first one are left
  have hend : status.subphasePtr (seconds 0) + j < status.subPhaseCount.toNat := by
    by_contra hbeyond
    rw [ptrAfter_eq (by rw [hsame]; exact hfirst), hsame] at hnonzero
    apply hnonzero
    apply hahead.third (by omega)
    simp only [TrafficSignalStatus.occurrence, Nat.add_right_comm _ (2 * _) j,
      Nat.add_mul_mod_self_right]
    rw [Nat.mod_eq_sub_mod (not_lt.mp hbeyond), Nat.mod_eq_of_lt (by omega)]
    omega
  omega

/-- What a cycle inserts: the occurrences of the phases one by one, up to the length of
its round. -/
theorem insertBatch_slots {cycle : ℕ} (hcycle : cycle < compCycleNum) :
    ∃ length ≤ status.subPhaseCount.toNat,
      (∀ i, status.PassInserts compCycleNum cycle (seconds cycle) i ↔ i < length) ∧
      (status.insertBatch compCycleNum cycle (seconds cycle)).map Allotment.slot =
        (List.range length).map fun i => status.occurrence
          (status.subphasePtr (seconds 0) + cycle * status.subPhaseCount.toNat + i) := by
  obtain ⟨length, hlength, hbatch⟩ :=
    insertBatch_prefix status compCycleNum cycle (seconds cycle)
  have hle : length ≤ status.subPhaseCount.toNat := by
    by_contra hgt
    exact lt_irrefl _ ((hlength status.subPhaseCount.toNat).mpr (by omega)).1
  refine ⟨length, hle, hlength, ?_⟩
  rw [hbatch, List.map_map]
  apply List.map_congr_left
  intro i hi
  have hinserts := (hlength i).mpr (List.mem_range.mp hi)
  have hsame := subphasePtr_of_passInserts hahead hseconds hcycle hinserts
  have hring := occurrence_in_ring hahead hcycles hseconds hcycle hinserts
  have hfirst := hahead.first
  change ((status.ptrAfter cycle (seconds cycle) i).1,
    (status.ptrAfter cycle (seconds cycle) i).2) = _
  rw [ptrAfter_eq (by rw [hsame]; exact hfirst), hsame, Nat.mod_eq_of_lt]
  exact (Nat.div_lt_iff_lt_mul (by omega)).mpr hring

/-- A phase that has seconds in a cycle is inserted in it. -/
theorem insertBatch_complete {cycle : ℕ} (hcycle : cycle < compCycleNum) {index : ℕ}
    (hindex : index < status.subPhaseCount.toNat) (hnonzero : seconds cycle index ≠ 0) :
    ∃ allotment ∈ status.insertBatch compCycleNum cycle (seconds cycle),
      allotment.index = index := by
  obtain ⟨length, -, hlength, hslots⟩ := insertBatch_slots hahead hcycles hseconds hcycle
  have hsame := hahead.agree cycle hcycle (Or.inr ⟨index, hindex, hnonzero⟩)
  have hfirst := hahead.first
  -- the pass that comes to the phase
  obtain ⟨i, hi, hphase⟩ : ∃ i < status.subPhaseCount.toNat,
      (status.occurrence (status.subphasePtr (seconds 0) +
        cycle * status.subPhaseCount.toNat + i)).2 = index := by
    simp only [TrafficSignalStatus.occurrence, Nat.add_right_comm _ (cycle * _),
      Nat.add_mul_mod_self_right]
    rcases Nat.lt_or_ge index (status.subphasePtr (seconds 0)) with hbefore | hfrom
    · refine ⟨index + status.subPhaseCount.toNat - status.subphasePtr (seconds 0), by omega, ?_⟩
      rw [show status.subphasePtr (seconds 0) +
          (index + status.subPhaseCount.toNat - status.subphasePtr (seconds 0)) =
        index + status.subPhaseCount.toNat by omega, Nat.add_mod_right, Nat.mod_eq_of_lt hindex]
    · refine ⟨index - status.subphasePtr (seconds 0), by omega, ?_⟩
      rw [Nat.add_sub_cancel' hfrom, Nat.mod_eq_of_lt hindex]
  have hinserts : status.PassInserts compCycleNum cycle (seconds cycle) i := by
    refine ⟨hi, Or.inr ⟨i, le_rfl, hi, ?_⟩⟩
    rw [ptrAfter_eq (by rw [hsame]; exact hfirst), hsame, hphase]
    exact hnonzero
  have hmem : status.occurrence (status.subphasePtr (seconds 0) +
      cycle * status.subPhaseCount.toNat + i) ∈
      (status.insertBatch compCycleNum cycle (seconds cycle)).map Allotment.slot := by
    rw [hslots]
    exact List.mem_map_of_mem (List.mem_range.mpr ((hlength i).mp hinserts))
  obtain ⟨allotment, hallotment, hslot⟩ := List.mem_map.mp hmem
  exact ⟨allotment, hallotment, (congrArg Prod.snd hslot).trans hphase⟩

/-- The rounds do not overlap. -/
theorem insertBatches_nodup :
    ((status.insertBatches compCycleNum seconds).map Allotment.slot).Nodup := by
  have hinjective := occurrence_injective status
  rw [TrafficSignalStatus.insertBatches, List.map_flatMap, List.nodup_flatMap]
  constructor
  · intro cycle hcycle
    obtain ⟨length, -, -, hslots⟩ := insertBatch_slots hahead hcycles hseconds
      (List.mem_range.mp hcycle)
    rw [hslots]
    refine List.Nodup.map (fun i j hij => ?_) List.nodup_range
    exact Nat.add_left_cancel (hinjective hij)
  · refine List.pairwise_lt_range.imp_of_mem fun hcycle hlater hlt slot hslot hother => ?_
    obtain ⟨length, hle, -, hslots⟩ := insertBatch_slots hahead hcycles hseconds
      (List.mem_range.mp hcycle)
    obtain ⟨length', -, -, hslots'⟩ := insertBatch_slots hahead hcycles hseconds
      (List.mem_range.mp hlater)
    dsimp only at hslot hother
    rw [hslots] at hslot
    rw [hslots'] at hother
    obtain ⟨i, hi, rfl⟩ := List.mem_map.mp hslot
    obtain ⟨j, hj, heq⟩ := List.mem_map.mp hother
    have hoccurrence := hinjective heq
    have hmul := Nat.mul_le_mul_right status.subPhaseCount.toNat (Nat.succ_le_of_lt hlt)
    rw [Nat.succ_mul] at hmul
    rw [List.mem_range] at hi
    omega

/-- An insertion into the running cycle is in the first round, for its first phase or one
after it. -/
theorem insertBatches_coming {allotment : Allotment}
    (hmem : allotment ∈ status.insertBatches compCycleNum seconds) :
    allotment.index < status.subPhaseCount.toNat ∧
      (allotment.cycle = 0 → status.subphasePtr (seconds 0) ≤ allotment.index) := by
  obtain ⟨cycle, hcycle, hmem⟩ := List.mem_flatMap.mp hmem
  obtain ⟨length, hle, -, hslots⟩ := insertBatch_slots hahead hcycles hseconds
    (List.mem_range.mp hcycle)
  have hcount : 0 < status.subPhaseCount.toNat := Nat.zero_lt_of_lt hahead.first
  have hslot := List.mem_map_of_mem (f := Allotment.slot) hmem
  rw [hslots] at hslot
  obtain ⟨i, hi, heq⟩ := List.mem_map.mp hslot
  have hindex : _ = allotment.index := congrArg Prod.snd heq
  have hring : _ = allotment.cycle := congrArg Prod.fst heq
  rw [← hindex, ← hring]
  simp only [TrafficSignalStatus.occurrence]
  refine ⟨Nat.mod_lt _ hcount, fun hrunning => ?_⟩
  rw [Nat.mod_eq_of_lt ((Nat.div_eq_zero_iff_lt hcount).mp hrunning)]
  omega

theorem landsAhead_of_roundsAhead (hreads : StaysInTables status.movesOnAccesses) :
    status.LandsAhead compCycleNum seconds := by
  refine ⟨hreads, insertBatches_nodup hahead hcycles hseconds, fun allotment hmem => ?_,
    ⟨status.subphasePtr (seconds 0), fun cycle hcycle => ?_⟩,
    fun cycle hcycle index => insertBatch_complete hahead hcycles hseconds hcycle⟩
  · obtain ⟨hindex, hcoming⟩ := insertBatches_coming hahead hcycles hseconds hmem
    have hfirst := hahead.ahead
    refine ⟨hindex, fun hrunning => ⟨?_, fun hcurrent => hahead.running ?_⟩⟩
    · have hfrom := hcoming hrunning
      omega
    · have hfrom := hcoming hrunning
      omega
  · obtain ⟨length, hle, -, hslots⟩ := insertBatch_slots hahead hcycles hseconds hcycle
    rw [hslots, ← Nat.min_eq_left hle, ← List.take_range]
    exact (List.take_prefix _ _).map _

end Ahead

/-- The first insertion of a cycle that inserts is at its first phase. -/
theorem insertBatch_head {compCycleNum cycle : ℕ} {seconds : ℕ → Int16}
    (hbatch : status.insertBatch compCycleNum cycle seconds ≠ []) :
    ∃ rest, (status.insertBatch compCycleNum cycle seconds).map Allotment.slot =
      (cycle % cycleNum, status.subphasePtr seconds) :: rest := by
  obtain ⟨length, -, hslots⟩ := insertBatch_prefix status compCycleNum cycle seconds
  cases length with
  | zero => exact absurd hslots hbatch
  | succ length =>
      rw [hslots, List.range_succ_eq_map]
      exact ⟨_, rfl⟩

section Lands

variable (hlands : status.LandsAhead compCycleNum seconds) (hcount : 0 < status.subPhaseCount.toNat)
include hlands hcount

theorem insertBatch_ne_nil {cycle : ℕ} (hcycle : cycle < compCycleNum)
    (hinserts : status.CycleInserts compCycleNum seconds cycle) :
    status.insertBatch compCycleNum cycle (seconds cycle) ≠ [] := by
  rcases hinserts with hearly | ⟨index, hindex, hnonzero⟩
  · obtain ⟨length, hlength, hbatch⟩ :=
      insertBatch_prefix status compCycleNum cycle (seconds cycle)
    have hpositive := (hlength 0).mp ⟨hcount, Or.inl hearly⟩
    rw [hbatch, Ne, List.map_eq_nil_iff, List.range_eq_nil]
    exact Nat.pos_iff_ne_zero.mp hpositive
  · obtain ⟨allotment, hmem, -⟩ := hlands.complete cycle hcycle index hindex hnonzero
    exact List.ne_nil_of_mem hmem

section Counted

variable {first : ℕ} (hrounds : ∀ cycle < compCycleNum,
  (status.insertBatch compCycleNum cycle (seconds cycle)).map Allotment.slot <+:
    (List.range status.subPhaseCount.toNat).map fun i =>
      status.occurrence (first + cycle * status.subPhaseCount.toNat + i))
include hrounds

/-- The first insertion of a cycle is the first occurrence of its round. -/
theorem round_head {cycle : ℕ} (hcycle : cycle < compCycleNum)
    (hinserts : status.CycleInserts compCycleNum seconds cycle) :
    (cycle % cycleNum, status.subphasePtr (seconds cycle)) =
      status.occurrence (first + cycle * status.subPhaseCount.toNat) := by
  obtain ⟨rest, hhead⟩ := insertBatch_head (insertBatch_ne_nil hlands hcount hcycle hinserts)
  obtain ⟨later, hlater⟩ := hrounds cycle hcycle
  rw [hhead] at hlater
  obtain ⟨count, hsucc⟩ : ∃ count, status.subPhaseCount.toNat = count + 1 :=
    ⟨status.subPhaseCount.toNat - 1, by omega⟩
  rw [hsucc, List.range_succ_eq_map, ← hsucc] at hlater
  exact (List.cons.inj hlater).1

/-- The rounds are counted from the first phase of the first one. -/
theorem round_first (hcycles : 0 < compCycleNum)
    (hbusy : status.CycleInserts compCycleNum seconds 0) :
    first < status.subPhaseCount.toNat ∧ status.subphasePtr (seconds 0) = first := by
  have hstart := round_head hlands hcount hrounds hcycles hbusy
  rw [Nat.zero_mul, Nat.add_zero] at hstart
  have hrunning : first < status.subPhaseCount.toNat :=
    (Nat.div_eq_zero_iff_lt hcount).mp (congrArg Prod.fst hstart).symm
  exact ⟨hrunning, (congrArg Prod.snd hstart).trans (Nat.mod_eq_of_lt hrunning)⟩

/-- Every round starts with the phase that they are counted from. -/
theorem subphasePtr_of_round (hrunning : first < status.subPhaseCount.toNat) {cycle : ℕ}
    (hcycle : cycle < compCycleNum) (hinserts : status.CycleInserts compCycleNum seconds cycle) :
    status.subphasePtr (seconds cycle) = first := by
  have hphase : status.subphasePtr (seconds cycle) =
      (first + cycle * status.subPhaseCount.toNat) % status.subPhaseCount.toNat :=
    congrArg Prod.snd (round_head hlands hcount hrounds hcycle hinserts)
  rw [hphase, Nat.add_mul_mod_self_right, Nat.mod_eq_of_lt hrunning]

/-- Seconds of the third cycle for a phase before the first one would be inserted in a
fourth. -/
theorem third_eq_zero (hrunning : first < status.subPhaseCount.toNat) (hthree : 2 < compCycleNum)
    {index : ℕ} (hindex : index < first) : seconds 2 index = 0 := by
  by_contra hnonzero
  have hsame := subphasePtr_of_round hlands hcount hrounds hrunning hthree
    (Or.inr ⟨index, hindex.trans hrunning, hnonzero⟩)
  obtain ⟨allotment, hmem, hphase⟩ :=
    hlands.complete 2 hthree index (hindex.trans hrunning) hnonzero
  obtain ⟨length, -, hbatch⟩ := insertBatch_prefix status compCycleNum 2 (seconds 2)
  have hprefix := hrounds 2 hthree
  rw [hbatch, List.map_map] at hprefix
  rw [hbatch] at hmem
  obtain ⟨i, hi, rfl⟩ := List.mem_map.mp hmem
  have hslot := hprefix.getElem (i := i) (by simpa using hi)
  simp only [List.getElem_map, List.getElem_range, Function.comp_apply, Allotment.slot,
    Prod.ext_iff] at hslot
  dsimp only at hphase
  rw [ptrAfter_eq (by omega), hsame] at hslot hphase
  -- the cycle of the place is the cycle of the occurrence, so it is before the fourth
  have hring : (first + 2 * status.subPhaseCount.toNat + i) / status.subPhaseCount.toNat < 3 := by
    have hmod := hslot.1
    simp only [TrafficSignalStatus.occurrence] at hmod
    rw [← hmod]
    exact Nat.mod_lt _ (by decide)
  rw [Nat.div_lt_iff_lt_mul hcount] at hring
  simp only [TrafficSignalStatus.occurrence, Nat.add_right_comm first,
    Nat.add_mul_mod_self_right] at hphase
  rw [Nat.mod_eq_of_lt (by omega)] at hphase
  omega

end Counted

/-- Where the insertions land ahead, the rounds do. -/
theorem roundsAhead_of_landsAhead (hcycles : 0 < compCycleNum)
    (hbusy : status.CycleInserts compCycleNum seconds 0) :
    status.RoundsAhead compCycleNum seconds := by
  obtain ⟨first, hrounds⟩ := hlands.rounds
  obtain ⟨hrunning, hfirst⟩ := round_first hlands hcount hrounds hcycles hbusy
  -- the first insertion of all, for what is asked of the running cycle
  obtain ⟨rest, hhead⟩ := insertBatch_head (insertBatch_ne_nil hlands hcount hcycles hbusy)
  obtain ⟨allotment, hmem, hslot⟩ := List.mem_map.mp (hhead ▸ List.mem_cons_self)
  have hcoming := hlands.coming allotment
    (List.mem_flatMap.mpr ⟨0, List.mem_range.mpr hcycles, hmem⟩)
  rw [show allotment.index = status.subphasePtr (seconds 0) from congrArg Prod.snd hslot,
    show allotment.cycle = 0 from congrArg Prod.fst hslot] at hcoming
  obtain ⟨hahead, hcurrent⟩ := hcoming.2 rfl
  refine ⟨hcoming.1, hahead, hcurrent, fun cycle hcycle hinserts => ?_,
    fun hthree index hindex => ?_⟩
  · rw [subphasePtr_of_round hlands hcount hrounds hrunning hcycle hinserts, hfirst]
  · exact third_eq_zero hlands hcount hrounds hrunning (by omega) (hfirst ▸ hindex)

end Lands

/-- One cycle without any seconds inserts nothing. -/
theorem insertBatch_idle {seconds : ℕ → Int16} (hidle : ¬ status.HasSeconds seconds)
    (hseconds : ∀ index, status.subPhaseCount.toNat ≤ index → seconds index = 0) :
    status.insertBatch 1 0 seconds = [] := by
  obtain ⟨length, hlength, hbatch⟩ := insertBatch_prefix status 1 0 seconds
  rcases Nat.eq_zero_or_pos length with rfl | hpositive
  · exact hbatch
  obtain ⟨j, -, -, hnonzero⟩ := ((hlength 0).mpr hpositive).2.resolve_left (by omega)
  refine absurd ⟨_, ?_, hnonzero⟩ hidle
  by_contra houtside
  exact hnonzero (hseconds _ (not_lt.mp houtside))

theorem landsAhead_idle (hreads : StaysInTables status.movesOnAccesses)
    (hidle : ¬ status.HasSeconds (seconds 0))
    (hseconds : ∀ cycle index, status.subPhaseCount.toNat ≤ index → seconds cycle index = 0) :
    status.LandsAhead 1 seconds := by
  have hbatch := insertBatch_idle hidle (hseconds 0)
  have hbatches : status.insertBatches 1 seconds = [] := by
    rw [TrafficSignalStatus.insertBatches, List.range_one, List.flatMap_singleton, hbatch]
  refine ⟨hreads, ?_, ?_, ⟨0, fun cycle hcycle => ?_⟩, fun cycle hcycle index hindex hnonzero => ?_⟩
  · rw [hbatches]
    exact List.nodup_nil
  · rw [hbatches]
    simp
  · rw [Nat.lt_one_iff.mp hcycle, hbatch]
    exact List.nil_prefix
  · rw [Nat.lt_one_iff.mp hcycle] at hnonzero
    exact absurd ⟨index, hindex, hnonzero⟩ hidle

/-- The insertions land on distinct coming phases exactly if the plan of a running first
step is in the table, and there is nothing to insert, or all rounds start with one phase
that is still to come and the third does not reach into the next cycle. -/
theorem landsAhead_iff
    (hcount : 1 ≤ status.subPhaseCount.toNat ∧ status.subPhaseCount.toNat ≤ 8)
    (hcycles : 1 ≤ compCycleNum ∧ compCycleNum ≤ cycleNum)
    (hseconds : ∀ cycle index, status.subPhaseCount.toNat ≤ index → seconds cycle index = 0) :
    status.LandsAhead compCycleNum seconds ↔
      (status.stepId = 1 → 1 ≤ status.subPhaseId.toNat ∧ status.subPhaseId.toNat ≤ 8) ∧
        (compCycleNum = 1 ∧ ¬ status.HasSeconds (seconds 0) ∨
          status.StartsAhead compCycleNum seconds) := by
  constructor
  · intro hlands
    have hreads := movesOnAccesses_stay.mp hlands.reads
    refine ⟨hreads, ?_⟩
    by_cases hbusy : status.CycleInserts compCycleNum seconds 0
    · have hahead := roundsAhead_of_landsAhead hlands hcount.1 hcycles.1 hbusy
      exact Or.inr ((roundsAhead_iff hreads hcount.1).mp hahead)
    · obtain ⟨hlast, hidle⟩ := not_or.mp hbusy
      exact Or.inl ⟨by omega, hidle⟩
  · rintro ⟨hreads, ⟨rfl, hidle⟩ | hstarts⟩
    · exact landsAhead_idle (movesOnAccesses_stay.mpr hreads) hidle hseconds
    · have hahead := (roundsAhead_iff hreads hcount.1).mpr hstarts
      exact landsAhead_of_roundsAhead hahead hcycles.2 hseconds (movesOnAccesses_stay.mpr hreads)

end Rounds

/-! ## The rounds of a compensation -/

section Compensation

variable {status : TrafficSignalStatus}

theorem allocateCompensationByWeight_outside (share : PhaseShare) (compensationTime : Int)
    (seconds : ℕ → Int16) {index : ℕ} (houtside : status.subPhaseCount.toNat ≤ index) :
    (status.allocateCompensationByWeight share compensationTime seconds).seconds index =
      seconds index := by
  refine run_invariant_of_mem _ (fun a : Allocation => a.seconds index = seconds index) _ rfl ?_
  intro a phase hphase hkept
  have hne : index ≠ phase := by
    rw [List.mem_range] at hphase
    omega
  unfold TrafficSignalStatus.allocatePhase
  split_ifs
  · exact hkept
  · exact (Function.update_of_ne hne _ _).trans hkept

/-- A compensation gives seconds to the phases of the plan only. -/
theorem cycleAllocation_outside (share : PhaseShare) (total : Int16) (compCycleNum cycle : ℕ)
    {index : ℕ} (houtside : status.subPhaseCount.toNat ≤ index) :
    (status.cycleAllocation share total compCycleNum cycle).seconds index = 0 := by
  refine run_invariant_of_mem _ (fun a : Allocation => a.seconds index = 0) _ ?_ ?_
  · exact allocateCompensationByWeight_outside _ _ _ houtside
  · intro a i _ hkept
    split_ifs
    · exact hkept
    · exact (allocateCompensationByWeight_outside _ _ _ houtside).trans hkept

/-- While a phase of the plan runs, the rounds are those of the compensation. -/
theorem implementCompensationByWeight_eq (hruns : status.RunsPhase) (share : PhaseShare)
    (total : Int16) (compCycleNum : ℕ) :
    status.implementCompensationByWeight share total compCycleNum =
      status.insertBatches compCycleNum fun cycle =>
        (status.cycleAllocation share total compCycleNum cycle).seconds := by
  unfold TrafficSignalStatus.implementCompensationByWeight TrafficSignalStatus.insertBatches
  simp only [insertBatch_eq hruns]

end Compensation

/-- Two phases with a green of 40 seconds between 10 and 60, the running one with 30
seconds left. -/
def TrafficSignalStatus.inTwoPhases (subPhaseId stepId : UInt8) : TrafficSignalStatus :=
  { TrafficSignalStatus.initial fun _ =>
      { StaticPlan.unset with minGreen := 10, preGreen := 40, maxGreen := 60 } with
    subPhaseId := subPhaseId, subPhaseCount := 2, stepId := stepId, stepSec := 30 }

/-- Five seconds for the first phase. -/
def fiveSeconds (_cycle index : ℕ) : Int16 := if index = 0 then 5 else 0

theorem fiveSeconds_outside (subPhaseId stepId : UInt8) (cycle index : ℕ)
    (houtside : (TrafficSignalStatus.inTwoPhases subPhaseId stepId).subPhaseCount.toNat ≤ index) :
    fiveSeconds cycle index = 0 := by
  have htwo : 2 ≤ index := houtside
  rw [fiveSeconds, if_neg (by omega)]

theorem landsAhead_iff_first_step :
    (TrafficSignalStatus.inTwoPhases 1 1).LandsAhead 1 fiveSeconds ↔
      ((TrafficSignalStatus.inTwoPhases 1 1).stepId = 1 →
        1 ≤ (TrafficSignalStatus.inTwoPhases 1 1).subPhaseId.toNat ∧
          (TrafficSignalStatus.inTwoPhases 1 1).subPhaseId.toNat ≤ 8) ∧
        ((1 : ℕ) = 1 ∧ ¬ (TrafficSignalStatus.inTwoPhases 1 1).HasSeconds (fiveSeconds 0) ∨
          (TrafficSignalStatus.inTwoPhases 1 1).StartsAhead 1 fiveSeconds) :=
  landsAhead_iff (by decide) (by decide) (fiveSeconds_outside 1 1)

/-- Towards the end of the second phase the five seconds are inserted for the first phase
of the running cycle, which is over. -/
theorem phase_of_running_cycle_over :
    (TrafficSignalStatus.inTwoPhases 2 4).insertBatches 1 fiveSeconds = [⟨0, 0, 5⟩] ∧
      ¬ (TrafficSignalStatus.inTwoPhases 2 4).LandsAhead 1 fiveSeconds := by
  have hinserted : (TrafficSignalStatus.inTwoPhases 2 4).insertBatches 1 fiveSeconds =
      [⟨0, 0, 5⟩] := by decide
  refine ⟨hinserted, fun hlands => ?_⟩
  have hcoming := hlands.coming ⟨0, 0, 5⟩ (by rw [hinserted]; exact List.mem_cons_self)
  exact absurd (hcoming.2 rfl).1 (by decide)

end AdaptiveSignal.Signal
