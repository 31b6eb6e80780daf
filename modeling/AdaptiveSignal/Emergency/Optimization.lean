import AdaptiveSignal.Compensation.RemainingTime
import AdaptiveSignal.Emergency.ExtendFormula
import AdaptiveSignal.Emergency.TableLinks
import Mathlib.Algebra.Order.Floor.Ring
import Mathlib.Data.Rat.Floor

/-! # The green for an emergency vehicle

In the first step of a phase the green is cut or extended, so that the vehicle arrives in
the target phase. The phases come from the controller, the subphases of the plan from the
configuration, and both are read by the count of the controller. Where a read is outside
a table or a remainder is by zero, there is no result.
-/

namespace AdaptiveSignal.Signal

open Foundation

def thresholdBuffer : Int := 5

/-- The search for the target phase gives up after so many phases. -/
def searchLimit : ℕ := 10

/-- `EVSP_plan_table_search`. -/
def PlanList.planTableSearch (list : PlanList) (planId : UInt8) : Option PlanTable :=
  list.planTable.entries.find? fun table => table.planId.entries.contains planId

/-- The plan lists a subphase with a number from 1 to 8 at an index. -/
def PlanTable.Lists (table : PlanTable) (i : ℕ) : Prop :=
  ∃ subPhase, table.planSubPhase.entries[i]? = some subPhase ∧
    1 ≤ subPhase.subPhaseId.toNat ∧ subPhase.subPhaseId.toNat ≤ 8

/-- The seconds of a phase for `EVSP_optimization`. -/
def StaticPlan.subPhaseSeconds (plan : StaticPlan) : Int :=
  plan.green.toNat + plan.yellow.toNat + plan.allRed.toNat

/-- Where the search ends: the phases passed, their seconds and those of the last phase. -/
structure TargetSearch where
  beforeTarget : ℕ
  accumulation : Int
  subPhaseTime : Int
  deriving DecidableEq

namespace TrafficSignalStatus

variable (status : TrafficSignalStatus)

/-- `plan[index]`. -/
def readPlan (index : Int) : Option StaticPlan :=
  if 0 ≤ index ∧ index < phaseCountMaxNum then some (status.planAt index.toNat) else none

/-- `(index + 1) % SubPhaseCount`. -/
def nextIndex (index : ℕ) : Option ℕ :=
  if status.subPhaseCount = 0 then none else some ((index + 1) % status.subPhaseCount.toNat)

/-- `get_subphase_threshold`. -/
def subPhaseThreshold (targetPhase : UInt8) (arrival : ℚ) : ℚ :=
  arrival - status.evspExtendFormula targetPhase.toNat thresholdBuffer

/-- No other phase of the plan has as much green as the target. -/
def isMainSubPhase (table : Option PlanTable) (targetPhase : UInt8) (targetGreen : UInt16) :
    List ℕ → Option Bool
  | [] => some true
  | i :: rest => do
      let subPhase ← (← table).planSubPhase.entries[i]?
      let plan ← status.readPlan (subPhase.subPhaseId.toNat - 1)
      if subPhase.subPhaseId ≠ targetPhase ∧ targetGreen ≤ plan.green then some false
      else isMainSubPhase table targetPhase targetGreen rest

/-- The search from the phase at an index on, at most `fuel` phases further. -/
def searchTarget (targetPhase : UInt8) (threshold : ℚ) :
    ℕ → ℕ → TargetSearch → Option TargetSearch
  | 0, _, search => some search
  | fuel + 1, index, search =>
      if index ≠ targetPhase.toNat - 1 ∨
          (search.accumulation + search.subPhaseTime : Int) < threshold then do
        let index ← status.nextIndex index
        let plan ← status.readPlan index
        searchTarget targetPhase threshold fuel index
          ⟨search.beforeTarget + 1, search.accumulation + search.subPhaseTime,
            plan.subPhaseSeconds⟩
      else some search

/-- What the greens after the one at an index cannot be shortened by. -/
def shortage (shorten : Int) : ℕ → ℕ → Option Int
  | 0, _ => some 0
  | count + 1, index => do
      let index ← status.nextIndex index
      let plan ← status.readPlan index
      let rest ← shortage shorten count index
      let spare : Int := plan.preGreen.toNat - plan.minGreen.toNat
      return (if spare < shorten then shorten - spare else 0) + rest

/-- The search from the running phase on. -/
def targetSearch (targetPhase : UInt8) (arrival : ℚ) : Option TargetSearch :=
  status.searchTarget targetPhase (status.subPhaseThreshold targetPhase arrival) searchLimit
    (status.subPhaseId.toNat - 1) ⟨0, 0, status.subPhaseTime⟩

/-- The green that lets the vehicle arrive in the phase that the search ended in. -/
def smoothControl (targetPhase : UInt8) (arrival : ℚ) (pretime : Int) (search : TargetSearch) :
    Option Int :=
  if searchLimit ≤ search.beforeTarget then some (-1)
  else if search.beforeTarget = 0 then
    some (pretime + status.evspExtendFormula targetPhase.toNat 20)
  else if arrival < search.accumulation then do
    let shorten := ⌈(search.accumulation - arrival) / search.beforeTarget⌉
    let remain ← status.shortage shorten (search.beforeTarget - 1) (status.subPhaseId.toNat - 1)
    let adjustTime := pretime - shorten - remain
    return if adjustTime < 0 then 0 else adjustTime
  else if (search.accumulation + search.subPhaseTime : Int) < arrival then
    some (pretime +
      ⌈(arrival - (search.accumulation + search.subPhaseTime : Int)) / search.beforeTarget⌉)
  else some pretime

/-- The green when the target phase is the main one. -/
def quickRotation (targetPhase : UInt8) (arrival : ℚ) (pretime : Int) : Int :=
  if status.subPhaseThreshold targetPhase arrival ≤ status.subPhaseTime then
    if targetPhase = status.subPhaseId then
      pretime + status.evspExtendFormula targetPhase.toNat 20
    else 0
  else pretime

/-- `EVSP_optimization`; none where it reads outside a table or divides by zero. -/
def evspOptimization (list : PlanList) (targetPhase : UInt8) (arrival : ℚ) : Option Int :=
  if status.stepId ≠ 1 then some (-1)
  else do
    let table := list.planTableSearch status.planId
    let running ← status.readPlan (status.subPhaseId.toNat - 1)
    let target ← status.readPlan (targetPhase.toNat - 1)
    let isMain ← status.isMainSubPhase table targetPhase target.green
      (List.range status.subPhaseCount.toNat)
    if isMain then return status.quickRotation targetPhase arrival running.preGreen.toNat
    else
      let search ← status.targetSearch targetPhase arrival
      status.smoothControl targetPhase arrival running.preGreen.toNat search

/-! ## The property and the condition -/

section Condition

variable (list : PlanList) (table : PlanTable) (targetPhase : UInt8) (arrival : ℚ)

/-- The target is not a main phase, and its search gives up. -/
def SearchGivesUp : Prop :=
  status.isMainSubPhase (list.planTableSearch status.planId) targetPhase
      (status.plan targetPhase).green (List.range status.subPhaseCount.toNat) = some false ∧
    ∃ search, status.targetSearch targetPhase arrival = some search ∧
      searchLimit ≤ search.beforeTarget

/-- The optimization stays within its tables and never divides by zero, its search takes ten
steps at most, and it gives -1 outside the first step and where the search gives up, and a
time that is not negative elsewhere. -/
structure OptimizationSafe : Prop where
  steps : ∀ search, status.targetSearch targetPhase arrival = some search →
    search.beforeTarget ≤ 10
  result : ∃ adjustTime, status.evspOptimization list targetPhase arrival = some adjustTime ∧
    (adjustTime = -1 ↔ status.stepId ≠ 1 ∨ status.SearchGivesUp list targetPhase arrival) ∧
    (adjustTime ≠ -1 → 0 ≤ adjustTime)

/-- A subphase of the plan, other than the target, with as much green. -/
def Dominates (i : ℕ) : Prop :=
  ∃ subPhase, table.planSubPhase.entries[i]? = some subPhase ∧
    subPhase.subPhaseId ≠ targetPhase ∧
    (status.plan targetPhase).green ≤ (status.plan subPhase.subPhaseId).green

/-- Up to the first dominating subphase the plan lists as many as the controller has. -/
def ScanStays (first count : ℕ) : Prop :=
  ∀ i, first ≤ i → i < first + count →
    (∀ j, first ≤ j → j < i → ¬ status.Dominates table targetPhase j) → table.Lists i

/-- The seconds from now to the end of the target phase, later in this cycle. -/
def secondsToTargetEnd : Int :=
  status.subPhaseTime + ∑ i ∈ Finset.Ico status.subPhaseId.toNat targetPhase.toNat,
    (status.planAt i).subPhaseSeconds

/-- The search does not come to a ninth phase. -/
def SearchStays : Prop :=
  status.subPhaseCount.toNat ≤ 8 ∨
    status.subPhaseId.toNat ≤ targetPhase.toNat ∧
      status.subPhaseThreshold targetPhase arrival ≤ status.secondsToTargetEnd targetPhase

/-- Where the optimization is safe. -/
def OptimizationFits : Prop :=
  status.stepId = 1 →
    (1 ≤ status.subPhaseId.toNat ∧ status.subPhaseId.toNat ≤ 8) ∧
      status.ScanStays table targetPhase 0 status.subPhaseCount.toNat ∧
      ((∃ i < status.subPhaseCount.toNat, status.Dominates table targetPhase i) →
        status.SearchStays targetPhase arrival)

end Condition

end TrafficSignalStatus

/-! ## The reads -/

section Reads

variable {status : TrafficSignalStatus}

theorem readPlan_phase (phase : UInt8) :
    status.readPlan (phase.toNat - 1) =
      if 1 ≤ phase.toNat ∧ phase.toNat ≤ 8 then some (status.plan phase) else none := by
  unfold TrafficSignalStatus.readPlan phaseCountMaxNum
  by_cases hphase : 1 ≤ phase.toNat ∧ phase.toNat ≤ 8
  · have hindex : ((phase.toNat : Int) - 1).toNat = phase.toNat - 1 := by omega
    rw [if_pos hphase, if_pos (by omega), hindex, TrafficSignalStatus.planAt, phaseAt,
      Nat.sub_add_cancel hphase.1, UInt8.ofNat_toNat]
  · rw [if_neg hphase, if_neg (by omega)]

theorem readPlan_index (index : ℕ) :
    status.readPlan index = if index < 8 then some (status.planAt index) else none := by
  unfold TrafficSignalStatus.readPlan phaseCountMaxNum
  by_cases hindex : index < 8
  · rw [if_pos hindex, if_pos (by omega), Int.toNat_natCast]
  · rw [if_neg hindex, if_neg (by omega)]

theorem nextIndex_of_pos (hcount : 0 < status.subPhaseCount.toNat) (index : ℕ) :
    status.nextIndex index = some ((index + 1) % status.subPhaseCount.toNat) := by
  refine if_neg fun hzero => ?_
  rw [hzero] at hcount
  exact absurd hcount (by decide)

end Reads

/-! ## Whether the target is the main phase -/

section Scan

variable {status : TrafficSignalStatus} {table : PlanTable} {targetPhase : UInt8}

theorem scanStays_succ {first count : ℕ} (hlisted : table.Lists first)
    (hdominates : ¬ status.Dominates table targetPhase first) :
    status.ScanStays table targetPhase first (count + 1) ↔
      status.ScanStays table targetPhase (first + 1) count := by
  constructor
  · intro h i hfirst hlast hbefore
    refine h i (by omega) (by omega) fun j hj hji => ?_
    rcases Nat.eq_or_lt_of_le hj with rfl | hj
    · exact hdominates
    · exact hbefore j hj hji
  · intro h i hfirst hlast hbefore
    rcases Nat.eq_or_lt_of_le hfirst with rfl | hfirst
    · exact hlisted
    · exact h i hfirst (by omega) fun j hj hji => hbefore j (by omega) hji

section Cons

variable {i : ℕ} {rest : List ℕ} {targetGreen : UInt16}

theorem isMainSubPhase_cons {subPhase : PlanSubPhase}
    (hentry : table.planSubPhase.entries[i]? = some subPhase)
    (hid : 1 ≤ subPhase.subPhaseId.toNat ∧ subPhase.subPhaseId.toNat ≤ 8) :
    status.isMainSubPhase (some table) targetPhase targetGreen (i :: rest) =
      if subPhase.subPhaseId ≠ targetPhase ∧
          targetGreen ≤ (status.plan subPhase.subPhaseId).green then some false
      else status.isMainSubPhase (some table) targetPhase targetGreen rest := by
  rw [TrafficSignalStatus.isMainSubPhase]
  simp only [Option.bind_eq_bind, Option.bind_some, hentry, readPlan_phase, if_pos hid]

theorem isMainSubPhase_cons_of_not_lists (hlists : ¬ table.Lists i) :
    status.isMainSubPhase (some table) targetPhase targetGreen (i :: rest) = none := by
  rw [TrafficSignalStatus.isMainSubPhase]
  simp only [Option.bind_eq_bind, Option.bind_some]
  cases hentry : table.planSubPhase.entries[i]? with
  | none => rfl
  | some subPhase =>
      have hid : ¬ (1 ≤ subPhase.subPhaseId.toNat ∧ subPhase.subPhaseId.toNat ≤ 8) :=
        fun hid => hlists ⟨subPhase, hentry, hid⟩
      rw [Option.bind_some, readPlan_phase, if_neg hid]
      rfl

end Cons

/-- The scan has a result exactly if it stays in the list, and finds out whether another
subphase dominates. -/
theorem isMainSubPhase_cases (first count : ℕ) :
    (status.ScanStays table targetPhase first count ∧
      ((∃ i, first ≤ i ∧ i < first + count ∧ status.Dominates table targetPhase i) ∧
          status.isMainSubPhase (some table) targetPhase (status.plan targetPhase).green
            (List.range' first count) = some false ∨
        (¬ ∃ i, first ≤ i ∧ i < first + count ∧ status.Dominates table targetPhase i) ∧
          status.isMainSubPhase (some table) targetPhase (status.plan targetPhase).green
            (List.range' first count) = some true)) ∨
    (¬ status.ScanStays table targetPhase first count ∧
      status.isMainSubPhase (some table) targetPhase (status.plan targetPhase).green
        (List.range' first count) = none) := by
  induction count generalizing first with
  | zero =>
      refine Or.inl ⟨fun i hfirst hlast => absurd hlast (by omega), Or.inr ⟨?_, rfl⟩⟩
      rintro ⟨i, hfirst, hlast, -⟩
      omega
  | succ count ih =>
      rw [List.range'_succ]
      by_cases hlists : table.Lists first
      · obtain ⟨subPhase, hentry, hid⟩ := id hlists
        rw [isMainSubPhase_cons hentry hid]
        by_cases hdominates : status.Dominates table targetPhase first
        · obtain ⟨other, hother, hgreen⟩ := id hdominates
          obtain rfl := Option.some.inj (hentry.symm.trans hother)
          rw [if_pos hgreen]
          refine Or.inl ⟨fun i hfirst hlast hbefore => ?_, Or.inl ⟨⟨first, le_rfl, by omega,
            hdominates⟩, rfl⟩⟩
          rcases Nat.eq_or_lt_of_le hfirst with rfl | hfirst
          · exact hlists
          · exact absurd hdominates (hbefore first le_rfl hfirst)
        · rw [if_neg fun hgreen => hdominates ⟨subPhase, hentry, hgreen⟩,
            scanStays_succ hlists hdominates]
          have hrange : (∃ i, first ≤ i ∧ i < first + (count + 1) ∧
                status.Dominates table targetPhase i) ↔
              ∃ i, first + 1 ≤ i ∧ i < first + 1 + count ∧
                status.Dominates table targetPhase i := by
            constructor
            · rintro ⟨i, hfirst, hlast, hi⟩
              rcases Nat.eq_or_lt_of_le hfirst with rfl | hfirst
              · exact absurd hi hdominates
              · exact ⟨i, hfirst, by omega, hi⟩
            · rintro ⟨i, hfirst, hlast, hi⟩
              exact ⟨i, by omega, by omega, hi⟩
          rw [hrange]
          exact ih (first + 1)
      · rw [isMainSubPhase_cons_of_not_lists hlists]
        refine Or.inr ⟨fun h => hlists (h first le_rfl (by omega) fun j hj hji => ?_), rfl⟩
        omega

end Scan

/-! ## The search -/

section Search

variable {status : TrafficSignalStatus} {targetPhase : UInt8} {threshold : ℚ}

theorem searchTarget_steps_le (fuel index : ℕ) {search found : TargetSearch}
    (h : status.searchTarget targetPhase threshold fuel index search = some found) :
    found.beforeTarget ≤ search.beforeTarget + fuel := by
  induction fuel generalizing index search with
  | zero =>
      rw [TrafficSignalStatus.searchTarget] at h
      rw [Option.some.inj h]
      omega
  | succ fuel ih =>
      rw [TrafficSignalStatus.searchTarget] at h
      split_ifs at h
      · obtain ⟨next, -, h⟩ := Option.bind_eq_some_iff.mp h
        obtain ⟨plan, -, h⟩ := Option.bind_eq_some_iff.mp h
        have hle := ih next h
        dsimp only at hle
        omega
      · rw [Option.some.inj h]
        omega

/-- With eight phases at most every phase has a plan. -/
theorem exists_searchTarget (hpositive : 0 < status.subPhaseCount.toNat)
    (hcount : status.subPhaseCount.toNat ≤ 8) (fuel index : ℕ) (search : TargetSearch) :
    ∃ found, status.searchTarget targetPhase threshold fuel index search = some found := by
  induction fuel generalizing index search with
  | zero => exact ⟨search, rfl⟩
  | succ fuel ih =>
      have hnext := Nat.mod_lt (index + 1) hpositive
      rw [TrafficSignalStatus.searchTarget, nextIndex_of_pos hpositive]
      simp only [Option.bind_eq_bind, Option.bind_some, readPlan_index]
      rw [if_pos (by omega : (index + 1) % status.subPhaseCount.toNat < 8), Option.bind_some]
      split_ifs
      · exact ih _ _
      · exact ⟨search, rfl⟩

/-- With more phases than plans the search has to end in the target phase, in this cycle. -/
theorem exists_searchTarget_iff (hcount : 8 < status.subPhaseCount.toNat)
    (htarget : 1 ≤ targetPhase.toNat ∧ targetPhase.toNat ≤ 8) (fuel index : ℕ) (hindex : index < 8)
    (hfuel : 8 - index ≤ fuel) (search : TargetSearch) :
    (∃ found, status.searchTarget targetPhase threshold fuel index search = some found) ↔
      index < targetPhase.toNat ∧
        threshold ≤ (search.accumulation + search.subPhaseTime +
          ∑ i ∈ Finset.Ico (index + 1) targetPhase.toNat, (status.planAt i).subPhaseSeconds :
            Int) := by
  induction fuel generalizing index search with
  | zero => omega
  | succ fuel ih =>
      have hmod : (index + 1) % status.subPhaseCount.toNat = index + 1 :=
        Nat.mod_eq_of_lt (by omega)
      rw [TrafficSignalStatus.searchTarget, nextIndex_of_pos (by omega), hmod]
      simp only [Option.bind_eq_bind, Option.bind_some, readPlan_index]
      by_cases hmore : index ≠ targetPhase.toNat - 1 ∨
          ((search.accumulation + search.subPhaseTime : Int) : ℚ) < threshold
      · rw [if_pos hmore]
        -- past the target, or in it and too early, another phase is needed
        have hpast : targetPhase.toNat ≤ index + 1 → ¬ (index < targetPhase.toNat ∧
            threshold ≤ (search.accumulation + search.subPhaseTime +
              ∑ i ∈ Finset.Ico (index + 1) targetPhase.toNat, (status.planAt i).subPhaseSeconds :
                Int)) := by
          rintro hle ⟨hlt, hthreshold⟩
          rw [Finset.Ico_eq_empty (by omega), Finset.sum_empty, add_zero] at hthreshold
          rcases hmore with hne | hearly
          · omega
          · exact absurd hthreshold (not_le.mpr hearly)
        by_cases hlast : index + 1 < 8
        · rw [if_pos hlast, Option.bind_some, ih (index + 1) hlast (by omega)]
          by_cases hbefore : index + 1 < targetPhase.toNat
          · rw [and_iff_right hbefore, and_iff_right (by omega),
              Finset.sum_eq_sum_Ico_succ_bot hbefore, ← add_assoc]
          · exact iff_of_false (fun h => hbefore h.1) (hpast (by omega))
        · rw [if_neg hlast]
          exact iff_of_false (by simp) (hpast (by omega))
      · rw [if_neg hmore]
        rw [not_or, not_not, not_lt] at hmore
        refine iff_of_true ⟨search, rfl⟩ ⟨by omega, ?_⟩
        rw [Finset.Ico_eq_empty (by omega), Finset.sum_empty, add_zero]
        exact hmore.2

/-- The search has passed every phase whose green is to be shortened. -/
theorem exists_shortage (shorten : Int) (fuel index : ℕ) {search found : TargetSearch}
    (h : status.searchTarget targetPhase threshold fuel index search = some found) (count : ℕ)
    (hcount : search.beforeTarget + count ≤ found.beforeTarget) :
    ∃ remain, status.shortage shorten count index = some remain := by
  induction fuel generalizing index search count with
  | zero =>
      rw [TrafficSignalStatus.searchTarget] at h
      obtain rfl := Option.some.inj h
      obtain rfl : count = 0 := by omega
      exact ⟨0, rfl⟩
  | succ fuel ih =>
      cases count with
      | zero => exact ⟨0, rfl⟩
      | succ count =>
          rw [TrafficSignalStatus.searchTarget] at h
          split_ifs at h
          · obtain ⟨next, hnext, h⟩ := Option.bind_eq_some_iff.mp h
            obtain ⟨plan, hplan, h⟩ := Option.bind_eq_some_iff.mp h
            obtain ⟨rest, hrest⟩ := ih next h count (by dsimp only; omega)
            rw [TrafficSignalStatus.shortage, hnext, Option.bind_eq_bind, Option.bind_some,
              hplan, Option.bind_eq_bind, Option.bind_some, hrest]
            exact ⟨_, rfl⟩
          · obtain rfl := Option.some.inj h
            omega

end Search

/-! ## The result -/

section Result

variable {status : TrafficSignalStatus} {targetPhase : UInt8} {arrival : ℚ} {pretime : Int}

theorem evspExtendFormula_nonneg {tbf : Int} (htbf : 0 ≤ tbf) (target : Int) :
    0 ≤ status.evspExtendFormula target tbf :=
  Int.add_nonneg (Int.natCast_nonneg _) htbf

/-- The green is -1 where the search gave up, and not negative elsewhere. -/
theorem smoothControl_cases (hpretime : 0 ≤ pretime) {search : TargetSearch}
    (hsearch : status.targetSearch targetPhase arrival = some search) :
    ∃ adjustTime, status.smoothControl targetPhase arrival pretime search = some adjustTime ∧
      (adjustTime = -1 ↔ searchLimit ≤ search.beforeTarget) ∧
      (adjustTime ≠ -1 → 0 ≤ adjustTime) := by
  unfold TrafficSignalStatus.smoothControl
  by_cases hlimit : searchLimit ≤ search.beforeTarget
  · rw [if_pos hlimit]
    exact ⟨-1, rfl, iff_of_true rfl hlimit, fun h => absurd rfl h⟩
  rw [if_neg hlimit]
  -- every other time is not negative
  have hnonneg : ∀ {result : Option Int}, (∃ adjustTime, result = some adjustTime ∧
      0 ≤ adjustTime) → ∃ adjustTime, result = some adjustTime ∧
        (adjustTime = -1 ↔ searchLimit ≤ search.beforeTarget) ∧
        (adjustTime ≠ -1 → 0 ≤ adjustTime) := by
    rintro result ⟨adjustTime, hresult, hadjust⟩
    exact ⟨adjustTime, hresult, iff_of_false (by omega) hlimit, fun _ => hadjust⟩
  apply hnonneg
  by_cases hzero : search.beforeTarget = 0
  · rw [if_pos hzero]
    exact ⟨_, rfl, Int.add_nonneg hpretime (evspExtendFormula_nonneg (by decide) _)⟩
  rw [if_neg hzero]
  by_cases hearly : arrival < search.accumulation
  · rw [if_pos hearly]
    obtain ⟨remain, hremain⟩ := exists_shortage
      ⌈(search.accumulation - arrival) / search.beforeTarget⌉ _ _ hsearch
      (search.beforeTarget - 1) (by dsimp only; omega)
    dsimp only
    rw [hremain, Option.bind_eq_bind, Option.bind_some]
    refine ⟨_, rfl, ?_⟩
    split_ifs <;> omega
  rw [if_neg hearly]
  by_cases hlate : ((search.accumulation + search.subPhaseTime : Int) : ℚ) < arrival
  · rw [if_pos hlate]
    refine ⟨_, rfl, Int.add_nonneg hpretime (Int.ceil_nonneg ?_)⟩
    exact div_nonneg (sub_nonneg.mpr hlate.le) (Nat.cast_nonneg _)
  · rw [if_neg hlate]
    exact ⟨pretime, rfl, hpretime⟩

theorem quickRotation_nonneg (hpretime : 0 ≤ pretime) :
    0 ≤ status.quickRotation targetPhase arrival pretime := by
  unfold TrafficSignalStatus.quickRotation
  split_ifs
  · exact Int.add_nonneg hpretime (evspExtendFormula_nonneg (by decide) _)
  · exact le_rfl
  · exact hpretime

/-- The search from a running phase has a result exactly if it does not come to a ninth
phase. -/
theorem exists_targetSearch_iff (hpositive : 0 < status.subPhaseCount.toNat)
    (hrunning : 1 ≤ status.subPhaseId.toNat ∧ status.subPhaseId.toNat ≤ 8)
    (htarget : 1 ≤ targetPhase.toNat ∧ targetPhase.toNat ≤ 8) :
    (∃ search, status.targetSearch targetPhase arrival = some search) ↔
      status.SearchStays targetPhase arrival := by
  unfold TrafficSignalStatus.targetSearch TrafficSignalStatus.SearchStays
  rcases Nat.lt_or_ge 8 status.subPhaseCount.toNat with hmany | hfew
  · rw [exists_searchTarget_iff hmany htarget _ _ (by omega) (by rw [searchLimit]; omega),
      or_iff_right (by omega), Nat.sub_add_cancel hrunning.1]
    dsimp only
    rw [zero_add]
    exact and_congr_left fun _ => by omega
  · exact iff_of_true (exists_searchTarget hpositive hfew _ _ _) (Or.inl hfew)

end Result

/-- The optimization is safe exactly if it is not the first step, or the controller reports
a phase from 1 to 8, the plan lists as many subphases as the controller has up to the first
that dominates the target, and a search for the target does not come to a ninth phase. -/
theorem optimizationSafe_iff {status : TrafficSignalStatus} {list : PlanList} {table : PlanTable}
    (hplan : list.planTableSearch status.planId = some table) {targetPhase : UInt8}
    (htarget : 1 ≤ targetPhase.toNat ∧ targetPhase.toNat ≤ 8) (arrival : ℚ) :
    status.OptimizationSafe list targetPhase arrival ↔
      status.OptimizationFits table targetPhase arrival := by
  have hsteps : ∀ search, status.targetSearch targetPhase arrival = some search →
      search.beforeTarget ≤ 10 := fun search hsearch => by
    have hle := searchTarget_steps_le _ _ hsearch
    rwa [zero_add] at hle
  have hsafe : status.OptimizationSafe list targetPhase arrival ↔
      ∃ adjustTime, status.evspOptimization list targetPhase arrival = some adjustTime ∧
        (adjustTime = -1 ↔ status.stepId ≠ 1 ∨ status.SearchGivesUp list targetPhase arrival) ∧
        (adjustTime ≠ -1 → 0 ≤ adjustTime) := ⟨fun h => h.result, fun h => ⟨hsteps, h⟩⟩
  rw [hsafe]
  unfold TrafficSignalStatus.OptimizationFits TrafficSignalStatus.evspOptimization
  by_cases hstep : status.stepId = 1
  · rw [if_neg (not_not.mpr hstep), forall_prop_of_true hstep]
    simp only [hplan, readPlan_phase, if_pos htarget, hstep, ne_eq, not_true, false_or]
    by_cases hrunning : 1 ≤ status.subPhaseId.toNat ∧ status.subPhaseId.toNat ≤ 8
    · rw [if_pos hrunning, and_iff_right hrunning]
      simp only [Option.bind_eq_bind, Option.bind_some]
      unfold TrafficSignalStatus.SearchGivesUp
      rw [hplan, List.range_eq_range']
      have hpretime := Int.natCast_nonneg (status.plan status.subPhaseId).preGreen.toNat
      rcases @isMainSubPhase_cases status table targetPhase 0 status.subPhaseCount.toNat with
        ⟨hstays, ⟨⟨i, -, hi, hdominates⟩, hmain⟩ | ⟨hnone, hmain⟩⟩ | ⟨hleaves, hmain⟩
      · have hpositive : 0 < status.subPhaseCount.toNat := by omega
        rw [zero_add] at hi
        rw [hmain, Option.bind_some, and_iff_right hstays, if_neg (by decide),
          forall_prop_of_true ⟨i, hi, hdominates⟩,
          ← exists_targetSearch_iff hpositive hrunning htarget, and_iff_right rfl]
        constructor
        · rintro ⟨adjustTime, hadjust, -⟩
          obtain ⟨search, hsearch, -⟩ := Option.bind_eq_some_iff.mp hadjust
          exact ⟨search, hsearch⟩
        · rintro ⟨search, hsearch⟩
          obtain ⟨adjustTime, hadjust, hgivesUp, hnonneg⟩ := smoothControl_cases hpretime hsearch
          refine ⟨adjustTime, ?_, hgivesUp.trans ?_, hnonneg⟩
          · rw [hsearch, Option.bind_some]
            exact hadjust
          · simp only [hsearch, Option.some.injEq, exists_eq_left']
      · rw [hmain, Option.bind_some, and_iff_right hstays, if_pos rfl]
        have hnonneg := @quickRotation_nonneg status targetPhase arrival _ hpretime
        refine iff_of_true ⟨_, rfl, iff_of_false (by omega) ?_, fun _ => hnonneg⟩ ?_
        · exact fun h => absurd h.1 (by simp)
        · rintro ⟨i, hi, hdominates⟩
          exact absurd ⟨i, Nat.zero_le i, by omega, hdominates⟩ hnone
      · rw [hmain]
        exact iff_of_false (by simp) fun h => hleaves h.1
    · rw [if_neg hrunning]
      exact iff_of_false (by simp) fun h => hrunning h.1
  · rw [if_pos hstep]
    refine iff_of_true ⟨-1, rfl, iff_of_true rfl (Or.inl hstep), fun h => absurd rfl h⟩ ?_
    exact fun h => absurd h hstep

/-- A file with one plan of one phase. -/
def onePhaseFile : List Char := "plan_table 1\n1,0,\nplan_table_end".toList

def onePhaseTable : PlanTable where
  planId := ⟨[1], 5, by decide⟩
  planSubPhase := ⟨[⟨1, []⟩], 5, by decide⟩

def onePhaseList : PlanList where
  terminateArea := .empty
  touchingArea := .empty
  planTable := ⟨[onePhaseTable], 5, by decide⟩

/-- The first step of the first phase, after the parameters of a plan with so many phases. -/
def TrafficSignalStatus.firstStep (count : UInt8) : TrafficSignalStatus :=
  (run Middleware.dispatch
    (Middleware.boot Config.initial (TrafficSignalStatus.initial fun _ => .unset))
    [.onePhasePlan 0xC8 1 30, .equalPhases count 10, .confirmation 0 1 1]).status

theorem optimizationSafe_iff_one :
    (TrafficSignalStatus.firstStep 1).OptimizationSafe onePhaseList 1 0 ↔
      (TrafficSignalStatus.firstStep 1).OptimizationFits onePhaseTable 1 0 :=
  optimizationSafe_iff rfl (by decide) 0

/-- The controller has two phases, and the second is looked up behind the list. -/
theorem second_phase_unlisted :
    evspTableConfig (some onePhaseFile) = some (1, onePhaseList) ∧
      onePhaseList.planTableSearch (TrafficSignalStatus.firstStep 2).planId =
        some onePhaseTable ∧
      ¬ (TrafficSignalStatus.firstStep 2).OptimizationSafe onePhaseList 1 0 := by
  have hunlisted :
      ((TrafficSignalStatus.firstStep 2).evspOptimization onePhaseList 1 0).isNone = true := by
    decide
  refine ⟨rfl, rfl, fun hsafe => ?_⟩
  obtain ⟨adjustTime, hadjust, -⟩ := hsafe.result
  rw [hadjust] at hunlisted
  cases hunlisted

end AdaptiveSignal.Signal
