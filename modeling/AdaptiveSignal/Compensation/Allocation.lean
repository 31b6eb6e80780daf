import AdaptiveSignal.Foundation.Distribution
import AdaptiveSignal.Signal.Middleware

/-! # Allocating the seconds of a compensation

The seconds by which the plan is off are split over some cycles; in each of them the
weights of the phases allocate a first part, and what they leave is allocated whole
to one phase after the other, the longest green first. A phase takes seconds as far
as its green bounds let it. Phases are numbered from zero here, as in the loops of
the source.
-/

namespace AdaptiveSignal.Signal

open Foundation

/-- The subphase number of the phase with array index `index`. -/
def phaseAt (index : ℕ) : UInt8 := UInt8.ofNat (index + 1)

def TrafficSignalStatus.planAt (status : TrafficSignalStatus) (index : ℕ) : StaticPlan :=
  status.plan (phaseAt index)

/-- The planned green of the phase with array index `index`. -/
def TrafficSignalStatus.greenAt (status : TrafficSignalStatus) (index : ℕ) : ℕ :=
  (status.planAt index).preGreen.toNat

/-- `effect_time` brought between the green bounds. -/
def StaticPlan.boundGreen (plan : StaticPlan) (effectTime : Int) : Int :=
  if effectTime < plan.minGreen.toNat then plan.minGreen.toNat
  else if plan.maxGreen.toNat < effectTime then plan.maxGreen.toNat
  else effectTime

/-- The seconds allocated to the phases, and those still to be allocated. -/
structure Allocation where
  seconds : ℕ → Int16
  remaining : Int

/-- The phase takes `compTime` of the remaining seconds; its own are kept in 16 bits. -/
def Allocation.take (a : Allocation) (index : ℕ) (compTime : Int) : Allocation where
  seconds := Function.update a.seconds index (Int16.ofInt ((a.seconds index).toInt + compTime))
  remaining := a.remaining - compTime

/-- What the weights of the phases make of an amount of seconds: `share index amount`
is `ceil(amount * weight)` for the phase `index`. -/
abbrev PhaseShare := ℕ → ℕ → ℕ

/-- The weight 100 for one phase and none for the others. -/
def PhaseShare.whole (index : ℕ) : PhaseShare := fun i amount => if i = index then amount else 0

namespace TrafficSignalStatus

variable (status : TrafficSignalStatus)

/-- The seconds a phase is to take: its share, but no more than what remains. -/
def compTime (share : PhaseShare) (compensationTime remaining : Int) (index : ℕ) : Int :=
  if 0 < compensationTime then
    let compTime : Int := share index compensationTime.toNat
    if compTime > remaining then remaining else compTime
  else
    let compTime : Int := -(share index (-compensationTime).toNat : ℕ)
    if compTime < remaining then remaining else compTime

/-- The body of the loop of `allocate_compensation_by_weight`, which ends as soon as
nothing remains. -/
def allocatePhase (share : PhaseShare) (compensationTime : Int) (a : Allocation) (index : ℕ) :
    Allocation :=
  if a.remaining = 0 then a
  else
    let plan := status.planAt index
    let effectTime := plan.boundGreen (plan.preGreen.toNat + (a.seconds index).toInt +
      compTime share compensationTime a.remaining index)
    a.take index (effectTime - plan.preGreen.toNat - (a.seconds index).toInt)

def allocateCompensationByWeight (share : PhaseShare) (compensationTime : Int)
    (seconds : ℕ → Int16) : Allocation :=
  run (status.allocatePhase share compensationTime) ⟨seconds, compensationTime⟩
    (List.range status.subPhaseCount.toNat)

/-- One comparison of the bubble sort. -/
def swapGreens (index : ℕ → ℕ) (j : ℕ) : ℕ → ℕ :=
  if (status.planAt (index j)).preGreen < (status.planAt (index (j + 1))).preGreen then
    Function.update (Function.update index j (index (j + 1))) (j + 1) (index j)
  else index

/-- The indices of the phases, the longest green first. -/
def greenOrder : ℕ → ℕ :=
  run (fun index i => run status.swapGreens index
      (List.range (status.subPhaseCount.toNat - i - 1)))
    (fun i => i) (List.range (status.subPhaseCount.toNat - 1))

def allocateRemainingTime (remaining : Int) (seconds : ℕ → Int16) : Allocation :=
  run (fun a i =>
      if a.remaining = 0 then a
      else status.allocateCompensationByWeight (.whole (status.greenOrder i)) a.remaining a.seconds)
    ⟨seconds, remaining⟩ (List.range status.subPhaseCount.toNat)

/-- The allocation of the seconds of one cycle. The remainder of the weights passes
through 16 bits. -/
def allocateCycle (share : PhaseShare) (compensation : Int16) : Allocation :=
  let byWeight := status.allocateCompensationByWeight share compensation.toInt fun _ => 0
  status.allocateRemainingTime (Int16.ofInt byWeight.remaining).toInt byWeight.seconds

end TrafficSignalStatus

/-- One cycle of the split: an even part of what the cycles before left. -/
def splitCycle (compCycleNum : ℕ) (split : Int16 × (ℕ → Int16)) (cycle : ℕ) :
    Int16 × (ℕ → Int16) :=
  let part := Int16.ofInt (split.1.toInt.tdiv compCycleNum)
  (Int16.ofInt (split.1.toInt - part.toInt), Function.update split.2 cycle part)

/-- `get_cycle_compensation_time`: the total is split evenly, and the first cycle
takes what is left. -/
def cycleCompensations (total : Int16) (compCycleNum : ℕ) : ℕ → Int16 :=
  let split := run (splitCycle compCycleNum) (total, fun _ => 0)
    (List.range' 1 (compCycleNum - 1))
  Function.update split.2 0 split.1

/-! ## Every second is allocated once -/

/-- An allocation with its seconds as numbers. -/
def Allocation.distribution (a : Allocation) : Distribution ℕ Int :=
  ⟨fun index => (a.seconds index).toInt, a.remaining⟩

/-- Seconds that 16 bits hold are handed out as they are. -/
theorem distribution_take {a : Allocation} {index : ℕ} {part : Int}
    (hword : -32768 ≤ (a.seconds index).toInt + part ∧ (a.seconds index).toInt + part ≤ 32767) :
    (a.take index part).distribution = a.distribution.give index part := by
  ext other
  · simp only [Allocation.distribution, Allocation.take, Distribution.give]
    rcases eq_or_ne other index with rfl | hother
    · rw [Function.update_self, Function.update_self]
      exact Int16.toInt_ofInt_of_le (by omega) (by omega)
    · rw [Function.update_of_ne hother, Function.update_of_ne hother]
  · rfl

section Sound

variable {status : TrafficSignalStatus}

/-- The greens of the phases keep the bounds of their plans. -/
def TrafficSignalStatus.GreensBounded (status : TrafficSignalStatus) : Prop :=
  ∀ index < status.subPhaseCount.toNat,
    (status.planAt index).minGreen.toNat ≤ (status.planAt index).preGreen.toNat ∧
      (status.planAt index).preGreen.toNat ≤ (status.planAt index).maxGreen.toNat

instance (status : TrafficSignalStatus) : Decidable status.GreensBounded :=
  inferInstanceAs (Decidable (∀ _ < _, _))

/-- Of `total` seconds none is lost, and every phase keeps its green bounds. -/
structure Allocation.Sound (status : TrafficSignalStatus) (total : Int16) (a : Allocation) :
    Prop where
  toward : a.distribution.Toward total.toInt
  amount : a.distribution.amount (Finset.range status.subPhaseCount.toNat) = total.toInt
  bounded : ∀ index < status.subPhaseCount.toNat,
    (status.planAt index).minGreen.toNat ≤
        (status.planAt index).preGreen.toNat + (a.seconds index).toInt ∧
      (status.planAt index).preGreen.toNat + (a.seconds index).toInt ≤
        (status.planAt index).maxGreen.toNat

/-- No phase can be given seconds that 16 bits do not hold: neither those up to its
upper bound nor those down to its lower one. -/
def TrafficSignalStatus.FitsWord (status : TrafficSignalStatus) (total : Int) : Prop :=
  ∀ index < status.subPhaseCount.toNat,
    min total ((status.planAt index).maxGreen.toNat - (status.planAt index).preGreen.toNat) ≤
        32767 ∧
      -32768 ≤
        max total ((status.planAt index).minGreen.toNat - (status.planAt index).preGreen.toNat)

instance (status : TrafficSignalStatus) (total : Int) : Decidable (status.FitsWord total) :=
  inferInstanceAs (Decidable (∀ _ < _, _))

/-- The seconds of a cycle have 16 bits themselves. -/
theorem fitsWord_int16 (status : TrafficSignalStatus) (total : Int16) :
    status.FitsWord total.toInt := by
  have hlow := total.le_toInt
  have hhigh := total.toInt_lt
  intro index _
  omega

/-- Of any total none is lost, and every phase keeps its green bounds. -/
structure Allocation.Conserves (status : TrafficSignalStatus) (total : Int) (a : Allocation) :
    Prop where
  toward : a.distribution.Toward total
  amount : a.distribution.amount (Finset.range status.subPhaseCount.toNat) = total
  bounded : ∀ index < status.subPhaseCount.toNat,
    (status.planAt index).minGreen.toNat ≤
        (status.planAt index).preGreen.toNat + (a.seconds index).toInt ∧
      (status.planAt index).preGreen.toNat + (a.seconds index).toInt ≤
        (status.planAt index).maxGreen.toNat

theorem conserves_untouched (hgreens : status.GreensBounded) (total : Int) :
    Allocation.Conserves status total ⟨fun _ => 0, total⟩ where
  toward := Distribution.toward_untouched total
  amount := Distribution.amount_untouched _ total
  bounded := by
    intro index hindex
    have hbounds := hgreens index hindex
    simp only [Int16.toInt_zero]
    omega

/-- The share of a phase, cut to what remains, is a part of what remains. -/
theorem compTime_mem (share : PhaseShare) {compensationTime remaining : Int} (index : ℕ)
    (hremaining : remaining ∈ Set.uIcc 0 compensationTime) :
    TrafficSignalStatus.compTime share compensationTime remaining index ∈
      Set.uIcc 0 remaining := by
  have hsign := Set.mem_uIcc.mp hremaining
  apply Set.mem_uIcc.mpr
  unfold TrafficSignalStatus.compTime
  dsimp only
  split_ifs <;> omega

/-- A bounded green that is moved and bounded again moves no further. -/
theorem boundGreen_sub_mem (plan : StaticPlan) {green part remaining : Int}
    (hbounds : plan.minGreen.toNat ≤ green ∧ green ≤ plan.maxGreen.toNat)
    (hpart : part ∈ Set.uIcc 0 remaining) :
    plan.boundGreen (green + part) - green ∈ Set.uIcc 0 remaining := by
  have hsign := Set.mem_uIcc.mp hpart
  apply Set.mem_uIcc.mpr
  unfold StaticPlan.boundGreen
  split_ifs <;> omega

theorem boundGreen_bounds (plan : StaticPlan) (green : Int)
    (hordered : plan.minGreen.toNat ≤ plan.maxGreen.toNat) :
    plan.minGreen.toNat ≤ plan.boundGreen green ∧
      plan.boundGreen green ≤ plan.maxGreen.toNat := by
  unfold StaticPlan.boundGreen
  split_ifs <;> omega

section Total

variable {total : Int} (hfits : status.FitsWord total)
include hfits

/-- What brings a phase to a green within its bounds is handed out as it is. -/
theorem distribution_green {a : Allocation} (hconserves : a.Conserves status total)
    {index : ℕ} (hindex : index < status.subPhaseCount.toNat) {green : Int}
    (hgreen : (status.planAt index).minGreen.toNat ≤ green ∧
      green ≤ (status.planAt index).maxGreen.toNat)
    (hpart : green - (status.planAt index).preGreen.toNat - (a.seconds index).toInt ∈
      Set.uIcc 0 a.remaining) :
    (a.take index (green - (status.planAt index).preGreen.toNat -
        (a.seconds index).toInt)).distribution =
      a.distribution.give index (green - (status.planAt index).preGreen.toNat -
        (a.seconds index).toInt) := by
  have hheld := Set.mem_uIcc.mp (hconserves.toward.given_add index hpart)
  have hword := hfits index hindex
  simp only [Allocation.distribution] at hheld
  exact distribution_take (by omega)

/-- A phase may take what brings it to a green within its bounds. -/
theorem take_conserves {a : Allocation} (hconserves : a.Conserves status total)
    {index : ℕ} (hindex : index < status.subPhaseCount.toNat) {green : Int}
    (hgreen : (status.planAt index).minGreen.toNat ≤ green ∧
      green ≤ (status.planAt index).maxGreen.toNat)
    (hpart : green - (status.planAt index).preGreen.toNat - (a.seconds index).toInt ∈
      Set.uIcc 0 a.remaining) :
    (a.take index (green - (status.planAt index).preGreen.toNat -
      (a.seconds index).toInt)).Conserves status total := by
  have hgive := distribution_green hfits hconserves hindex hgreen hpart
  refine ⟨?_, ?_, ?_⟩
  · rw [hgive]
    exact hconserves.toward.give index hpart
  · rw [hgive, Distribution.amount_give _ _ (Finset.mem_range.mpr hindex)]
    exact hconserves.amount
  · intro other hother
    have hseconds := congrFun (congrArg Distribution.given hgive) other
    simp only [Allocation.distribution, Distribution.give] at hseconds
    rw [hseconds]
    rcases eq_or_ne other index with rfl | hne
    · rw [Function.update_self]
      omega
    · rw [Function.update_of_ne hne]
      exact hconserves.bounded other hother

/-- A pass of the loop allocates the phase a part of what remains. -/
theorem allocatePhase_conserves (share : PhaseShare) {compensationTime : Int}
    {a : Allocation} (hconserves : a.Conserves status total)
    (hremaining : a.remaining ∈ Set.uIcc 0 compensationTime) {index : ℕ}
    (hindex : index < status.subPhaseCount.toNat) :
    (status.allocatePhase share compensationTime a index).Conserves status total ∧
      (status.allocatePhase share compensationTime a index).remaining ∈
        Set.uIcc 0 a.remaining := by
  unfold TrafficSignalStatus.allocatePhase
  split_ifs with hdone
  · exact ⟨hconserves, Set.right_mem_uIcc⟩
  · have hbounded := hconserves.bounded index hindex
    have hshare := compTime_mem share index hremaining
    have hpart := boundGreen_sub_mem (status.planAt index) hbounded hshare
    rw [← sub_sub] at hpart
    exact ⟨take_conserves hfits hconserves hindex (boundGreen_bounds _ _ (by omega)) hpart,
      Distribution.sub_mem_uIcc hpart⟩

theorem allocateCompensationByWeight_conserves (share : PhaseShare) {compensationTime : Int}
    {seconds : ℕ → Int16}
    (hconserves : Allocation.Conserves status total ⟨seconds, compensationTime⟩) :
    (status.allocateCompensationByWeight share compensationTime seconds).Conserves status total ∧
      (status.allocateCompensationByWeight share compensationTime seconds).remaining ∈
        Set.uIcc 0 compensationTime := by
  apply run_invariant_of_mem _ fun a : Allocation =>
    a.Conserves status total ∧ a.remaining ∈ Set.uIcc 0 compensationTime
  · exact ⟨hconserves, Set.right_mem_uIcc⟩
  · rintro a index hindex ⟨hconserves, hremaining⟩
    obtain ⟨hnext, hless⟩ := allocatePhase_conserves hfits share hconserves hremaining
      (List.mem_range.mp hindex)
    exact ⟨hnext, Set.uIcc_subset_uIcc Set.left_mem_uIcc hremaining hless⟩

theorem allocateRemainingTime_conserves {remaining : Int} {seconds : ℕ → Int16}
    (hconserves : Allocation.Conserves status total ⟨seconds, remaining⟩) :
    (status.allocateRemainingTime remaining seconds).Conserves status total := by
  refine run_invariant _ (fun a i hconserves => ?_) _ _ hconserves
  split_ifs
  · exact hconserves
  · exact (allocateCompensationByWeight_conserves hfits _ hconserves).1

end Total

/-- Of the seconds of a cycle none is lost, and every phase keeps its green bounds. -/
theorem allocateCycle_sound (hgreens : status.GreensBounded) (share : PhaseShare)
    (compensation : Int16) :
    (status.allocateCycle share compensation).Sound status compensation := by
  have hfits := fitsWord_int16 status compensation
  obtain ⟨hweights, -⟩ := allocateCompensationByWeight_conserves hfits share
    (conserves_untouched hgreens compensation.toInt)
  have hword : (Int16.ofInt (status.allocateCompensationByWeight share compensation.toInt
      fun _ => 0).remaining).toInt =
      (status.allocateCompensationByWeight share compensation.toInt fun _ => 0).remaining := by
    have hremaining := Set.mem_uIcc.mp hweights.toward.remaining
    have hlow := compensation.le_toInt
    have hhigh := compensation.toInt_lt
    simp only [Allocation.distribution] at hremaining
    exact Int16.toInt_ofInt_of_le (by omega) (by omega)
  have hcycle : (status.allocateCycle share compensation).Conserves status compensation.toInt := by
    apply allocateRemainingTime_conserves hfits
    rw [hword]
    exact hweights
  exact ⟨hcycle.toward, hcycle.amount, hcycle.bounded⟩

end Sound

/-! ## The cycles share the total -/

def splitDistribution (split : Int16 × (ℕ → Int16)) : Distribution ℕ Int :=
  ⟨fun cycle => (split.2 cycle).toInt, split.1.toInt⟩

theorem tdiv_mem_uIcc (amount : Int) {parts : ℕ} (hparts : 0 < parts) :
    amount.tdiv parts ∈ Set.uIcc 0 amount := by
  apply Set.mem_uIcc.mpr
  rcases le_total 0 amount with hsign | hsign
  · left
    rw [Int.tdiv_eq_ediv_of_nonneg hsign]
    exact ⟨Int.ediv_nonneg hsign (by omega), Int.ediv_le_self _ hsign⟩
  · right
    obtain ⟨size, rfl⟩ : ∃ size, amount = -size := ⟨-amount, by omega⟩
    have hsize : 0 ≤ size := by omega
    rw [Int.neg_tdiv, Int.tdiv_eq_ediv_of_nonneg hsize]
    have hnonneg := Int.ediv_nonneg hsize (by omega : (0 : Int) ≤ parts)
    have hle := Int.ediv_le_self (parts : Int) hsize
    omega

/-- A cycle that had nothing is given an even part of what the others left. -/
theorem splitDistribution_splitCycle {compCycleNum : ℕ} (hcycles : 0 < compCycleNum)
    {split : Int16 × (ℕ → Int16)} {cycle : ℕ} (hempty : split.2 cycle = 0) :
    splitDistribution (splitCycle compCycleNum split cycle) =
      (splitDistribution split).give cycle (split.1.toInt.tdiv compCycleNum) := by
  have hpart := Set.mem_uIcc.mp (tdiv_mem_uIcc split.1.toInt hcycles)
  have hlow := split.1.le_toInt
  have hhigh := split.1.toInt_lt
  have hword : (Int16.ofInt (split.1.toInt.tdiv compCycleNum)).toInt =
      split.1.toInt.tdiv compCycleNum := Int16.toInt_ofInt_of_le (by omega) (by omega)
  ext other
  · simp only [splitDistribution, splitCycle, Distribution.give]
    rcases eq_or_ne other cycle with rfl | hother
    · rw [Function.update_self, Function.update_self, hempty, hword, Int16.toInt_zero, zero_add]
    · rw [Function.update_of_ne hother, Function.update_of_ne hother]
  · simp only [splitDistribution, splitCycle, Distribution.give, hword]
    exact Int16.toInt_ofInt_of_le (by omega) (by omega)

/-- After `k` cycles the parts and the rest make up the total, and the first cycle
still has nothing. -/
theorem splitCycles_sound (total : Int16) {compCycleNum k : ℕ} (hk : k < compCycleNum) :
    let split := run (splitCycle compCycleNum) (total, fun _ => 0) (List.range' 1 k)
    (splitDistribution split).amount (Finset.range compCycleNum) = total.toInt ∧
      ∀ cycle, cycle = 0 ∨ k < cycle → split.2 cycle = 0 := by
  induction k with
  | zero =>
      exact ⟨Distribution.amount_untouched _ _, fun _ _ => rfl⟩
  | succ k ih =>
      obtain ⟨hamount, hempty⟩ := ih (by omega)
      have hcycles : 0 < compCycleNum := by omega
      dsimp only
      rw [List.range'_1_concat, run_concat]
      constructor
      · rw [splitDistribution_splitCycle hcycles (hempty (1 + k) (Or.inr (by omega))),
          Distribution.amount_give _ _ (Finset.mem_range.mpr (by omega))]
        exact hamount
      · intro cycle hcycle
        have hne : cycle ≠ 1 + k := by omega
        simp only [splitCycle, Function.update_of_ne hne]
        exact hempty cycle (by omega)

theorem sum_cycleCompensations (total : Int16) {compCycleNum : ℕ} (hcycles : 0 < compCycleNum) :
    ∑ cycle ∈ Finset.range compCycleNum, (cycleCompensations total compCycleNum cycle).toInt =
      total.toInt := by
  have hsplit := splitCycles_sound total (show compCycleNum - 1 < compCycleNum by omega)
  unfold cycleCompensations
  dsimp only at hsplit ⊢
  generalize run (splitCycle compCycleNum) (total, fun _ => 0)
    (List.range' 1 (compCycleNum - 1)) = split at hsplit ⊢
  obtain ⟨hamount, hempty⟩ := hsplit
  have hfirst : (splitDistribution split).given 0 = 0 := by
    simp only [splitDistribution, hempty 0 (Or.inl rfl), Int16.toInt_zero]
  calc ∑ cycle ∈ Finset.range compCycleNum, (Function.update split.2 0 split.1 cycle).toInt
      = ((splitDistribution split).give 0 split.1.toInt).amount (Finset.range compCycleNum) := by
        simp only [Distribution.amount, Distribution.give, hfirst, zero_add]
        rw [show (splitDistribution split).remaining = split.1.toInt from rfl, sub_self, add_zero]
        apply Finset.sum_congr rfl
        intro cycle _
        exact Function.apply_update (fun _ => Int16.toInt) split.2 0 split.1 cycle
    _ = total.toInt := by
        rw [Distribution.amount_give _ _ (Finset.mem_range.mpr hcycles)]
        exact hamount

end AdaptiveSignal.Signal
