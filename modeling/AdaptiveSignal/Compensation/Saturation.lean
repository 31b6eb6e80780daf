import AdaptiveSignal.Compensation.Allocation
import AdaptiveSignal.Foundation.Ranking
import Mathlib.Algebra.Order.Floor.Semiring
import Mathlib.Data.Rat.Floor

/-! # What an allocation leaves over

An amount is allocated in two passes over the phases, by the weights and then, with the
longest green first, as much as a phase can take. What is left over in the end no phase
could take, because the amount has brought every green to its bound.
-/

namespace AdaptiveSignal.Signal

open Foundation

/-- The shares that weights make of an amount. -/
def PhaseShare.ofWeights (weights : ℕ → ℚ) : PhaseShare := fun index amount =>
  ⌈amount * weights index⌉₊

theorem whole_eq_ofWeights (target : ℕ) :
    PhaseShare.whole target = .ofWeights fun index => if index = target then 1 else 0 := by
  funext index amount
  unfold PhaseShare.whole PhaseShare.ofWeights
  by_cases htarget : index = target <;> simp [htarget]

namespace TrafficSignalStatus

variable (status : TrafficSignalStatus)

/-- The body of the last loop of `allocate_remaining_time`. -/
def allocateWhole (a : Allocation) (i : ℕ) : Allocation :=
  if a.remaining = 0 then a
  else status.allocateCompensationByWeight (.whole (status.greenOrder i)) a.remaining a.seconds

/-- `allocate_compensation_by_weight` and then `allocate_remaining_time`. -/
def allocateAmount (share : PhaseShare) (amount : Int) : Allocation :=
  let byWeight := status.allocateCompensationByWeight share amount fun _ => 0
  status.allocateRemainingTime byWeight.remaining byWeight.seconds

/-! ## The allocations on the way -/

/-- The allocations after each phase of `allocate_compensation_by_weight`. -/
def weightSteps (share : PhaseShare) (compensationTime : Int) (seconds : ℕ → Int16) :
    List Allocation :=
  emitted (status.allocatePhase share compensationTime)
    (fun a i => [status.allocatePhase share compensationTime a i]) ⟨seconds, compensationTime⟩
    (List.range status.subPhaseCount.toNat)

def remainingSteps (remaining : Int) (seconds : ℕ → Int16) : List Allocation :=
  emitted status.allocateWhole
    (fun a i =>
      if a.remaining = 0 then []
      else status.weightSteps (.whole (status.greenOrder i)) a.remaining a.seconds)
    ⟨seconds, remaining⟩ (List.range status.subPhaseCount.toNat)

/-- The allocations after each phase of both passes. -/
def allocationSteps (share : PhaseShare) (amount : Int) : List Allocation :=
  let byWeight := status.allocateCompensationByWeight share amount fun _ => 0
  status.weightSteps share amount (fun _ => 0) ++
    status.remainingSteps byWeight.remaining byWeight.seconds

/-- The amount has brought the green of a phase to its bound. -/
def AtBound (amount : Int) (a : Allocation) (index : ℕ) : Prop :=
  (0 < amount → (status.greenAt index : Int) + (a.seconds index).toInt =
      (status.planAt index).maxGreen.toNat) ∧
    (amount < 0 → (status.greenAt index : Int) + (a.seconds index).toInt =
      (status.planAt index).minGreen.toNat)

/-- Of the amount nothing is lost, every green keeps its bounds, what remains never grows
or changes its sign, and in the end nothing remains that a phase could take, in an order of
the phases by their greens. -/
structure AllocatesFully (share : PhaseShare) (amount : Int) : Prop where
  conserved : ∑ index ∈ Finset.range status.subPhaseCount.toNat,
      ((status.allocateAmount share amount).seconds index).toInt +
    (status.allocateAmount share amount).remaining = amount
  bounded : ∀ index < status.subPhaseCount.toNat,
    ((status.planAt index).minGreen.toNat : Int) ≤
        status.greenAt index + ((status.allocateAmount share amount).seconds index).toInt ∧
      status.greenAt index + ((status.allocateAmount share amount).seconds index).toInt ≤
        (status.planAt index).maxGreen.toNat
  remaining : (status.allocateAmount share amount).remaining ∈ Set.uIcc 0 amount
  shrinks : Trail (fun a next : Allocation => next.remaining ∈ Set.uIcc 0 a.remaining)
    ⟨fun _ => 0, amount⟩ (status.allocationSteps share amount)
    (status.allocateAmount share amount)
  saturated : (status.allocateAmount share amount).remaining ≠ 0 →
    ∀ index < status.subPhaseCount.toNat,
      status.AtBound amount (status.allocateAmount share amount) index
  permuted : Set.BijOn status.greenOrder (Set.Iio status.subPhaseCount.toNat)
    (Set.Iio status.subPhaseCount.toNat)
  descending : ∀ i k, i ≤ k → k < status.subPhaseCount.toNat →
    status.greenAt (status.greenOrder k) ≤ status.greenAt (status.greenOrder i)

end TrafficSignalStatus

section Order

variable {status : TrafficSignalStatus}

theorem swapGreens_eq (index : ℕ → ℕ) (j : ℕ) :
    status.swapGreens index j = exchange status.greenAt index j := by
  unfold TrafficSignalStatus.swapGreens exchange
  simp only [UInt16.lt_iff_toNat_lt]
  rfl

/-- The loops are a bubble sort of the phases by their greens. -/
theorem greenOrder_eq : status.greenOrder =
    bubbleSort status.greenAt status.subPhaseCount.toNat fun i => i := by
  have hstep : status.swapGreens = exchange status.greenAt := by
    funext index j
    exact swapGreens_eq index j
  unfold TrafficSignalStatus.greenOrder
  rw [hstep]
  rfl

theorem greenOrder_bijOn : Set.BijOn status.greenOrder (Set.Iio status.subPhaseCount.toNat)
    (Set.Iio status.subPhaseCount.toNat) := by
  obtain ⟨place, hfixed, hplace⟩ := bubbleSort_rearranges status.greenAt
    status.subPhaseCount.toNat fun i => i
  have hback : ∀ k, status.subPhaseCount.toNat ≤ k → place.symm k = k := fun k hk =>
    place.symm_apply_eq.mpr (hfixed k hk).symm
  rw [greenOrder_eq, hplace]
  refine ⟨fun k hk => place_lt hfixed hk, place.injective.injOn, fun k hk => ?_⟩
  exact ⟨place.symm k, place_lt hback hk, place.apply_symm_apply k⟩

end Order

/-! ## What one phase takes of the rest -/

section Saturation

variable {status : TrafficSignalStatus} {amount : Int}

/-- The weight of another phase leaves a phase what it has. -/
theorem allocatePhase_other {a : Allocation} (hconserves : a.Conserves status amount)
    {compensationTime : Int} (hremaining : a.remaining ∈ Set.uIcc 0 compensationTime)
    {index target : ℕ} (hindex : index < status.subPhaseCount.toNat) (hne : index ≠ target) :
    status.allocatePhase (.whole target) compensationTime a index = a := by
  have hnothing : TrafficSignalStatus.compTime (.whole target) compensationTime a.remaining
      index = 0 := by
    have hsign := Set.mem_uIcc.mp hremaining
    unfold TrafficSignalStatus.compTime PhaseShare.whole
    simp only [if_neg hne]
    split_ifs <;> omega
  have hbounded := hconserves.bounded index hindex
  have hgreen : (status.planAt index).boundGreen
      ((status.planAt index).preGreen.toNat + (a.seconds index).toInt + 0) =
      (status.planAt index).preGreen.toNat + (a.seconds index).toInt := by
    unfold StaticPlan.boundGreen
    split_ifs <;> omega
  unfold TrafficSignalStatus.allocatePhase
  split_ifs
  · rfl
  · rw [hnothing]
    dsimp only
    rw [hgreen, add_sub_cancel_left, sub_self]
    simp only [Allocation.take, add_zero, Int16.ofInt_toInt, Function.update_eq_self, sub_zero]

/-- The phase with the whole weight takes all that remains or comes to its bound. -/
theorem allocatePhase_whole (hfits : status.FitsWord amount) {a : Allocation}
    (hconserves : a.Conserves status amount) {target : ℕ}
    (htarget : target < status.subPhaseCount.toNat) :
    (status.allocatePhase (.whole target) a.remaining a target).remaining = 0 ∨
      status.AtBound amount (status.allocatePhase (.whole target) a.remaining a target) target := by
  have hall : TrafficSignalStatus.compTime (.whole target) a.remaining a.remaining target =
      a.remaining := by
    unfold TrafficSignalStatus.compTime PhaseShare.whole
    simp only [if_true]
    split_ifs <;> omega
  have hsign := Set.mem_uIcc.mp hconserves.toward.remaining
  have hbounded := hconserves.bounded target htarget
  simp only [Allocation.distribution] at hsign
  unfold TrafficSignalStatus.allocatePhase
  split_ifs with hdone
  · exact Or.inl hdone
  rw [hall]
  dsimp only
  have hpart := boundGreen_sub_mem (status.planAt target) hbounded
    (Set.right_mem_uIcc (a := (0 : Int)) (b := a.remaining))
  have hgreen := boundGreen_bounds (status.planAt target)
    ((status.planAt target).preGreen.toNat + (a.seconds target).toInt + a.remaining) (by omega)
  rw [← sub_sub] at hpart
  have hgiven := congrFun (congrArg Distribution.given
    (distribution_green hfits hconserves htarget hgreen hpart)) target
  simp only [Allocation.distribution, Distribution.give, Function.update_self] at hgiven
  -- the green is moved by all of the rest, or as far as its bound
  unfold TrafficSignalStatus.AtBound TrafficSignalStatus.greenAt
  rw [hgiven]
  simp only [Allocation.take]
  unfold StaticPlan.boundGreen
  split_ifs <;> omega

/-- With the whole weight on one phase the loop changes no other. -/
theorem allocateCompensationByWeight_whole (hfits : status.FitsWord amount) {a : Allocation}
    (hconserves : a.Conserves status amount) {target : ℕ}
    (htarget : target < status.subPhaseCount.toNat) :
    status.allocateCompensationByWeight (.whole target) a.remaining a.seconds =
      status.allocatePhase (.whole target) a.remaining a target := by
  obtain ⟨hafter, hless⟩ := allocatePhase_conserves hfits (.whole target) hconserves
    Set.right_mem_uIcc htarget
  have hpasses : ∀ passes ≤ status.subPhaseCount.toNat,
      run (status.allocatePhase (.whole target) a.remaining) a (List.range passes) =
        if target < passes then status.allocatePhase (.whole target) a.remaining a target
        else a := by
    intro passes hpasses
    induction passes with
    | zero => rfl
    | succ passes ih =>
        rw [List.range_succ, run_concat, ih (by omega)]
        rcases lt_trichotomy target passes with hlt | rfl | hgt
        · rw [if_pos hlt, if_pos (by omega)]
          exact allocatePhase_other hafter hless (by omega) (by omega)
        · rw [if_neg (lt_irrefl _), if_pos (Nat.lt_succ_self _)]
        · rw [if_neg (by omega), if_neg (by omega)]
          exact allocatePhase_other hconserves Set.right_mem_uIcc (by omega) (by omega)
  have hlast := hpasses _ le_rfl
  rw [if_pos htarget] at hlast
  exact hlast

theorem allocateWhole_conserves (hfits : status.FitsWord amount) {a : Allocation}
    (hconserves : a.Conserves status amount) (i : ℕ) :
    (status.allocateWhole a i).Conserves status amount := by
  unfold TrafficSignalStatus.allocateWhole
  split_ifs
  · exact hconserves
  · exact (allocateCompensationByWeight_conserves hfits _ hconserves).1

/-- A pass for one phase leaves the seconds of the others. -/
theorem allocatePhase_seconds_ne (share : PhaseShare) (compensationTime : Int) (a : Allocation)
    {index other : ℕ} (hne : other ≠ index) :
    (status.allocatePhase share compensationTime a index).seconds other = a.seconds other := by
  unfold TrafficSignalStatus.allocatePhase
  split_ifs
  · rfl
  · exact Function.update_of_ne hne _ _

/-- After so many phases of the order nothing remains, or all of them are at their bounds. -/
theorem run_allocateWhole (hfits : status.FitsWord amount) {a : Allocation}
    (hconserves : a.Conserves status amount) {passes : ℕ}
    (hpasses : passes ≤ status.subPhaseCount.toNat) :
    (run status.allocateWhole a (List.range passes)).Conserves status amount ∧
      ((run status.allocateWhole a (List.range passes)).remaining = 0 ∨
        ∀ i < passes, status.AtBound amount (run status.allocateWhole a (List.range passes))
          (status.greenOrder i)) := by
  induction passes with
  | zero => exact ⟨hconserves, Or.inr fun i hi => absurd hi (Nat.not_lt_zero i)⟩
  | succ passes ih =>
      obtain ⟨hbefore, hbounds⟩ := ih (by omega)
      rw [List.range_succ, run_concat]
      generalize run status.allocateWhole a (List.range passes) = current at hbefore hbounds ⊢
      refine ⟨allocateWhole_conserves hfits hbefore passes, ?_⟩
      unfold TrafficSignalStatus.allocateWhole
      split_ifs with hdone
      · exact Or.inl hdone
      have htarget : status.greenOrder passes < status.subPhaseCount.toNat :=
        greenOrder_bijOn.mapsTo (Set.mem_Iio.mpr (by omega))
      rw [allocateCompensationByWeight_whole hfits hbefore htarget]
      rcases allocatePhase_whole hfits hbefore htarget with hnothing | hlast
      · exact Or.inl hnothing
      refine Or.inr fun i hi => ?_
      rcases eq_or_ne (status.greenOrder i) (status.greenOrder passes) with heq | hne
      · rw [heq]
        exact hlast
      · have hi' : i ≠ passes := by
          rintro rfl
          exact hne rfl
        unfold TrafficSignalStatus.AtBound
        rw [allocatePhase_seconds_ne _ _ _ hne]
        exact hbounds.resolve_left hdone i (by omega)

/-! ## What remains never grows -/

theorem weightSteps_trail (hfits : status.FitsWord amount) (share : PhaseShare) {a : Allocation}
    (hconserves : a.Conserves status amount) :
    Trail (fun a next : Allocation => next.remaining ∈ Set.uIcc 0 a.remaining) a
      (status.weightSteps share a.remaining a.seconds)
      (status.allocateCompensationByWeight share a.remaining a.seconds) := by
  apply trail_emitted fun b : Allocation =>
    b.Conserves status amount ∧ b.remaining ∈ Set.uIcc 0 a.remaining
  · exact ⟨hconserves, Set.right_mem_uIcc⟩
  · rintro b index hindex ⟨hconserves, hremaining⟩
    obtain ⟨hnext, hless⟩ := allocatePhase_conserves hfits share hconserves hremaining
      (List.mem_range.mp hindex)
    exact ⟨hnext, Set.uIcc_subset_uIcc Set.left_mem_uIcc hremaining hless⟩
  · rintro b index hindex ⟨hconserves, hremaining⟩
    exact .move (allocatePhase_conserves hfits share hconserves hremaining
      (List.mem_range.mp hindex)).2 (.stay _)

theorem remainingSteps_trail (hfits : status.FitsWord amount) {a : Allocation}
    (hconserves : a.Conserves status amount) :
    Trail (fun a next : Allocation => next.remaining ∈ Set.uIcc 0 a.remaining) a
      (status.remainingSteps a.remaining a.seconds)
      (status.allocateRemainingTime a.remaining a.seconds) := by
  refine trail_emitted (fun b : Allocation => b.Conserves status amount) _ hconserves ?_ ?_
  · exact fun b i _ hconserves => allocateWhole_conserves hfits hconserves i
  · intro b i _ hconserves
    unfold TrafficSignalStatus.allocateWhole
    split_ifs
    · exact .stay b
    · exact weightSteps_trail hfits _ hconserves

/-- The allocation of an amount is full as long as no phase can be given seconds that 16
bits do not hold. -/
theorem allocatesFully (hgreens : status.GreensBounded) (hfits : status.FitsWord amount)
    (share : PhaseShare) : status.AllocatesFully share amount := by
  have huntouched := conserves_untouched hgreens amount
  obtain ⟨hweights, -⟩ := allocateCompensationByWeight_conserves hfits share huntouched
  obtain ⟨hconserves, hsaturated⟩ := run_allocateWhole hfits hweights le_rfl
  refine ⟨hconserves.amount, hconserves.bounded, hconserves.toward.remaining, ?_, ?_,
    greenOrder_bijOn, ?_⟩
  · exact (weightSteps_trail hfits share huntouched).append (remainingSteps_trail hfits hweights)
  · intro hremaining index hindex
    obtain ⟨i, hi, rfl⟩ := greenOrder_bijOn.surjOn (Set.mem_Iio.mpr hindex)
    exact hsaturated.resolve_left hremaining i hi
  · intro i k hik hk
    rw [greenOrder_eq]
    exact bubbleSort_sorted _ _ hik hk

end Saturation

/-- So many phases with one plan. -/
def TrafficSignalStatus.withGreens (subPhaseCount minGreen : UInt8) (preGreen maxGreen : UInt16) :
    TrafficSignalStatus :=
  { TrafficSignalStatus.initial fun _ =>
      { StaticPlan.unset with minGreen := minGreen, preGreen := preGreen, maxGreen := maxGreen } with
    subPhaseCount := subPhaseCount }

/-- Thirty seconds for two phases that can take twenty each, with a third for the first. -/
theorem allocatesFully_thirds :
    (TrafficSignalStatus.withGreens 2 10 40 60).AllocatesFully
      (.ofWeights fun index => if index = 0 then 1 / 3 else 2 / 3) 30 :=
  allocatesFully (by decide) (by decide) _

/-- A phase with room for 40000 seconds keeps them in 16 bits. -/
theorem seconds_lost_in_word :
    (TrafficSignalStatus.withGreens 1 0 0 40000).GreensBounded ∧
      ((TrafficSignalStatus.withGreens 1 0 0 40000).allocateAmount (.whole 0) 40000).seconds 0 =
        -25536 ∧
      ¬ (TrafficSignalStatus.withGreens 1 0 0 40000).AllocatesFully
        (.ofWeights fun index => if index = 0 then 1 else 0) 40000 := by
  refine ⟨by decide, by decide, fun hfull => ?_⟩
  rw [← whole_eq_ofWeights] at hfull
  have hbounded := (hfull.bounded 0 (by decide)).1
  exact absurd hbounded (by decide)

end AdaptiveSignal.Signal
