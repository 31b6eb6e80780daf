import AdaptiveSignal.Compensation.TableBounds
import AdaptiveSignal.Foundation.Ranking

/-! # The arterial road and the branch

The third method gives the seconds to one phase: extra seconds to the arterial road,
the phase with the longest green, and missing ones to the branch, which has the second
longest. One pass over the phases finds both, and until there is a branch its index is
255.
-/

namespace AdaptiveSignal.Signal

open Foundation

namespace TrafficSignalStatus

variable (status : TrafficSignalStatus)

/-- `arterial_phase` and `branch_phase` after the search. -/
def roads : ℕ × ℕ :=
  run status.rankPhase (0, 255) (List.range' 1 (status.subPhaseCount.toNat - 1))

/-- The entries of `phase_weight` that `traffic_compensation_method3` writes. -/
def phaseWeightWrites (total : Int16) : List ℕ :=
  if total < 0 then [status.roads.2]
  else if 0 < total then [status.roads.1]
  else []

/-- The arterial road has the longest green, the branch the longest of the others, and
the weight is given to a phase. -/
structure RanksRoads (total : Int16) : Prop where
  arterial : status.roads.1 < status.subPhaseCount.toNat ∧
    ∀ index < status.subPhaseCount.toNat, status.greenAt index ≤ status.greenAt status.roads.1
  branch : 2 ≤ status.subPhaseCount.toNat →
    (status.roads.2 < status.subPhaseCount.toNat ∧ status.roads.2 ≠ status.roads.1) ∧
      ∀ index < status.subPhaseCount.toNat, index ≠ status.roads.1 →
        status.greenAt index ≤ status.greenAt status.roads.2
  writes : ∀ index ∈ status.phaseWeightWrites total, index < phaseCountMaxNum

end TrafficSignalStatus

section Ranking

variable {status : TrafficSignalStatus}

theorem rankPhase_first : TopTwo status.greenAt (Set.Iic 1) (status.rankPhase (0, 255) 1).1
    (status.rankPhase (0, 255) 1).2 := by
  have hseen : Set.Iic 1 = {1, 0} := by
    ext index
    simp only [Set.mem_Iic, Set.mem_insert_iff, Set.mem_singleton_iff]
    omega
  unfold TrafficSignalStatus.rankPhase
  rw [hseen]
  split_ifs with hlonger hbranch
  · rw [Set.pair_comm]
    exact TopTwo.pair (UInt16.lt_iff_toNat_lt.mp hlonger).le (by decide)
  · exact TopTwo.pair (not_lt.mp fun h => hlonger (UInt16.lt_iff_toNat_lt.mpr h)) (by decide)
  · exact absurd (Or.inl rfl) hbranch

/-- A pass of the search keeps the two longest greens. -/
theorem rankPhase_next {roads : ℕ × ℕ} {last : ℕ} (hlast : last + 1 < 8)
    (h : TopTwo status.greenAt (Set.Iic last) roads.1 roads.2) :
    TopTwo status.greenAt (Set.Iic (last + 1)) (status.rankPhase roads (last + 1)).1
      (status.rankPhase roads (last + 1)).2 := by
  have hseen : Set.Iic (last + 1) = insert (last + 1) (Set.Iic last) := by
    ext index
    simp only [Set.mem_Iic, Set.mem_insert_iff]
    omega
  have hbranch : roads.2 ≤ last := h.second_mem
  rw [hseen]
  unfold TrafficSignalStatus.rankPhase
  split_ifs with hlonger hsecond
  · exact h.above (UInt16.lt_iff_toNat_lt.mp hlonger)
  · have hlonger' := not_lt.mp fun hlt => hlonger (UInt16.lt_iff_toNat_lt.mpr hlt)
    have hsecond' := UInt16.lt_iff_toNat_lt.mp (hsecond.resolve_left (by omega))
    exact h.between (by simp) hlonger' hsecond'
  · exact h.below (not_lt.mp fun hlt => hsecond (Or.inr (UInt16.lt_iff_toNat_lt.mpr hlt)))

/-- With two phases or more the search ends with the two longest greens. -/
theorem roads_topTwo (htwo : 2 ≤ status.subPhaseCount.toNat)
    (hcount : status.subPhaseCount.toNat ≤ 8) :
    TopTwo status.greenAt (Set.Iic (status.subPhaseCount.toNat - 1)) status.roads.1
      status.roads.2 := by
  have hpasses : ∀ passes, passes + 1 < 8 →
      TopTwo status.greenAt (Set.Iic (passes + 1))
        (run status.rankPhase (0, 255) (List.range' 1 (passes + 1))).1
        (run status.rankPhase (0, 255) (List.range' 1 (passes + 1))).2 := by
    intro passes hpasses
    induction passes with
    | zero => exact rankPhase_first
    | succ passes ih =>
        rw [List.range'_1_concat, run_concat, Nat.add_comm 1]
        exact rankPhase_next hpasses (ih (by omega))
  have hlast := hpasses (status.subPhaseCount.toNat - 2) (by omega)
  rw [show status.subPhaseCount.toNat - 2 + 1 = status.subPhaseCount.toNat - 1 by omega] at hlast
  exact hlast

theorem roads_one (hone : status.subPhaseCount.toNat = 1) : status.roads = (0, 255) := by
  rw [TrafficSignalStatus.roads, hone]
  rfl

/-- The branch of a single phase is still the sentinel, which seconds are taken from. -/
theorem ranksRoads_one_iff (total : Int16) (hone : status.subPhaseCount.toNat = 1) :
    status.RanksRoads total ↔ 0 ≤ total := by
  have hroads := roads_one hone
  constructor
  · intro hranks
    by_contra hnegative
    have hwrites := hranks.writes
    rw [TrafficSignalStatus.phaseWeightWrites, if_pos (by simpa using hnegative),
      hroads] at hwrites
    exact absurd (hwrites 255 (by simp)) (by decide)
  · intro hnonneg
    refine ⟨?_, fun htwo => by omega, ?_⟩
    · rw [hroads, hone]
      refine ⟨by decide, fun index hindex => ?_⟩
      rw [Nat.lt_one_iff.mp hindex]
    · intro index hindex
      rw [TrafficSignalStatus.phaseWeightWrites, if_neg (by simpa using hnonneg),
        hroads] at hindex
      split_ifs at hindex
      · rw [List.mem_singleton.mp hindex]
        decide
      · simp at hindex

theorem ranksRoads_of_two (total : Int16) (htwo : 2 ≤ status.subPhaseCount.toNat)
    (hcount : status.subPhaseCount.toNat ≤ 8) : status.RanksRoads total := by
  have htop := roads_topTwo htwo hcount
  have hfirst : status.roads.1 ≤ status.subPhaseCount.toNat - 1 := htop.first_mem
  have hsecond : status.roads.2 ≤ status.subPhaseCount.toNat - 1 := htop.second_mem
  refine ⟨⟨by omega, fun index hindex => ?_⟩, fun _ => ⟨⟨by omega, htop.ne⟩, ?_⟩, ?_⟩
  · exact htop.greatest index (Nat.le_sub_one_of_lt hindex)
  · exact fun index hindex hne => htop.next index (Nat.le_sub_one_of_lt hindex) hne
  · intro index hindex
    unfold TrafficSignalStatus.phaseWeightWrites at hindex
    unfold phaseCountMaxNum
    split_ifs at hindex
    · rw [List.mem_singleton.mp hindex]
      omega
    · rw [List.mem_singleton.mp hindex]
      omega
    · simp at hindex

/-- The roads are ranked right exactly if there is a second phase or nothing is missing. -/
theorem ranksRoads_iff (total : Int16)
    (hcount : 1 ≤ status.subPhaseCount.toNat ∧ status.subPhaseCount.toNat ≤ 8) :
    status.RanksRoads total ↔ 2 ≤ status.subPhaseCount.toNat ∨ 0 ≤ total := by
  rcases Nat.lt_or_ge status.subPhaseCount.toNat 2 with hone | htwo
  · rw [or_iff_right (Nat.not_le.mpr hone)]
    exact ranksRoads_one_iff total (by omega)
  · exact iff_of_true (ranksRoads_of_two total htwo hcount.2) (Or.inl htwo)

end Ranking

/-- A status with so many phases and no plans yet. -/
def TrafficSignalStatus.withPhases (subPhaseCount : UInt8) : TrafficSignalStatus :=
  { TrafficSignalStatus.initial fun _ => .unset with subPhaseCount := subPhaseCount }

theorem ranksRoads_iff_two_phases : (TrafficSignalStatus.withPhases 2).RanksRoads (-5) ↔
    2 ≤ (TrafficSignalStatus.withPhases 2).subPhaseCount.toNat ∨ (0 : Int16) ≤ -5 :=
  ranksRoads_iff (-5) (by decide)

/-- Five seconds too few for a single phase are given the weight of phase 256. -/
theorem branch_of_one_phase :
    (TrafficSignalStatus.withPhases 1).phaseWeightWrites (-5) = [255] ∧
      ¬ (TrafficSignalStatus.withPhases 1).RanksRoads (-5) := by
  refine ⟨by decide, fun hranks => ?_⟩
  exact absurd (hranks.writes 255 (by decide)) (by decide)

end AdaptiveSignal.Signal
