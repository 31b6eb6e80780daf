import AdaptiveSignal.Compensation.Allocation

/-! # Splitting a compensation over the cycles

The total is to be split evenly over the cycles, with what is left over in the first
one. The loop divides what the cycles before left instead of the total, and writes as
many entries as the configuration asks for, though there is room for three cycles.
-/

namespace AdaptiveSignal.Signal

open Foundation

/-- The entries of `cycle_compensations` that `get_cycle_compensation_time` writes, in
order. -/
def cycleCompensationWrites (compCycleNum : ℕ) : List ℕ :=
  List.range' 1 (compCycleNum - 1) ++ [0]

/-- The split that the loop is to make: within the array, of the whole total and its
sign, with equal parts for all cycles but the first, which has the surplus. -/
structure SplitsEvenly (total : Int16) (compCycleNum : ℕ) : Prop where
  writes : ∀ cycle ∈ cycleCompensationWrites compCycleNum, cycle < min compCycleNum cycleNum
  sum : ∑ cycle ∈ Finset.range compCycleNum, (cycleCompensations total compCycleNum cycle).toInt =
    total.toInt
  sign : ∀ cycle < compCycleNum,
    (0 ≤ total.toInt → 0 ≤ (cycleCompensations total compCycleNum cycle).toInt) ∧
      (total.toInt ≤ 0 → (cycleCompensations total compCycleNum cycle).toInt ≤ 0)
  even : ∀ cycle other, 1 ≤ cycle → cycle < compCycleNum → 1 ≤ other → other < compCycleNum →
    cycleCompensations total compCycleNum cycle = cycleCompensations total compCycleNum other
  surplus : ∀ cycle, 1 ≤ cycle → cycle < compCycleNum →
    (cycleCompensations total compCycleNum cycle).toInt.natAbs ≤
        (cycleCompensations total compCycleNum 0).toInt.natAbs ∧
      (cycleCompensations total compCycleNum 0).toInt.natAbs ≤
        (cycleCompensations total compCycleNum cycle).toInt.natAbs + (compCycleNum - 1)

/-- A part is taken in 16 bits as it is, and leaves the rest. -/
theorem splitCycle_part {compCycleNum : ℕ} (hcycles : 0 < compCycleNum)
    (split : Int16 × (ℕ → Int16)) (cycle : ℕ) :
    ((splitCycle compCycleNum split cycle).2 cycle).toInt =
        split.1.toInt.tdiv compCycleNum ∧
      (splitCycle compCycleNum split cycle).1.toInt =
        split.1.toInt - split.1.toInt.tdiv compCycleNum := by
  have hpart := Set.mem_uIcc.mp (tdiv_mem_uIcc split.1.toInt hcycles)
  have hlow := split.1.le_toInt
  have hhigh := split.1.toInt_lt
  have hword : (Int16.ofInt (split.1.toInt.tdiv compCycleNum)).toInt =
      split.1.toInt.tdiv compCycleNum := Int16.toInt_ofInt_of_le (by omega) (by omega)
  simp only [splitCycle, Function.update_self, hword]
  exact ⟨trivial, Int16.toInt_ofInt_of_le (by omega) (by omega)⟩

theorem cycleCompensations_one (total : Int16) : cycleCompensations total 1 0 = total := rfl

/-- Two cycles: half of the total, rounded towards zero, and the rest of it. -/
theorem cycleCompensations_two (total : Int16) :
    (cycleCompensations total 2 1).toInt = total.toInt.tdiv 2 ∧
      (cycleCompensations total 2 0).toInt = total.toInt - total.toInt.tdiv 2 :=
  splitCycle_part (by decide : 0 < 2) (total, fun _ => 0) 1

/-- Three cycles: the third one is given a third of what the second one left. -/
theorem cycleCompensations_three (total : Int16) :
    (cycleCompensations total 3 1).toInt = total.toInt.tdiv 3 ∧
      (cycleCompensations total 3 2).toInt = (total.toInt - total.toInt.tdiv 3).tdiv 3 ∧
      (cycleCompensations total 3 0).toInt = total.toInt - total.toInt.tdiv 3 -
        (total.toInt - total.toInt.tdiv 3).tdiv 3 := by
  obtain ⟨hsecond, hrest⟩ := splitCycle_part (by decide : 0 < 3) (total, fun _ => 0) 1
  obtain ⟨hthird, hfirst⟩ := splitCycle_part (by decide : 0 < 3)
    (splitCycle 3 (total, fun _ => 0) 1) 2
  rw [hrest] at hthird hfirst
  exact ⟨hsecond, hthird, hfirst⟩

/-- A quotient rounded towards zero. -/
theorem tdiv_between (amount : Int) {parts : Int} (hparts : 0 < parts) :
    (0 ≤ amount → parts * amount.tdiv parts ≤ amount ∧
        amount < parts * amount.tdiv parts + parts) ∧
      (amount ≤ 0 → amount ≤ parts * amount.tdiv parts ∧
        parts * amount.tdiv parts - parts < amount) := by
  have hdivision := Int.mul_tdiv_add_tmod amount parts
  constructor
  · intro hsign
    have hnonneg := Int.tmod_nonneg parts hsign
    have hlt := Int.tmod_lt_of_pos amount hparts
    omega
  · intro hsign
    have hnonneg := Int.tmod_nonneg (a := -amount) parts (by omega)
    have hlt := Int.lt_tmod_of_pos amount hparts
    rw [Int.neg_tmod] at hnonneg
    omega

/-- A third of a total and a third of the rest are alike for the smallest totals only. -/
theorem thirds_alike_iff (total : Int) :
    total.tdiv 3 = (total - total.tdiv 3).tdiv 3 ↔
      total.natAbs ∈ ([0, 1, 2, 4, 5, 8] : List ℕ) := by
  have hthird := tdiv_between total (by decide : (0 : Int) < 3)
  have hrest := tdiv_between (total - total.tdiv 3) (by decide : (0 : Int) < 3)
  simp only [List.mem_cons, List.not_mem_nil, or_false]
  omega

/-- Every entry that is written must belong to a cycle of its own. -/
theorem writes_within_iff {compCycleNum : ℕ} :
    (∀ cycle ∈ cycleCompensationWrites compCycleNum, cycle < min compCycleNum cycleNum) ↔
      1 ≤ compCycleNum ∧ compCycleNum ≤ 3 := by
  simp only [cycleCompensationWrites, List.mem_append, List.mem_range'_1, List.mem_singleton,
    cycleNum]
  constructor
  · intro hwrites
    have hfirst := hwrites 0 (Or.inr rfl)
    by_contra hmany
    have hlast := hwrites (compCycleNum - 1) (Or.inl (by omega))
    omega
  · rintro hcycles cycle (hcycle | rfl) <;> omega

theorem splitsEvenly_one (total : Int16) : SplitsEvenly total 1 where
  writes := writes_within_iff.mpr (by decide)
  sum := sum_cycleCompensations total (by decide)
  sign := by
    intro cycle hcycle
    obtain rfl : cycle = 0 := by omega
    rw [cycleCompensations_one]
    exact ⟨id, id⟩
  even := by
    intro cycle other hcycle hlt
    omega
  surplus := by
    intro cycle hcycle hlt
    omega

theorem splitsEvenly_two (total : Int16) : SplitsEvenly total 2 := by
  obtain ⟨hsecond, hfirst⟩ := cycleCompensations_two total
  have hhalf := tdiv_between total.toInt (by decide : (0 : Int) < 2)
  refine ⟨writes_within_iff.mpr (by decide), sum_cycleCompensations total (by decide), ?_, ?_, ?_⟩
  · intro cycle hcycle
    obtain rfl | rfl : cycle = 0 ∨ cycle = 1 := by omega
    · rw [hfirst]
      omega
    · rw [hsecond]
      omega
  · intro cycle other hcycle hlt hother hlt'
    rw [show cycle = other by omega]
  · intro cycle hcycle hlt
    obtain rfl : cycle = 1 := by omega
    rw [hsecond, hfirst]
    omega

theorem splitsEvenly_three_iff (total : Int16) :
    SplitsEvenly total 3 ↔ total.toInt.natAbs ∈ ([0, 1, 2, 4, 5, 8] : List ℕ) := by
  obtain ⟨hsecond, hthird, hfirst⟩ := cycleCompensations_three total
  rw [← thirds_alike_iff]
  constructor
  · intro hsplit
    have heven := hsplit.even 1 2 (by decide) (by decide) (by decide) (by decide)
    have halike := congrArg Int16.toInt heven
    rwa [hsecond, hthird] at halike
  · intro halike
    have hthirds := tdiv_between total.toInt (by decide : (0 : Int) < 3)
    have hsmall := (thirds_alike_iff total.toInt).mp halike
    simp only [List.mem_cons, List.not_mem_nil, or_false] at hsmall
    rw [← halike] at hthird hfirst
    have heven : cycleCompensations total 3 1 = cycleCompensations total 3 2 :=
      Int16.toInt_inj.mp (hsecond.trans hthird.symm)
    refine ⟨writes_within_iff.mpr (by decide), sum_cycleCompensations total (by decide),
      ?_, ?_, ?_⟩
    · intro cycle hcycle
      obtain rfl | rfl | rfl : cycle = 0 ∨ cycle = 1 ∨ cycle = 2 := by omega
      · rw [hfirst]
        omega
      · rw [hsecond]
        omega
      · rw [hthird]
        omega
    · intro cycle other hcycle hlt hother hlt'
      obtain rfl | rfl : cycle = 1 ∨ cycle = 2 := by omega
      all_goals obtain rfl | rfl : other = 1 ∨ other = 2 := by omega
      all_goals first | rfl | exact heven | exact heven.symm
    · intro cycle hcycle hlt
      obtain rfl | rfl : cycle = 1 ∨ cycle = 2 := by omega
      · rw [hsecond, hfirst]
        omega
      · rw [hthird, hfirst]
        omega

/-- The split is even for one and for two cycles, for three cycles only for the smallest
totals, and the loop stays within the array for no other number of cycles. -/
theorem splitsEvenly_iff (total : Int16) (compCycleNum : UInt8) :
    SplitsEvenly total compCycleNum.toNat ↔
      compCycleNum = 1 ∨ compCycleNum = 2 ∨
        compCycleNum = 3 ∧ total.toInt.natAbs ∈ ([0, 1, 2, 4, 5, 8] : List ℕ) := by
  constructor
  · intro hsplit
    have hcycles := writes_within_iff.mp hsplit.writes
    obtain hone | htwo | hthree : compCycleNum.toNat = 1 ∨ compCycleNum.toNat = 2 ∨
        compCycleNum.toNat = 3 := by omega
    · exact Or.inl (UInt8.toNat_inj.mp hone)
    · exact Or.inr (Or.inl (UInt8.toNat_inj.mp htwo))
    · rw [hthree, splitsEvenly_three_iff] at hsplit
      exact Or.inr (Or.inr ⟨UInt8.toNat_inj.mp hthree, hsplit⟩)
  · rintro (rfl | rfl | ⟨rfl, hsmall⟩)
    · exact splitsEvenly_one total
    · exact splitsEvenly_two total
    · exact (splitsEvenly_three_iff total).mpr hsmall

/-- Thirty seconds over three cycles are split into 14, 10 and 6. -/
theorem thirty_seconds_uneven :
    (cycleCompensations 30 3 0 = 14 ∧ cycleCompensations 30 3 1 = 10 ∧
      cycleCompensations 30 3 2 = 6) ∧ ¬ SplitsEvenly 30 3 := by
  refine ⟨by decide, fun hsplit => ?_⟩
  exact absurd ((splitsEvenly_three_iff 30).mp hsplit) (by decide)

end AdaptiveSignal.Signal
