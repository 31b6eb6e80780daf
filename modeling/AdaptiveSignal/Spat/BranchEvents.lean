import AdaptiveSignal.Spat.LightRuns
import AdaptiveSignal.Spat.Termination

/-! # The events of each branch

What a branch of the message writes, with its times from the starts of the periods where
it follows the plan, and as the branch has them where it does not.
-/

namespace AdaptiveSignal.Signal

open Foundation

namespace TrafficSignalStatus

variable {status : TrafficSignalStatus} {shown : ℕ → Bool} {fuel : ℕ}

/-! ## The running step -/

section InPlan

variable (hplan : status.InPlan)
include hplan

theorem InPlan.count_pos : 0 < status.subPhaseCount.toNat :=
  hplan.phase_pos.trans_le hplan.phase_le

theorem InPlan.runningPhase_lt : status.runningPhase < status.subPhaseCount.toNat := by
  have hpos := hplan.phase_pos
  have hle := hplan.phase_le
  unfold runningPhase
  omega

theorem InPlan.phaseAt_zero : status.phaseAt 0 = status.runningPhase :=
  TrafficSignalStatus.phaseAt_zero hplan.count_pos hplan.runningPhase_lt

theorem InPlan.step_cases : status.stepId.toNat = 1 ∨ status.stepId.toNat = 2 ∨
    status.stepId.toNat = 3 ∨ status.stepId.toNat = 4 ∨ status.stepId.toNat = 5 := by
  have hpos := hplan.step_pos
  have hle := hplan.step_le
  omega

/-- The seconds of the running phase behind its green and its flash. -/
theorem InPlan.startOf_one : status.startOf (0 + 1) = status.startOf 0 +
    status.preGreenOf (status.phaseAt 0) + status.pedGreenFlashOf (status.phaseAt 0) +
      status.pedRedOf (status.phaseAt 0) + status.yellowOf (status.phaseAt 0) +
        status.allRedOf (status.phaseAt 0) := by
  rw [startOf_succ, phaseSeconds, greenSeconds, if_pos rfl, secondsThrough_three,
    hplan.phaseAt_zero]
  omega

theorem InPlan.fits : status.preGreenOf (status.phaseAt 0) +
    status.pedGreenFlashOf (status.phaseAt 0) ≤ status.phaseSeconds 0 := by
  have hlength := status.startOf_succ 0
  have hone := hplan.startOf_one
  have hred := status.pedRedOf_nonneg (status.phaseAt 0)
  have hyellow := status.yellowOf_nonneg (status.phaseAt 0)
  have hallRed := status.allRedOf_nonneg (status.phaseAt 0)
  omega

/-- The steps that `redUntilGreen` adds up are those of the running phase up to the running one. -/
theorem elapsed_steps :
    (if 1 ≤ status.stepId.toNat then status.preGreenOf status.runningPhase else 0) +
    (if 2 ≤ status.stepId.toNat then status.pedGreenFlashOf status.runningPhase else 0) +
    (if 3 ≤ status.stepId.toNat then status.pedRedOf status.runningPhase else 0) +
    (if 4 ≤ status.stepId.toNat then status.yellowOf status.runningPhase else 0) +
    (if 5 ≤ status.stepId.toNat then status.allRedOf status.runningPhase else 0) -
      status.stepSeconds = -status.startOf 0 := by
  rw [startOf_zero, elapsed]
  rcases hplan.step_cases with hstep | hstep | hstep | hstep | hstep <;>
    simp [hstep, secondsThrough, stepLength]

/-- And those behind it last to the end of the running phase. -/
theorem remaining_steps : status.stepSeconds +
    (if status.stepId.toNat ≤ 1 then status.pedGreenFlashOf status.runningPhase else 0) +
    (if status.stepId.toNat ≤ 2 then status.pedRedOf status.runningPhase else 0) +
    (if status.stepId.toNat ≤ 3 then status.yellowOf status.runningPhase else 0) +
    (if status.stepId.toNat ≤ 4 then status.allRedOf status.runningPhase else 0) =
      status.startOf (0 + 1) := by
  rw [startOf_succ, startOf_zero, elapsed, phaseSeconds, greenSeconds, if_pos rfl,
    hplan.phaseAt_zero]
  rcases hplan.step_cases with hstep | hstep | hstep | hstep | hstep <;>
    simp [hstep, secondsThrough, stepLength] <;> omega

theorem InPlan.startOf_zero_nonpos : status.startOf 0 ≤ 0 := by
  have hsec := hplan.seconds_le
  have hpre := status.preGreenOf_nonneg status.runningPhase
  have hflash := status.pedGreenFlashOf_nonneg status.runningPhase
  have hred := status.pedRedOf_nonneg status.runningPhase
  have hyellow := status.yellowOf_nonneg status.runningPhase
  rw [startOf_zero, elapsed]
  rcases hplan.step_cases with hstep | hstep | hstep | hstep | hstep <;>
    simp only [hstep, secondsThrough, stepLength] at hsec ⊢ <;> omega

theorem InPlan.stepSeconds_le : status.stepSeconds ≤ status.startOf (0 + 1) := by
  have hflash := status.pedGreenFlashOf_nonneg status.runningPhase
  have hred := status.pedRedOf_nonneg status.runningPhase
  have hyellow := status.yellowOf_nonneg status.runningPhase
  have hallRed := status.allRedOf_nonneg status.runningPhase
  rw [← remaining_steps hplan]
  split_ifs <;> omega

/-- Now, by the steps of the running phase. -/
theorem InPlan.stepSeconds_eq : status.stepSeconds =
    status.startOf 0 + status.secondsThrough (status.phaseAt 0) status.stepId.toNat := by
  rw [startOf_zero, elapsed, hplan.phaseAt_zero]
  omega

theorem InPlan.stepSeconds_of_green (hstep : status.stepId.toNat = 1) :
    status.stepSeconds = status.startOf 0 + status.preGreenOf (status.phaseAt 0) := by
  rw [hplan.stepSeconds_eq, hstep]
  simp [secondsThrough, stepLength]

theorem InPlan.stepSeconds_of_flash (hstep : status.stepId.toNat = 2) :
    status.stepSeconds = status.startOf 0 + status.preGreenOf (status.phaseAt 0) +
      status.pedGreenFlashOf (status.phaseAt 0) := by
  rw [hplan.stepSeconds_eq, hstep]
  simp only [secondsThrough, stepLength]
  omega

/-- Behind the flash of the running phase. -/
theorem InPlan.le_stepSeconds (hstep : 3 ≤ status.stepId.toNat) :
    status.startOf 0 + status.preGreenOf (status.phaseAt 0) +
      status.pedGreenFlashOf (status.phaseAt 0) ≤ status.stepSeconds := by
  have hred := status.pedRedOf_nonneg (status.phaseAt 0)
  have hyellow := status.yellowOf_nonneg (status.phaseAt 0)
  have hallRed := status.allRedOf_nonneg (status.phaseAt 0)
  rw [hplan.stepSeconds_eq]
  rcases hplan.step_cases with heq | heq | heq | heq | heq <;>
    simp only [heq, secondsThrough, stepLength] <;> omega

theorem InPlan.greenSeconds_zero : status.greenSeconds 0 = status.preGreenOf (status.phaseAt 0) +
    status.pedGreenFlashOf (status.phaseAt 0) + status.pedRedOf (status.phaseAt 0) := by
  rw [greenSeconds, if_pos rfl, secondsThrough_three, hplan.phaseAt_zero]

theorem InPlan.stepSeconds_of_yellow (hstep : status.stepId.toNat = 4) : status.stepSeconds =
    status.startOf 0 + status.greenSeconds 0 + status.yellowOf (status.phaseAt 0) := by
  rw [hplan.stepSeconds_eq, hplan.greenSeconds_zero, hstep]
  simp only [secondsThrough, stepLength]
  omega

theorem InPlan.stepSeconds_of_allRed (hstep : status.stepId.toNat = 5) :
    status.stepSeconds = status.startOf 0 + status.greenSeconds 0 +
      status.yellowOf (status.phaseAt 0) + status.allRedOf (status.phaseAt 0) := by
  rw [hplan.stepSeconds_eq, hplan.greenSeconds_zero, hstep]
  simp only [secondsThrough, stepLength]
  omega

end InPlan

/-! ## Events from offsets -/

section Events

variable (hcount : 0 < status.subPhaseCount.toNat) (hfuel : status.subPhaseCount.toNat < fuel)
include hcount hfuel

/-- A green that is followed to its end. -/
theorem greenFrom_reaches {greenType : MovementPhaseState} {m : ℤ} (hm : 0 ≤ m)
    (hshown : shown (status.phaseAt m))
    (hrun : status.GreenRunEnds shown status.subPhaseCount.toNat m) :
    ∃ v, status.GreenUntil shown greenType m v ∧ ∀ (greenEnd : SpatWalk → Int) (w : SpatWalk),
      w.curSubphase = status.phaseAt m → greenEnd w = status.startOf m + status.greenSeconds m →
      Reaches (status.greenFrom shown fuel greenType greenEnd w) (status.phaseAt v)
        (status.startOf v + status.greenSeconds v)
        (w.events ++ [⟨greenType, w.offset, status.startOf v + status.greenSeconds v⟩]) := by
  obtain ⟨u, v, hv, hsplit⟩ := hrun.exists_run hcount
  have hmu := hsplit.le
  have huv := hsplit.le'
  have hleads (p : ℤ) (hp : m ≤ p) (hp' : p < u) :=
    And.intro (hsplit.leads p hp hp').1 (hsplit.leads p hp hp').2.1
  refine ⟨v, hsplit.greenUntil hcount hshown, fun greenEnd w hcur hend => afterCurStep_reaches ?_⟩
  refine (@leadingSubphaseSignal_reaches status fuel hcount hfuel
    { w with offset := greenEnd w } m u hm hmu (by omega) hcur hend hleads ?_).bind
    fun phases => ?_
  · exact fun hboth => hsplit.ends.elim (absurd hboth.1) (absurd hboth.2)
  · exact laggingSubphaseSignal_reaches hcount hfuel (by omega) huv (by omega) rfl rfl
      hsplit.kept hsplit.notKept

omit hcount in
/-- The green is not followed from a phase with all-red. -/
theorem greenFrom_reaches_of_allRed {greenType : MovementPhaseState}
    {greenEnd : SpatWalk → Int} {w : SpatWalk} {cur : ℕ} (hred : status.allRedOf cur ≠ 0)
    (hcur : w.curSubphase = cur) :
    Reaches (status.greenFrom shown fuel greenType greenEnd w) cur (greenEnd w)
      (w.events ++ [⟨greenType, w.offset, greenEnd w⟩]) := by
  subst hcur
  have hpos := Nat.zero_lt_of_lt hfuel
  have hlead : Reaches (status.leadingSubphaseSignal fuel { w with offset := greenEnd w })
      w.curSubphase (greenEnd w) w.events :=
    spatScan_stays (fun s hs => decide_eq_false fun hcond => hred (hs ▸ hcond.2.1)) hpos
  exact afterCurStep_reaches (hlead.bind fun phases =>
    spatScan_stays (fun s hs => decide_eq_false fun hcond => hred (hs ▸ hcond.1)) hpos)

omit hcount hfuel in
theorem yellowAfter_reaches (w : SpatWalk) :
    Reaches (status.yellowAfter w) w.curSubphase (w.offset + status.yellowOf w.curSubphase)
      (w.events ++
        [⟨.protectedClearance, w.offset, w.offset + status.yellowOf w.curSubphase⟩]) :=
  afterCurStep_reaches (.some _)

/-- Behind the yellow of a period, the red ends where the next green phase starts. -/
theorem redAfter_reaches {w : SpatWalk} {m q : ℤ} (hm : 0 ≤ m) (hmq : m < q)
    (hq : q ≤ m + status.subPhaseCount.toNat) (hcur : w.curSubphase = status.phaseAt m)
    (hoffset : w.offset =
      status.startOf m + status.greenSeconds m + status.yellowOf (status.phaseAt m))
    (hnot : ∀ p, m < p → p < q → shown (status.phaseAt p) = false)
    (hshown : shown (status.phaseAt q)) :
    Reaches (status.redAfter shown fuel w) (status.phaseAt (q - 1)) (status.startOf q)
      (w.events ++ [⟨.stopAndRemain, w.offset, status.startOf q⟩]) := by
  refine afterCurStep_reaches ?_
  have hscan := @increaseOffsetRedSignal_reaches status shown fuel hcount hfuel
    { w with offset := w.offset + status.allRedOf w.curSubphase } m q hm hmq hq hcur hnot hshown
  have hlength := status.startOf_succ m
  have hend : w.offset + status.allRedOf w.curSubphase +
      (status.startOf q - status.startOf (m + 1)) = status.startOf q := by
    rw [hoffset, hcur, hlength, phaseSeconds]
    omega
  rwa [hend] at hscan

/-- A green first, with the yellow and the red behind it. -/
theorem greenFirst_reaches {greenType : MovementPhaseState} {greenEnd : SpatWalk → Int} {m a : ℤ}
    {phases : List ℕ} (hexists : ∃ k < status.subPhaseCount.toNat, shown k) (hm : 0 ≤ m)
    (hshown : shown (status.phaseAt m))
    (hrun : status.GreenRunEnds shown status.subPhaseCount.toNat m)
    (hend : greenEnd ⟨status.phaseAt m, a, [], phases⟩ =
      status.startOf m + status.greenSeconds m) :
    ∃ v q, status.GreenUntil shown greenType m v ∧ v < q ∧
      (∀ p, v < p → p < q → shown (status.phaseAt p) = false) ∧
      Reaches (do
        let w ← status.greenFrom shown fuel greenType greenEnd ⟨status.phaseAt m, a, [], phases⟩
        let w ← status.yellowAfter w
        status.redAfter shown fuel w) (status.phaseAt (q - 1)) (status.startOf q)
        [⟨greenType, a, status.startOf v + status.greenSeconds v⟩,
          ⟨.protectedClearance, status.startOf v + status.greenSeconds v,
            status.startOf v + status.greenSeconds v + status.yellowOf (status.phaseAt v)⟩,
          ⟨.stopAndRemain,
            status.startOf v + status.greenSeconds v + status.yellowOf (status.phaseAt v),
            status.startOf q⟩] := by
  obtain ⟨v, huntil, hgreen⟩ := @greenFrom_reaches status shown fuel hcount hfuel greenType m hm
    hshown hrun
  obtain ⟨q, hq, hq', hqshown, hnot⟩ := exists_greenAfter hexists v
  have hmv := huntil.le
  refine ⟨v, q, huntil, hq, hnot, (hgreen _ _ rfl hend).bind fun _ =>
    (yellowAfter_reaches _).bind fun _ => ?_⟩
  exact redAfter_reaches hcount hfuel (by omega) hq hq' rfl rfl hnot hqshown

end Events

/-! ## Vehicle signals -/

section Branches

variable (hplan : status.InPlan) (hfuel : status.subPhaseCount.toNat < fuel)
  (hexists : ∃ k < status.subPhaseCount.toNat, shown k)
include hplan hexists hfuel

/-- From the phase that runs to the one before the next green. -/
theorem redScan_reaches (offset : ℤ) (events : List MovementEvent) (phases : List ℕ) :
    Reaches (status.increaseOffsetRedSignal shown fuel ⟨status.phaseAt 0, offset, events, phases⟩)
      (status.phaseAt (status.nextGreen shown - 1))
      (offset + (status.startOf (status.nextGreen shown) - status.startOf (0 + 1))) events := by
  obtain ⟨hpos, hle, hqshown, hnot⟩ := nextGreen_spec hexists
  exact @increaseOffsetRedSignal_reaches status shown fuel hplan.count_pos hfuel
    ⟨status.phaseAt 0, offset, events, phases⟩ 0 _ le_rfl (by omega) (by omega) rfl
    (fun p hp hp' => hnot p (by omega) hp') hqshown

/-- Step three: the flash is taken off the end of the green. -/
theorem vehicleGreenEvents_reaches_of_stepThree {greenType : MovementPhaseState}
    (hstep : status.stepId.toNat = 3) (hallRed : status.allRedOf (status.phaseAt 0) ≠ 0) :
    ∃ start, Reaches
      (status.vehicleGreenEvents shown fuel greenType ⟨status.runningPhase, 0, [], []⟩)
      (status.phaseAt (status.nextGreen shown - 1))
      (status.stepSeconds - status.pedGreenFlashOf (status.phaseAt 0) +
        status.yellowOf (status.phaseAt 0) + status.allRedOf (status.phaseAt 0) +
        (status.startOf (status.nextGreen shown) - status.startOf (0 + 1)))
      [⟨greenType, start, status.stepSeconds - status.pedGreenFlashOf (status.phaseAt 0)⟩,
        ⟨.protectedClearance, status.stepSeconds - status.pedGreenFlashOf (status.phaseAt 0),
          status.stepSeconds - status.pedGreenFlashOf (status.phaseAt 0) +
            status.yellowOf (status.phaseAt 0)⟩,
        ⟨.stopAndRemain, status.stepSeconds - status.pedGreenFlashOf (status.phaseAt 0) +
            status.yellowOf (status.phaseAt 0),
          status.stepSeconds - status.pedGreenFlashOf (status.phaseAt 0) +
            status.yellowOf (status.phaseAt 0) + status.allRedOf (status.phaseAt 0) +
            (status.startOf (status.nextGreen shown) - status.startOf (0 + 1))⟩] := by
  obtain ⟨u, offset, hearly, -⟩ :=
    @earlyStart_reaches status shown fuel hplan.count_pos hfuel ⟨status.runningPhase, 0, [], []⟩
      hplan.phaseAt_zero.symm rfl
  have hscan := @redScan_reaches status shown fuel hplan hfuel hexists
  have hend : status.stepSeconds + (0 - status.pedGreenFlashOf (status.phaseAt 0)) =
      status.stepSeconds - status.pedGreenFlashOf (status.phaseAt 0) := by omega
  refine ⟨status.stepSeconds - (offset + status.pedRedOf (status.phaseAt 0) +
    status.pedGreenFlashOf (status.phaseAt 0) + status.preGreenOf (status.phaseAt 0)),
    hearly.bind fun phases => ?_⟩
  dsimp only
  rw [if_pos (by omega), if_pos hstep, if_pos hstep, if_neg (by omega), if_neg (by omega), hend]
  exact (greenFrom_reaches_of_allRed hfuel hallRed rfl).bind fun phases =>
    (yellowAfter_reaches _).bind fun phases => afterCurStep_reaches (hscan _ _ _)

/-- Step four: the green of the next green phase is the one of the phase before it. -/
theorem vehicleGreenEvents_reaches_of_yellow {greenType : MovementPhaseState}
    (hstep : status.stepId.toNat = 4)
    (hkept : status.keepsGreen shown status.runningPhase = false)
    (hallRed : status.allRedOf (status.phaseAt (status.nextGreen shown - 1)) ≠ 0) :
    Reaches (status.vehicleGreenEvents shown fuel greenType ⟨status.runningPhase, 0, [], []⟩)
      (status.phaseAt (status.nextGreen shown - 1))
      (status.startOf (status.nextGreen shown) +
        status.greenOf (status.phaseAt (status.nextGreen shown - 1)))
      [⟨.protectedClearance, status.startOf 0 + status.greenSeconds 0, status.stepSeconds⟩,
        ⟨.stopAndRemain, status.stepSeconds, status.startOf (status.nextGreen shown)⟩,
        ⟨greenType, status.startOf (status.nextGreen shown),
          status.startOf (status.nextGreen shown) +
            status.greenOf (status.phaseAt (status.nextGreen shown - 1))⟩] := by
  have hcount := hplan.count_pos
  have hzero := hplan.phaseAt_zero
  have hkept₀ : status.keepsGreen shown (status.phaseAt 0) = false := hzero ▸ hkept
  obtain ⟨u, offset, hearly, -⟩ :=
    @earlyStart_reaches status shown fuel hcount hfuel ⟨status.runningPhase, 0, [], []⟩
      hzero.symm rfl
  obtain ⟨hpos, hle, hqshown, hnot⟩ := nextGreen_spec hexists
  have hnow := hplan.stepSeconds_of_yellow hstep
  have hstart : -(status.yellowOf (status.phaseAt 0) - status.stepSeconds) =
      status.startOf 0 + status.greenSeconds 0 := by omega
  refine hearly.bind fun phases => ?_
  dsimp only
  rw [if_neg (by omega), if_pos hstep, if_neg (of_decide_eq_false hkept₀), hstart]
  exact (afterCurStep_reaches (.some _)).bind fun phases =>
    (redAfter_reaches hcount hfuel le_rfl (by omega) (by omega) rfl hnow
      (fun p hp hp' => hnot p (by omega) hp') hqshown).bind fun phases =>
        greenFrom_reaches_of_allRed hfuel hallRed rfl

/-- Step five: so is its yellow. -/
theorem vehicleGreenEvents_reaches_of_allRed {greenType : MovementPhaseState}
    (hstep : status.stepId.toNat = 5)
    (hallRed : status.allRedOf (status.phaseAt (status.nextGreen shown - 1)) ≠ 0) :
    Reaches (status.vehicleGreenEvents shown fuel greenType ⟨status.runningPhase, 0, [], []⟩)
      (status.phaseAt (status.nextGreen shown - 1))
      (status.startOf (status.nextGreen shown) +
        status.greenOf (status.phaseAt (status.nextGreen shown - 1)) +
        status.yellowOf (status.phaseAt (status.nextGreen shown - 1)))
      [⟨.stopAndRemain,
          status.startOf 0 + status.greenSeconds 0 + status.yellowOf (status.phaseAt 0),
          status.startOf (status.nextGreen shown)⟩,
        ⟨greenType, status.startOf (status.nextGreen shown),
          status.startOf (status.nextGreen shown) +
            status.greenOf (status.phaseAt (status.nextGreen shown - 1))⟩,
        ⟨.protectedClearance, status.startOf (status.nextGreen shown) +
            status.greenOf (status.phaseAt (status.nextGreen shown - 1)),
          status.startOf (status.nextGreen shown) +
            status.greenOf (status.phaseAt (status.nextGreen shown - 1)) +
            status.yellowOf (status.phaseAt (status.nextGreen shown - 1))⟩] := by
  have hzero := hplan.phaseAt_zero
  obtain ⟨u, offset, hearly, -⟩ :=
    @earlyStart_reaches status shown fuel hplan.count_pos hfuel ⟨status.runningPhase, 0, [], []⟩
      hzero.symm rfl
  have hscan := @redScan_reaches status shown fuel hplan hfuel hexists status.stepSeconds []
  have hnow := hplan.stepSeconds_of_allRed hstep
  have hlength := status.startOf_succ 0
  rw [phaseSeconds] at hlength
  have hend : status.stepSeconds + (status.startOf (status.nextGreen shown) -
      status.startOf (0 + 1)) = status.startOf (status.nextGreen shown) := by omega
  have hstart : -(status.allRedOf (status.phaseAt 0) - status.stepSeconds) =
      status.startOf 0 + status.greenSeconds 0 + status.yellowOf (status.phaseAt 0) := by omega
  rw [hend] at hscan
  refine hearly.bind fun phases => ?_
  dsimp only
  rw [if_neg (by omega), if_neg (by omega), if_pos hstep, hstart]
  exact (afterCurStep_reaches (hscan phases)).bind fun phases =>
    (greenFrom_reaches_of_allRed hfuel hallRed rfl).bind fun phases => yellowAfter_reaches _

/-- The red starts the all-red of the running phase before the phase behind the last green. -/
theorem redUntilGreen_reaches :
    Reaches (status.redUntilGreen shown fuel ⟨status.runningPhase, 0, [], []⟩)
      (status.phaseAt (status.nextGreen shown)) (status.startOf (status.nextGreen shown))
      [⟨.stopAndRemain, status.startOf (status.lastGreen shown + 1) -
        status.allRedOf status.runningPhase, status.startOf (status.nextGreen shown)⟩] := by
  have hcount := hplan.count_pos
  have hzero := hplan.phaseAt_zero
  obtain ⟨hpos, hle, hqshown, hnot⟩ := nextGreen_spec hexists
  obtain ⟨hneg, hge, hpshown, hbefore⟩ := lastGreen_spec hexists
  generalize status.nextGreen shown = q at *
  generalize status.lastGreen shown = p at *
  have hback := @backToGreen_reaches status shown fuel hcount hfuel
    ⟨status.phaseAt 0, -status.startOf 0 + status.allRedOf (status.phaseAt 0), [], []⟩ p hneg hge
    rfl hbefore hpshown
  have hahead (phases : List ℕ) := @increaseOffsetRedSignal_reaches status shown fuel hcount hfuel
    ⟨status.phaseAt 0, status.startOf (0 + 1), [], phases⟩ 0 q le_rfl (by omega) (by omega) rfl
    (fun m hm hm' => hnot m (by omega) hm') hqshown
  have helapsed := elapsed_steps hplan
  have hremaining := remaining_steps hplan
  rw [← hzero] at helapsed hremaining
  have hstart : -(-status.startOf 0 + status.allRedOf (status.phaseAt 0) +
      (status.startOf 0 - status.startOf (p + 1))) =
      status.startOf (p + 1) - status.allRedOf (status.phaseAt 0) := by omega
  have hend : status.startOf (0 + 1) + (status.startOf q - status.startOf (0 + 1)) =
      status.startOf q := by omega
  rw [← hzero, redUntilGreen]
  dsimp only [SpatWalk.add]
  rw [helapsed, hremaining, Int.zero_add]
  refine hback.bind fun phases => (hahead phases).bind fun phases => ?_
  dsimp only [SpatWalk.moveTo, SpatWalk.touch]
  rw [nextSubphase_phaseAt hcount, Int.sub_add_cancel, hstart, hend]
  exact ⟨_, rfl⟩

/-- A vehicle signal that is red: the next green is followed to its end. -/
theorem vehicleRedEvents_reaches {greenType : MovementPhaseState}
    (hrun : status.GreenRunEnds shown status.subPhaseCount.toNat (status.nextGreen shown)) :
    ∃ v, status.GreenUntil shown greenType (status.nextGreen shown) v ∧
      Reaches (status.vehicleRedEvents shown fuel greenType ⟨status.runningPhase, 0, [], []⟩)
        (status.phaseAt v)
        (status.startOf v + status.greenSeconds v + status.yellowOf (status.phaseAt v))
        [⟨.stopAndRemain, status.startOf (status.lastGreen shown + 1) -
            status.allRedOf status.runningPhase, status.startOf (status.nextGreen shown)⟩,
          ⟨greenType, status.startOf (status.nextGreen shown),
            status.startOf v + status.greenSeconds v⟩,
          ⟨.protectedClearance, status.startOf v + status.greenSeconds v, status.startOf v +
            status.greenSeconds v + status.yellowOf (status.phaseAt v)⟩] := by
  obtain ⟨hpos, -, hqshown, -⟩ := nextGreen_spec hexists
  obtain ⟨v, huntil, hgreen⟩ := @greenFrom_reaches status shown fuel hplan.count_pos hfuel
    greenType _ (by omega) hqshown hrun
  refine ⟨v, huntil, (redUntilGreen_reaches hplan hfuel hexists).bind fun phases =>
    (hgreen _ _ rfl ?_).bind fun phases => yellowAfter_reaches _⟩
  rw [greenSeconds_of_ne (by omega)]

/-! ## Pedestrian signals -/

theorem pedestrianGreenEvents_reaches_of_green (hstep : status.stepId.toNat = 1) :
    Reaches (status.pedestrianGreenEvents shown fuel ⟨status.runningPhase, 0, [], []⟩)
      (status.phaseAt (status.nextGreen shown - 1)) (status.startOf (status.nextGreen shown))
      [⟨.permissiveMovementAllowed, status.startOf 0, status.stepSeconds⟩,
        ⟨.protectedClearance, status.stepSeconds,
          status.stepSeconds + status.pedGreenFlashOf (status.phaseAt 0)⟩,
        ⟨.stopAndRemain, status.stepSeconds + status.pedGreenFlashOf (status.phaseAt 0),
          status.startOf (status.nextGreen shown)⟩] := by
  have hscan := @redScan_reaches status shown fuel hplan hfuel hexists
  have hone := hplan.startOf_one
  have hnow := hplan.stepSeconds_of_green hstep
  have hstart : -(status.preGreenOf (status.phaseAt 0) - status.stepSeconds) =
      status.startOf 0 := by omega
  have hend : status.stepSeconds + status.pedGreenFlashOf (status.phaseAt 0) +
      status.yellowOf (status.phaseAt 0) + (status.pedRedOf (status.phaseAt 0) +
        status.allRedOf (status.phaseAt 0)) +
      (status.startOf (status.nextGreen shown) - status.startOf (0 + 1)) =
        status.startOf (status.nextGreen shown) := by omega
  rw [← hplan.phaseAt_zero, pedestrianGreenEvents]
  dsimp only
  rw [if_pos hstep, hstart]
  refine (afterCurStep_reaches (.some _)).bind fun phases =>
    (afterCurStep_reaches (.some _)).bind fun phases => ?_
  have hred := hscan (status.stepSeconds + status.pedGreenFlashOf (status.phaseAt 0) +
    status.yellowOf (status.phaseAt 0) + (status.pedRedOf (status.phaseAt 0) +
      status.allRedOf (status.phaseAt 0)))
  rw [hend] at hred
  exact afterCurStep_reaches (hred _ _)

/-- The flash starts the seconds left of it too early, and the green behind the red is
the one of the phase before. -/
theorem pedestrianGreenEvents_reaches_of_flash (hstep : status.stepId.toNat = 2) :
    Reaches (status.pedestrianGreenEvents shown fuel ⟨status.runningPhase, 0, [], []⟩)
      (status.phaseAt (status.nextGreen shown - 1))
      (status.startOf (status.nextGreen shown) +
        status.preGreenOf (status.phaseAt (status.nextGreen shown - 1)))
      [⟨.protectedClearance, -status.pedGreenFlashOf (status.phaseAt 0) - status.stepSeconds,
          status.stepSeconds⟩,
        ⟨.stopAndRemain, status.stepSeconds, status.startOf (status.nextGreen shown)⟩,
        ⟨.permissiveMovementAllowed, status.startOf (status.nextGreen shown),
          status.startOf (status.nextGreen shown) +
            status.preGreenOf (status.phaseAt (status.nextGreen shown - 1))⟩] := by
  have hscan := @redScan_reaches status shown fuel hplan hfuel hexists
    (status.stepSeconds + status.yellowOf (status.phaseAt 0) +
      (status.pedRedOf (status.phaseAt 0) + status.allRedOf (status.phaseAt 0)))
  have hone := hplan.startOf_one
  have hnow := hplan.stepSeconds_of_flash hstep
  have hend : status.stepSeconds + status.yellowOf (status.phaseAt 0) +
      (status.pedRedOf (status.phaseAt 0) + status.allRedOf (status.phaseAt 0)) +
      (status.startOf (status.nextGreen shown) - status.startOf (0 + 1)) =
        status.startOf (status.nextGreen shown) := by omega
  rw [hend] at hscan
  rw [← hplan.phaseAt_zero, pedestrianGreenEvents]
  dsimp only
  rw [if_neg (by omega), if_pos hstep]
  exact (afterCurStep_reaches (.some _)).bind fun phases =>
    (afterCurStep_reaches (hscan _ _)).bind fun phases => afterCurStep_reaches (.some _)

/-- The seconds that the later steps count between the running step and the next phase. -/
def redOffset (status : TrafficSignalStatus) : ℤ :=
  if status.stepId.toNat = 3 then
    status.pedRedOf (status.phaseAt 0) + status.allRedOf (status.phaseAt 0)
  else if status.stepId.toNat = 4 then status.allRedOf (status.phaseAt 0)
  else -status.pedRedOf (status.phaseAt 0)

/-- The next green ends with the running step. -/
theorem pedestrianGreenEvents_reaches_of_red (hstep : 3 ≤ status.stepId.toNat) :
    ∃ first rest, first = status.startOf 0 + status.preGreenOf (status.phaseAt 0) +
        status.pedGreenFlashOf (status.phaseAt 0) ∧ rest = status.redOffset ∧
      Reaches (status.pedestrianGreenEvents shown fuel ⟨status.runningPhase, 0, [], []⟩)
        (status.phaseAt (status.nextGreen shown - 1)) (status.stepSeconds +
          status.pedGreenFlashOf (status.phaseAt (status.nextGreen shown - 1)))
        [⟨.stopAndRemain, first, status.stepSeconds + rest +
            (status.startOf (status.nextGreen shown) - status.startOf (0 + 1))⟩,
          ⟨.permissiveMovementAllowed, status.stepSeconds + rest +
            (status.startOf (status.nextGreen shown) - status.startOf (0 + 1)),
            status.stepSeconds⟩,
          ⟨.protectedClearance, status.stepSeconds, status.stepSeconds +
            status.pedGreenFlashOf (status.phaseAt (status.nextGreen shown - 1))⟩] := by
  have hsteps : status.stepId.toNat = 3 ∨ status.stepId.toNat = 4 ∨ status.stepId.toNat = 5 := by
    have hle := hplan.step_le
    omega
  have hscan := @redScan_reaches status shown fuel hplan hfuel hexists
  have hnow := hplan.stepSeconds_eq
  rw [← hplan.phaseAt_zero, pedestrianGreenEvents]
  dsimp only
  rw [if_neg (by omega), if_neg (by omega), if_pos hsteps]
  refine ⟨_, _, ?_, ?_, (afterCurStep_reaches (hscan _ _ _)).bind fun _ =>
    (afterCurStep_reaches (.some _)).bind fun _ => afterCurStep_reaches (.some _)⟩
  all_goals
    rcases hsteps with hstep | hstep | hstep <;>
      simp [hstep, redOffset, secondsThrough, stepLength] at hnow ⊢ <;> omega

/-- A pedestrian signal that is red. -/
theorem pedestrianRedEvents_reaches :
    Reaches (status.pedestrianRedEvents shown fuel ⟨status.runningPhase, 0, [], []⟩)
      (status.phaseAt (status.nextGreen shown))
      (status.startOf (status.nextGreen shown) +
        status.preGreenOf (status.phaseAt (status.nextGreen shown)) +
        status.pedGreenFlashOf (status.phaseAt (status.nextGreen shown)))
      [⟨.stopAndRemain, status.startOf (status.lastGreen shown + 1) -
          status.allRedOf status.runningPhase, status.startOf (status.nextGreen shown)⟩,
        ⟨.permissiveMovementAllowed, status.startOf (status.nextGreen shown),
          status.startOf (status.nextGreen shown) +
            status.preGreenOf (status.phaseAt (status.nextGreen shown))⟩,
        ⟨.protectedClearance, status.startOf (status.nextGreen shown) +
            status.preGreenOf (status.phaseAt (status.nextGreen shown)),
          status.startOf (status.nextGreen shown) +
            status.preGreenOf (status.phaseAt (status.nextGreen shown)) +
            status.pedGreenFlashOf (status.phaseAt (status.nextGreen shown))⟩] :=
  (redUntilGreen_reaches hplan hfuel hexists).bind fun _ =>
    (afterCurStep_reaches (.some _)).bind fun _ => afterCurStep_reaches (.some _)

end Branches

end TrafficSignalStatus

end AdaptiveSignal.Signal
