import AdaptiveSignal.Spat.BranchEvents

/-! # Events as a timeline

Where the offsets are moved by the seconds of the plan, the events of a group are the
lights that the plan shows. The branches of the message are taken one by one.
-/

namespace AdaptiveSignal.Signal

open Foundation

namespace TrafficSignalStatus

variable {status : TrafficSignalStatus} {shown : ℕ → Bool} {fuel : ℕ}

/-! ## Three events -/

/-- The events of a walk are a timeline. -/
def Timed (status : TrafficSignalStatus) (lights : Periods MovementPhaseState)
    (running : MovementPhaseState) (result : Option SpatWalk) : Prop :=
  ∃ cur offset events, Reaches result cur offset events ∧ status.IsTimeline lights running events

theorem Timed.bind {lights : Periods MovementPhaseState} {running : MovementPhaseState}
    {result : Option SpatWalk} {next : SpatWalk → Option SpatWalk} {cur : ℕ} {offset : ℤ}
    {events : List MovementEvent} (hresult : Reaches result cur offset events)
    (hnext : ∀ phases, status.Timed lights running (next ⟨cur, offset, events, phases⟩)) :
    status.Timed lights running (result >>= next) := by
  obtain ⟨phases, rfl⟩ := hresult
  exact hnext phases

theorem isTimeline_three {lights : Periods MovementPhaseState}
    {running second third : MovementPhaseState} {a b c d : ℤ} (ha : a ≤ 0)
    (hb : status.stepSeconds ≤ b) (hover : ¬lights.At b running)
    (hrunning : lights.Steady a b running) (hbc : b ≤ c) (hsecond : lights.Steady b c second)
    (hcd : c ≤ d) (hthird : lights.Steady c d third) :
    status.IsTimeline lights running [⟨running, a, b⟩, ⟨second, b, c⟩, ⟨third, c, d⟩] := by
  have hsec : 0 ≤ status.stepSeconds := Int.natCast_nonneg _
  refine ⟨⟨_, rfl, rfl, ha, hb, hover⟩, by simp, fun event hevent => ?_⟩
  simp only [List.mem_cons, List.not_mem_nil, or_false] at hevent
  rcases hevent with rfl | rfl | rfl
  · exact ⟨(ha.trans hsec).trans hb, hrunning⟩
  · exact ⟨hbc, hsecond⟩
  · exact ⟨hcd, hthird⟩

section GreenFirst

variable (hcount : 0 < status.subPhaseCount.toNat) (hfuel : status.subPhaseCount.toNat < fuel)
include hcount hfuel

/-- A green first, from where it is on already, then the yellow and the red behind it. -/
theorem greenFirst_timed {greenType : MovementPhaseState} {greenEnd : SpatWalk → Int} {m a : ℤ}
    {phases : List ℕ} (hyellow : .protectedClearance ≠ greenType)
    (hred : .stopAndRemain ≠ greenType) (hexists : ∃ k < status.subPhaseCount.toNat, shown k)
    (hm : 0 ≤ m) (hshown : shown (status.phaseAt m))
    (hrun : status.GreenRunEnds shown status.subPhaseCount.toNat m)
    (hend : greenEnd ⟨status.phaseAt m, a, [], phases⟩ = status.startOf m + status.greenSeconds m)
    (hstart : a ≤ 0)
    (hsteady : (status.lights (status.vehicleLight shown greenType)).Steady a
      (status.startOf m) greenType)
    (hsec : status.stepSeconds ≤ status.startOf m + status.greenSeconds m) :
    status.Timed (status.lights (status.vehicleLight shown greenType)) greenType (do
      let w ← status.greenFrom shown fuel greenType greenEnd ⟨status.phaseAt m, a, [], phases⟩
      let w ← status.yellowAfter w
      status.redAfter shown fuel w) := by
  obtain ⟨v, q, huntil, hq, hnot, hevents⟩ := @greenFirst_reaches status shown fuel hcount hfuel
    greenType greenEnd m a phases hexists hm hshown hrun hend
  refine ⟨_, _, _, hevents, isTimeline_three hstart (hsec.trans huntil.end_le)
    (huntil.not_at hyellow hred) (hsteady.append huntil.steady) ?_ huntil.yellow ?_
    (huntil.red hq hnot)⟩
  · exact le_add_of_nonneg_right (status.yellowOf_nonneg _)
  · exact yellow_le_startOf hq

end GreenFirst

/-! ## A vehicle signal that is green in the running phase -/

section InPlan

variable (hplan : status.InPlan)
include hplan

/-- Back through the phases that `earlyStart` has counted, the green was on. -/
theorem early_steady {greenType : MovementPhaseState} {u : ℤ} (hu : u ≤ 0)
    (hshown : shown status.runningPhase)
    (hgreen : ∀ m, u ≤ m → m < 0 →
      shown (status.phaseAt m) = true ∧ status.allRedOf (status.phaseAt m) = 0) :
    (status.lights (status.vehicleLight shown greenType)).Steady (status.startOf u)
      (status.startOf 0) greenType := by
  refine .of_periods hu fun p hp hp' => ?_
  obtain ⟨hshows, hred⟩ := hgreen p hp hp'
  have hnext : shown (status.phaseAt (p + 1)) := by
    rcases eq_or_lt_of_le (Int.add_one_le_of_lt hp') with heq | hlt
    · rw [heq, hplan.phaseAt_zero]
      exact hshown
    · exact (hgreen (p + 1) (by omega) hlt).1
  refine vehicle_through hshows hred ?_
  by_cases hyellow : status.yellowOf (status.phaseAt p) = 0
  · exact .inl hyellow
  · exact .inr ((keepsGreen_phaseAt hplan.count_pos p).mpr ⟨hred, hyellow, hnext⟩)

section Vehicle

variable (hfuel : status.subPhaseCount.toNat < fuel) {greenType : MovementPhaseState}
  (hyellow : .protectedClearance ≠ greenType) (hred : .stopAndRemain ≠ greenType)
  (hexists : ∃ k < status.subPhaseCount.toNat, shown k) (hshown : shown status.runningPhase)
include hyellow hred hexists hshown hfuel

/-- Steps of the green: the offsets of step three fall through the flash of step two. -/
theorem vehicleGreenEvents_timed_of_green (hstep : status.stepId.toNat ≤ 3)
    (hrun : status.GreenRunEnds shown status.subPhaseCount.toNat 0)
    (hflash : status.stepId.toNat = 3 → status.pedGreenFlashOf status.runningPhase = 0) :
    status.Timed (status.lights (status.vehicleLight shown greenType)) greenType
      (status.vehicleGreenEvents shown fuel greenType ⟨status.runningPhase, 0, [], []⟩) := by
  have hcount := hplan.count_pos
  have hzero := hplan.phaseAt_zero
  have hshown₀ : shown (status.phaseAt 0) := hzero ▸ hshown
  obtain ⟨u, offset, hearly, hu, hpos, hle, hgreen⟩ :=
    @earlyStart_reaches status shown fuel hcount hfuel ⟨status.runningPhase, 0, [], []⟩
      hzero.symm rfl
  have hsteady := @early_steady _ _ hplan greenType _ hu hshown hgreen
  have hnow := hplan.stepSeconds_eq
  have hgreenSeconds := hplan.greenSeconds_zero
  have hsec := hplan.seconds_le
  have hpre := status.preGreenOf_nonneg (status.phaseAt 0)
  have hflashPos := status.pedGreenFlashOf_nonneg (status.phaseAt 0)
  have hpedRed := status.pedRedOf_nonneg (status.phaseAt 0)
  have hsteps : status.stepId.toNat = 1 ∨ status.stepId.toNat = 2 ∨ status.stepId.toNat = 3 := by
    have hpos := hplan.step_pos
    omega
  refine Timed.bind hearly fun phases => ?_
  rw [← hzero] at hsec hflash
  dsimp only
  rw [if_pos hsteps]
  refine greenFirst_timed hcount hfuel hyellow hred hexists le_rfl hshown₀ hrun ?_ ?_
    (hsteady.within ?_ le_rfl) ?_
  all_goals
    rcases hsteps with hone | htwo | hthree
    · simp [hone, secondsThrough, stepLength] at hnow hsec ⊢
      omega
    · simp [htwo, secondsThrough, stepLength] at hnow hsec ⊢
      omega
    · simp [hthree, hflash hthree, secondsThrough, stepLength] at hnow hsec ⊢
      omega

/-- Late closing: the yellow is skipped, and the offset of the start leaves it out. -/
theorem vehicleGreenEvents_timed_of_kept (hstep : status.stepId.toNat = 4)
    (hkept : status.keepsGreen shown status.runningPhase = true)
    (hstart : status.stepSeconds ≤ status.secondsThrough status.runningPhase 3)
    (hrun : status.GreenRunEnds shown status.subPhaseCount.toNat 1) :
    status.Timed (status.lights (status.vehicleLight shown greenType)) greenType
      (status.vehicleGreenEvents shown fuel greenType ⟨status.runningPhase, 0, [], []⟩) := by
  have hcount := hplan.count_pos
  have hzero := hplan.phaseAt_zero
  have hshown₀ : shown (status.phaseAt 0) := hzero ▸ hshown
  have hkept₀ : status.keepsGreen shown (status.phaseAt 0) = true := hzero ▸ hkept
  obtain ⟨hallRed, hyellow₀, hnext⟩ := (keepsGreen_phaseAt hcount 0).mp hkept₀
  obtain ⟨u, offset, hearly, hu, hpos, hle, hgreen⟩ :=
    @earlyStart_reaches status shown fuel hcount hfuel ⟨status.runningPhase, 0, [], []⟩
      hzero.symm rfl
  have hsteady := (@early_steady _ _ hplan greenType _ hu hshown hgreen).append
    (vehicle_through hshown₀ hallRed (Or.inr hkept₀))
  have hnow := hplan.stepSeconds_of_yellow hstep
  have hone : status.startOf (0 + 1) = status.stepSeconds := by
    rw [startOf_succ, phaseSeconds, hallRed, hnow]
    omega
  have hgreenSeconds := hplan.greenSeconds_zero
  have hgreen₁ := status.greenSeconds_nonneg (0 + 1)
  have hyellowPos := status.yellowOf_nonneg (status.phaseAt 0)
  rw [secondsThrough_three, ← hzero] at hstart
  refine Timed.bind hearly fun phases => ?_
  dsimp only [SpatWalk.moveTo, SpatWalk.touch]
  rw [if_neg (by omega), if_pos hstep, if_pos (of_decide_eq_true hkept₀),
    nextSubphase_phaseAt hcount]
  exact greenFirst_timed hcount hfuel hyellow hred hexists (by omega) hnext hrun
    (by rw [hone, greenSeconds_of_ne (by omega)]) (by omega)
    (hsteady.within (by omega) le_rfl) (by omega)

omit hplan hyellow hred hshown hfuel in
/-- The yellow of the running phase is over before the next green phase starts, if the
phase before that has all-red. -/
theorem yellow_lt_nextGreen
    (hallRed : status.allRedOf (status.phaseAt (status.nextGreen shown - 1)) ≠ 0) :
    status.startOf 0 + status.greenSeconds 0 + status.yellowOf (status.phaseAt 0) <
      status.startOf (status.nextGreen shown) := by
  obtain ⟨hpos, -⟩ := nextGreen_spec hexists
  have hlength := status.startOf_succ (status.nextGreen shown - 1)
  have hgreen := status.greenSeconds_nonneg (status.nextGreen shown - 1)
  have hyellow := status.yellowOf_nonneg (status.phaseAt (status.nextGreen shown - 1))
  have hred := lt_of_le_of_ne (status.allRedOf_nonneg _) hallRed.symm
  rw [Int.sub_add_cancel, phaseSeconds] at hlength
  rcases eq_or_lt_of_le (show 0 ≤ status.nextGreen shown - 1 by omega) with heq | hlt
  · rw [← heq] at hlength hred
    omega
  · have hbefore := @yellow_le_startOf status 0 _ hlt
    omega

omit hyellow hred in
/-- The green of the next green phase is taken from the phase before it. -/
theorem vehicleGreenEvents_timed_of_yellow (hstep : status.stepId.toNat = 4)
    (hkept : status.keepsGreen shown status.runningPhase = false)
    (hallRed : status.allRedOf (status.phaseAt (status.nextGreen shown - 1)) ≠ 0)
    (hgreen : status.greenOf (status.phaseAt (status.nextGreen shown - 1)) ≤
      status.greenOf (status.phaseAt (status.nextGreen shown))) :
    status.Timed (status.lights (status.vehicleLight shown greenType)) .protectedClearance
      (status.vehicleGreenEvents shown fuel greenType ⟨status.runningPhase, 0, [], []⟩) := by
  have hzero := hplan.phaseAt_zero
  have hshown₀ : shown (status.phaseAt 0) := hzero ▸ hshown
  have hkept₀ : status.keepsGreen shown (status.phaseAt 0) = false := hzero ▸ hkept
  have hevents := @vehicleGreenEvents_reaches_of_yellow _ _ _ hplan hfuel hexists greenType hstep
    hkept hallRed
  obtain ⟨hpos, -, hqshown, hnot⟩ := nextGreen_spec hexists
  have hlt := yellow_lt_nextGreen hexists hallRed
  generalize status.nextGreen shown = q at *
  have hnow := hplan.stepSeconds_of_yellow hstep
  have hsec := hplan.seconds_le
  have hyellowSteady := @vehicle_yellow _ _ _ greenType hshown₀
  have hredSteady := (@vehicle_allRed _ _ _ greenType hshown₀).append
    (lights_red (fun _ => vehicleLight_red) (show 0 + 1 ≤ q by omega) hnot)
  have hgreenSteady := @vehicle_green _ _ _ greenType hqshown
  rw [hkept₀, if_neg Bool.false_ne_true] at hyellowSteady
  rw [hstep, stepLength, ← hzero] at hsec
  rw [greenSeconds_of_ne (by omega)] at hgreenSteady
  refine ⟨_, _, _, hevents, isTimeline_three (by omega) le_rfl ?_
    (hyellowSteady.within le_rfl (by omega)) (by omega) (hredSteady.within (by omega) le_rfl) ?_
    (hgreenSteady.within le_rfl (by omega))⟩
  · exact (hredSteady.within hnow.ge le_rfl).not_at (by omega) (by decide)
  · exact le_add_of_nonneg_right (status.greenOf_nonneg _)

omit hplan hyellow hexists hshown hfuel in
/-- A red ends where a phase that shows the green starts, unless it has neither green nor
yellow. -/
theorem not_at_red {q : ℤ} (hqshown : shown (status.phaseAt q))
    (hpos : 0 < status.greenSeconds q + status.yellowOf (status.phaseAt q)) :
    ¬(status.lights (status.vehicleLight shown greenType)).At (status.startOf q)
      .stopAndRemain := by
  rcases eq_or_lt_of_le (status.greenSeconds_nonneg q) with hzero | hgreen
  · have hyellow := @vehicle_yellow _ _ _ greenType hqshown
    rw [← hzero, Int.add_zero] at hyellow
    refine hyellow.not_at (by omega) ?_
    split
    · exact hred.symm
    · decide
  · exact (vehicle_green hqshown).not_at (by omega) hred.symm

omit hyellow in
/-- So are the green and the yellow behind the running red. -/
theorem vehicleGreenEvents_timed_of_allRed (hstep : status.stepId.toNat = 5)
    (hallRed : status.allRedOf (status.phaseAt (status.nextGreen shown - 1)) ≠ 0)
    (hpositive : 0 < status.greenOf (status.phaseAt (status.nextGreen shown)) +
      status.yellowOf (status.phaseAt (status.nextGreen shown)))
    (hgreen : (status.yellowOf (status.phaseAt (status.nextGreen shown - 1)) = 0 ∧
        status.greenOf (status.phaseAt (status.nextGreen shown - 1)) ≤
          status.greenOf (status.phaseAt (status.nextGreen shown))) ∨
      (status.keepsGreen shown (status.phaseAt (status.nextGreen shown)) = false ∧
        status.greenOf (status.phaseAt (status.nextGreen shown - 1)) =
          status.greenOf (status.phaseAt (status.nextGreen shown)) ∧
        status.yellowOf (status.phaseAt (status.nextGreen shown - 1)) ≤
          status.yellowOf (status.phaseAt (status.nextGreen shown)))) :
    status.Timed (status.lights (status.vehicleLight shown greenType)) .stopAndRemain
      (status.vehicleGreenEvents shown fuel greenType ⟨status.runningPhase, 0, [], []⟩) := by
  have hzero := hplan.phaseAt_zero
  have hshown₀ : shown (status.phaseAt 0) := hzero ▸ hshown
  have hevents := @vehicleGreenEvents_reaches_of_allRed _ _ _ hplan hfuel hexists greenType hstep
    hallRed
  obtain ⟨hpos, -, hqshown, hnot⟩ := nextGreen_spec hexists
  generalize status.nextGreen shown = q at *
  have hnow := hplan.stepSeconds_of_allRed hstep
  have hsec := hplan.seconds_le
  have hlength := status.startOf_succ 0
  have hmono := status.startOf_mono (show 0 + 1 ≤ q by omega)
  have hredSteady := (@vehicle_allRed _ _ _ greenType hshown₀).append
    (lights_red (fun _ => vehicleLight_red) (show 0 + 1 ≤ q by omega) hnot)
  have hgreenSteady := @vehicle_green _ _ _ greenType hqshown
  have hyellowSteady := @vehicle_yellow _ _ _ greenType hqshown
  have hends := not_at_red hred hqshown (by rwa [greenSeconds_of_ne (by omega)])
  rw [phaseSeconds] at hlength
  rw [hstep, stepLength, ← hzero] at hsec
  rw [greenSeconds_of_ne (by omega)] at hgreenSteady hyellowSteady
  refine ⟨_, _, _, hevents, isTimeline_three (by omega) (by omega) hends hredSteady
    (le_add_of_nonneg_right (status.greenOf_nonneg _)) (hgreenSteady.within le_rfl (by omega))
    (le_add_of_nonneg_right (status.yellowOf_nonneg _)) ?_⟩
  rcases hgreen with ⟨hnone, -⟩ | ⟨hkept, hequal, hshort⟩
  · exact .of_le (by omega)
  · rw [hkept, if_neg Bool.false_ne_true] at hyellowSteady
    exact hyellowSteady.within (by omega) (by omega)

end Vehicle

/-! ## A signal that is red in the running phase -/

section Red

variable (hexists : ∃ k < status.subPhaseCount.toNat, shown k)
  (hshown : shown status.runningPhase = false)
include hexists hshown

/-- A red that is on where the last green phase ends is on until the next one starts. -/
theorem red_steady {light : ℤ → ℤ → MovementPhaseState}
    (hred : ∀ m w, shown (status.phaseAt m) = false → light m w = .stopAndRemain) :
    (status.lights light).Steady (status.startOf (status.lastGreen shown + 1))
      (status.startOf (status.nextGreen shown)) .stopAndRemain := by
  obtain ⟨hpos, -, -, hnot⟩ := nextGreen_spec hexists
  obtain ⟨hneg, -, -, hbefore⟩ := lastGreen_spec hexists
  refine lights_red hred (by omega) fun m hm hm' => ?_
  rcases lt_trichotomy m 0 with hlt | rfl | hgt
  · exact hbefore m (by omega) hlt
  · rw [hplan.phaseAt_zero]
    exact hshown
  · exact hnot m hgt hm'

/-- A vehicle signal: its red, the next green, and the yellow. -/
theorem vehicleRedEvents_timed (hfuel : status.subPhaseCount.toNat < fuel)
    {greenType : MovementPhaseState} (hred : .stopAndRemain ≠ greenType)
    (hallRed : status.allRedOf status.runningPhase ≤
      status.allRedOf (status.phaseAt (status.lastGreen shown)))
    (hpositive : 0 < status.greenOf (status.phaseAt (status.nextGreen shown)) +
      status.yellowOf (status.phaseAt (status.nextGreen shown)))
    (hrun : status.GreenRunEnds shown status.subPhaseCount.toNat (status.nextGreen shown)) :
    status.Timed (status.lights (status.vehicleLight shown greenType)) .stopAndRemain
      (status.vehicleRedEvents shown fuel greenType ⟨status.runningPhase, 0, [], []⟩) := by
  have hredSteady := @red_steady _ _ hplan hexists hshown
    (status.vehicleLight shown greenType) fun _ => vehicleLight_red
  obtain ⟨v, huntil, hevents⟩ := @vehicleRedEvents_reaches _ _ _ hplan hfuel hexists greenType hrun
  obtain ⟨hpos, -, hqshown, -⟩ := nextGreen_spec hexists
  obtain ⟨hneg, -, hpshown, -⟩ := lastGreen_spec hexists
  have hends := not_at_red hred hqshown (by rwa [greenSeconds_of_ne (by omega)])
  generalize status.nextGreen shown = q at *
  generalize status.lastGreen shown = p at *
  have hlastRed := @vehicle_allRed _ _ _ greenType hpshown
  have hlength := status.startOf_succ p
  have hmono := status.startOf_mono (show p + 1 ≤ 0 by omega)
  have hmono' := status.startOf_mono (show 0 + 1 ≤ q by omega)
  have hqv := status.startOf_mono huntil.le
  have hsec := hplan.stepSeconds_le
  have hstart := hplan.startOf_zero_nonpos
  have hgreenPos := status.greenSeconds_nonneg v
  have hallRedPos := status.allRedOf_nonneg status.runningPhase
  rw [phaseSeconds] at hlength
  exact ⟨_, _, _, hevents, isTimeline_three (by omega) (by omega) hends
    ((hlastRed.within (by omega) le_rfl).append hredSteady) (by omega) huntil.steady
    (le_add_of_nonneg_right (status.yellowOf_nonneg _)) huntil.yellow⟩

omit hplan hexists hshown in
theorem pedestrian_not_at_red {q : ℤ} (hqshown : shown (status.phaseAt q))
    (hfits : status.preGreenOf (status.phaseAt q) + status.pedGreenFlashOf (status.phaseAt q) ≤
      status.phaseSeconds q)
    (hpositive : 0 < status.preGreenOf (status.phaseAt q) +
      status.pedGreenFlashOf (status.phaseAt q)) :
    ¬(status.lights (status.pedestrianLight shown)).At (status.startOf q) .stopAndRemain := by
  have hflash := status.pedGreenFlashOf_nonneg (status.phaseAt q)
  rcases eq_or_lt_of_le (status.preGreenOf_nonneg (status.phaseAt q)) with hzero | hgreen
  · have hsteady := pedestrian_flash hqshown hfits
    rw [← hzero, Int.add_zero] at hsteady
    exact hsteady.not_at (by omega) (by decide)
  · exact (pedestrian_green hqshown (by omega)).not_at (by omega) (by decide)

/-- A pedestrian signal: its red, the next green, and the flash. -/
theorem pedestrianRedEvents_timed (hfuel : status.subPhaseCount.toNat < fuel)
    (hallRed : status.allRedOf status.runningPhase ≤
      status.wholePhaseOf (status.phaseAt (status.lastGreen shown)) -
        status.preGreenOf (status.phaseAt (status.lastGreen shown)) -
        status.pedGreenFlashOf (status.phaseAt (status.lastGreen shown)))
    (hpositive : 0 < status.preGreenOf (status.phaseAt (status.nextGreen shown)) +
      status.pedGreenFlashOf (status.phaseAt (status.nextGreen shown)))
    (hfits : status.preGreenOf (status.phaseAt (status.nextGreen shown)) +
      status.pedGreenFlashOf (status.phaseAt (status.nextGreen shown)) ≤
        status.wholePhaseOf (status.phaseAt (status.nextGreen shown))) :
    status.Timed (status.lights (status.pedestrianLight shown)) .stopAndRemain
      (status.pedestrianRedEvents shown fuel ⟨status.runningPhase, 0, [], []⟩) := by
  have hredSteady := @red_steady _ _ hplan hexists hshown (status.pedestrianLight shown)
    fun _ => pedestrianLight_red
  have hevents := pedestrianRedEvents_reaches hplan hfuel hexists
  obtain ⟨hpos, -, hqshown, -⟩ := nextGreen_spec hexists
  obtain ⟨hneg, -, hpshown, -⟩ := lastGreen_spec hexists
  generalize status.nextGreen shown = q at *
  generalize status.lastGreen shown = p at *
  rw [← phaseSeconds_of_ne (by omega)] at hfits hallRed
  have hlastRed := pedestrian_red hpshown
  have hlength := status.startOf_succ p
  have hmono := status.startOf_mono (show p + 1 ≤ 0 by omega)
  have hmono' := status.startOf_mono (show 0 + 1 ≤ q by omega)
  have hsec := hplan.stepSeconds_le
  have hstart := hplan.startOf_zero_nonpos
  have hallRedPos := status.allRedOf_nonneg status.runningPhase
  have hgreenPos := status.preGreenOf_nonneg (status.phaseAt q)
  have hflashPos := status.pedGreenFlashOf_nonneg (status.phaseAt q)
  exact ⟨_, _, _, hevents, isTimeline_three (by omega) (by omega)
    (pedestrian_not_at_red hqshown hfits hpositive)
    ((hlastRed.within (by omega) le_rfl).append hredSteady) (by omega)
    (pedestrian_green hqshown (by omega)) (by omega) (pedestrian_flash hqshown hfits)⟩

end Red

/-! ## A pedestrian signal that is green in the running phase -/

section Pedestrian

variable (hfuel : status.subPhaseCount.toNat < fuel)
  (hexists : ∃ k < status.subPhaseCount.toNat, shown k) (hshown : shown status.runningPhase)
include hfuel hexists hshown

omit hfuel in
theorem pedestrianRed_steady : (status.lights (status.pedestrianLight shown)).Steady
    (status.startOf 0 + status.preGreenOf (status.phaseAt 0) +
      status.pedGreenFlashOf (status.phaseAt 0))
    (status.startOf (status.nextGreen shown)) .stopAndRemain := by
  obtain ⟨hpos, -, -, hnot⟩ := nextGreen_spec hexists
  have hshown₀ : shown (status.phaseAt 0) := hplan.phaseAt_zero ▸ hshown
  exact (pedestrian_red hshown₀).append
    (lights_red (fun _ => pedestrianLight_red) (by omega) fun p hp hp' => hnot p (by omega) hp')

/-- The green, the flash and the red of the running phase. -/
theorem pedestrianGreenEvents_timed_of_green (hstep : status.stepId.toNat = 1)
    (hpositive : status.stepSeconds < status.startOf (status.nextGreen shown)) :
    status.Timed (status.lights (status.pedestrianLight shown)) .permissiveMovementAllowed
      (status.pedestrianGreenEvents shown fuel ⟨status.runningPhase, 0, [], []⟩) := by
  have hshown₀ : shown (status.phaseAt 0) := hplan.phaseAt_zero ▸ hshown
  have hevents := pedestrianGreenEvents_reaches_of_green hplan hfuel hexists hstep
  have hmono := startOf_one_le hexists
  have hone := hplan.startOf_one
  have hnow := hplan.stepSeconds_of_green hstep
  have hstart := hplan.startOf_zero_nonpos
  have hflash := status.pedGreenFlashOf_nonneg (status.phaseAt 0)
  have hred := status.pedRedOf_nonneg (status.phaseAt 0)
  have hyellow := status.yellowOf_nonneg (status.phaseAt 0)
  have hallRed := status.allRedOf_nonneg (status.phaseAt 0)
  have hfits := hplan.fits
  have hgreenSteady := pedestrian_green hshown₀ (by omega)
  have hflashSteady := pedestrian_flash hshown₀ hfits
  have hredSteady := pedestrianRed_steady hplan hexists hshown
  rw [← hnow] at hgreenSteady hflashSteady hredSteady
  refine ⟨_, _, _, hevents, isTimeline_three hstart le_rfl ?_ hgreenSteady (by omega) hflashSteady
    (by omega) hredSteady⟩
  -- the flash comes next, or the red if there is no flash
  rcases eq_or_lt_of_le hflash with hnone | hsome
  · exact (hredSteady.within (by omega) le_rfl).not_at hpositive (by decide)
  · exact hflashSteady.not_at (by omega) (by decide)

/-- The flash starts the seconds left of it too early, and the green behind the red is
taken from the phase before. -/
theorem pedestrianGreenEvents_timed_of_flash (hstep : status.stepId.toNat = 2)
    (hsecond : status.stepSeconds = 0)
    (hgreen : status.preGreenOf (status.phaseAt (status.nextGreen shown - 1)) ≤
      status.preGreenOf (status.phaseAt (status.nextGreen shown)))
    (hfits : status.preGreenOf (status.phaseAt (status.nextGreen shown)) ≤
      status.wholePhaseOf (status.phaseAt (status.nextGreen shown)))
    (hpositive : 0 < status.startOf (status.nextGreen shown) +
      status.preGreenOf (status.phaseAt (status.nextGreen shown))) :
    status.Timed (status.lights (status.pedestrianLight shown)) .protectedClearance
      (status.pedestrianGreenEvents shown fuel ⟨status.runningPhase, 0, [], []⟩) := by
  have hshown₀ : shown (status.phaseAt 0) := hplan.phaseAt_zero ▸ hshown
  have hevents := pedestrianGreenEvents_reaches_of_flash hplan hfuel hexists hstep
  have hredSteady := pedestrianRed_steady hplan hexists hshown
  have hflashSteady := pedestrian_flash hshown₀ hplan.fits
  have hmono := startOf_one_le hexists
  have hone := hplan.startOf_one
  have hnow := hplan.stepSeconds_of_flash hstep
  have hflash := status.pedGreenFlashOf_nonneg (status.phaseAt 0)
  have hred := status.pedRedOf_nonneg (status.phaseAt 0)
  have hyellow := status.yellowOf_nonneg (status.phaseAt 0)
  have hallRed := status.allRedOf_nonneg (status.phaseAt 0)
  obtain ⟨hpos, -, hqshown, -⟩ := nextGreen_spec hexists
  generalize status.nextGreen shown = q at *
  rw [← phaseSeconds_of_ne (by omega)] at hfits
  have hgreenSteady := pedestrian_green hqshown hfits
  have hgreenPos := status.preGreenOf_nonneg (status.phaseAt (q - 1))
  refine ⟨_, _, _, hevents, isTimeline_three (by omega) le_rfl ?_
    (hflashSteady.within (by omega) (by omega)) (by omega)
    (hredSteady.within (by omega) le_rfl) (by omega) (hgreenSteady.within le_rfl (by omega))⟩
  -- the red comes next, or the green if there is no red
  rcases lt_or_ge 0 (status.startOf q) with hsome | hnone
  · exact (hredSteady.within (by omega) le_rfl).not_at (by omega) (by decide)
  · exact (hgreenSteady.within (by omega) le_rfl).not_at (by omega) (by decide)

/-- In the red of the running phase. -/
theorem pedestrianGreenEvents_timed_of_red (hstep : 3 ≤ status.stepId.toNat)
    (hnone : (if status.stepId.toNat = 3 then status.pedRedOf (status.phaseAt 0) +
        status.yellowOf (status.phaseAt 0) + status.allRedOf (status.phaseAt 0)
      else if status.stepId.toNat = 4 then status.allRedOf (status.phaseAt 0)
      else status.pedRedOf (status.phaseAt 0)) +
      (status.startOf (status.nextGreen shown) - status.startOf (0 + 1)) = 0)
    (hflash : status.pedGreenFlashOf (status.phaseAt (status.nextGreen shown - 1)) = 0 ∨
      (status.preGreenOf (status.phaseAt (status.nextGreen shown)) = 0 ∧
        status.pedGreenFlashOf (status.phaseAt (status.nextGreen shown - 1)) ≤
          status.pedGreenFlashOf (status.phaseAt (status.nextGreen shown))))
    (hpositive : 0 < status.preGreenOf (status.phaseAt (status.nextGreen shown)) +
      status.pedGreenFlashOf (status.phaseAt (status.nextGreen shown)))
    (hfits : status.preGreenOf (status.phaseAt (status.nextGreen shown)) +
      status.pedGreenFlashOf (status.phaseAt (status.nextGreen shown)) ≤
        status.wholePhaseOf (status.phaseAt (status.nextGreen shown))) :
    status.Timed (status.lights (status.pedestrianLight shown)) .stopAndRemain
      (status.pedestrianGreenEvents shown fuel ⟨status.runningPhase, 0, [], []⟩) := by
  obtain ⟨first, rest, hfirst, hrest, hevents⟩ :=
    pedestrianGreenEvents_reaches_of_red hplan hfuel hexists hstep
  have hredSteady := pedestrianRed_steady hplan hexists hshown
  obtain ⟨hpos, -, hqshown, -⟩ := nextGreen_spec hexists
  have hmono := startOf_one_le hexists
  generalize status.nextGreen shown = q at *
  rw [← phaseSeconds_of_ne (by omega)] at hfits
  have hends := pedestrian_not_at_red hqshown hfits hpositive
  have hflashSteady := pedestrian_flash hqshown hfits
  have hflashPos := status.pedGreenFlashOf_nonneg (status.phaseAt (q - 1))
  have hone := hplan.startOf_one
  have hsec := hplan.seconds_le
  have hnow := hplan.stepSeconds_eq
  have hred := status.pedRedOf_nonneg (status.phaseAt 0)
  have hyellow := status.yellowOf_nonneg (status.phaseAt 0)
  have hallRed := status.allRedOf_nonneg (status.phaseAt 0)
  have hsteps : status.stepId.toNat = 3 ∨ status.stepId.toNat = 4 ∨ status.stepId.toNat = 5 := by
    have hle := hplan.step_le
    omega
  have htimes : first ≤ 0 ∧ rest + (status.startOf q - status.startOf (0 + 1)) = 0 ∧
      status.startOf q = status.stepSeconds := by
    rw [hfirst, hrest]
    rcases hsteps with hstep | hstep | hstep <;>
      simp [hstep, redOffset, secondsThrough, stepLength, ← hplan.phaseAt_zero]
        at hsec hnow hnone hmono hone ⊢ <;> omega
  obtain ⟨hbefore, hover, hend⟩ := htimes
  rw [hend] at hends hredSteady
  rw [Int.add_assoc status.stepSeconds, hover, Int.add_zero] at hevents
  refine ⟨_, _, _, hevents, isTimeline_three hbefore le_rfl hends
    (hredSteady.within hfirst.ge le_rfl) le_rfl (.of_le le_rfl) (by omega) ?_⟩
  rcases hflash with hzero | ⟨hgreen, hshort⟩
  · exact .of_le (by omega)
  · exact hflashSteady.within (by omega) (by omega)

end Pedestrian

end InPlan

end TrafficSignalStatus

end AdaptiveSignal.Signal
