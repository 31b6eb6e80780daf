import AdaptiveSignal.Spat.TimedGroups

/-! # Plans whose phases change every light

If every phase has a yellow and an all-red, or every phase a pedestrian green and a flash,
a wrong time shows: the light it is taken for is another one at some second. So the events
of a group are a timeline only if its branch has the times it needs.
-/

namespace AdaptiveSignal.Signal

open Foundation

namespace TrafficSignalStatus

variable {status : TrafficSignalStatus} {shown : ℕ → Bool} {fuel : ℕ}

/-! ## Events and lights -/

section Timelines

variable {lights : Periods MovementPhaseState} {running : MovementPhaseState}
  {events : List MovementEvent}

theorem Timed.isTimeline {result : Option SpatWalk} {cur : ℕ} {offset : ℤ}
    (htimed : status.Timed lights running result) (hresult : Reaches result cur offset events) :
    status.IsTimeline lights running events := by
  obtain ⟨cur', offset', events', ⟨phases', hresult'⟩, htimeline⟩ := htimed
  obtain ⟨phases, rfl⟩ := hresult
  cases hresult'
  exact htimeline

theorem IsTimeline.seconds_le {first : MovementEvent}
    (htimeline : status.IsTimeline lights running (first :: events)) :
    status.stepSeconds ≤ first.minEndTime := by
  obtain ⟨⟨_, hfirst, -, -, hle, -⟩, -, -⟩ := htimeline
  cases hfirst
  exact hle

variable {event : MovementEvent} (htimeline : status.IsTimeline lights running events)
  (hevent : event ∈ events)
include htimeline hevent

/-- An event is the light at every second of it. -/
theorem IsTimeline.eventState_eq {first last t : ℤ} {a : MovementPhaseState}
    (hsteady : lights.Steady first last a) (hfirst : first ≤ t) (hlast : t < last)
    (hstart : event.startTime ≤ t) (hend : t < event.minEndTime) : event.eventState = a :=
  ((htimeline.2.2 event hevent).2 t hstart hend).unique (hsteady t hfirst hlast)

end Timelines

/-! ## Vehicle signals -/

/-- Every phase has a yellow and an all-red. -/
def VehicleRegular (status : TrafficSignalStatus) : Prop :=
  ∀ k < status.subPhaseCount.toNat, 0 < status.yellowOf k ∧ 0 < status.allRedOf k

section Vehicle

variable (hplan : status.InPlan) (hregular : status.VehicleRegular)
include hplan hregular

theorem VehicleRegular.yellow_pos (m : ℤ) : 0 < status.yellowOf (status.phaseAt m) :=
  (hregular _ (phaseAt_lt hplan.count_pos m)).1

theorem VehicleRegular.allRed_pos (m : ℤ) : 0 < status.allRedOf (status.phaseAt m) :=
  (hregular _ (phaseAt_lt hplan.count_pos m)).2

theorem VehicleRegular.notKept (m : ℤ) : status.keepsGreen shown (status.phaseAt m) = false := by
  refine Bool.eq_false_iff.mpr fun hkept => ?_
  have hred := ((keepsGreen_phaseAt hplan.count_pos m).mp hkept).1
  exact (hregular.allRed_pos hplan m).ne' hred

theorem VehicleRegular.greenRunEnds (m : ℤ) :
    status.GreenRunEnds shown status.subPhaseCount.toNat m := by
  obtain ⟨n, hn⟩ := Nat.exists_eq_succ_of_ne_zero hplan.count_pos.ne'
  rw [hn]
  exact Or.inl (hregular.allRed_pos hplan m).ne'

theorem VehicleRegular.yellow {greenType : MovementPhaseState} {m : ℤ}
    (hshown : shown (status.phaseAt m)) :
    (status.lights (status.vehicleLight shown greenType)).Steady
      (status.startOf m + status.greenSeconds m)
      (status.startOf m + status.greenSeconds m + status.yellowOf (status.phaseAt m))
      .protectedClearance := by
  have hyellow := @vehicle_yellow _ _ _ greenType hshown
  rwa [hregular.notKept hplan, if_neg Bool.false_ne_true] at hyellow

section Next

variable {greenType running : MovementPhaseState} {events : List MovementEvent} {q green : ℤ}
  (hyellow : .protectedClearance ≠ greenType) (hq : q ≠ 0) (hqshown : shown (status.phaseAt q))
  (htimeline : status.IsTimeline (status.lights (status.vehicleLight shown greenType)) running
    events)
include hyellow hq hqshown htimeline

/-- A next green is not longer than the plan's, or it would last through the yellow. -/
theorem VehicleRegular.green_le
    (hevent : ⟨greenType, status.startOf q, status.startOf q + green⟩ ∈ events) :
    green ≤ status.greenOf (status.phaseAt q) := by
  by_contra hlong
  have hyellowSteady := @VehicleRegular.yellow _ shown hplan hregular greenType _ hqshown
  have hyellowPos := hregular.yellow_pos hplan q
  have hgreenPos := status.greenOf_nonneg (status.phaseAt q)
  rw [greenSeconds_of_ne hq] at hyellowSteady
  exact hyellow (htimeline.eventState_eq hevent hyellowSteady le_rfl (by omega)
    (le_add_of_nonneg_right hgreenPos) (by dsimp only; omega)).symm

/-- Nor does a yellow behind it start before the plan's, or end after it. -/
theorem VehicleRegular.yellow_within {yellow : ℤ} (hgreen : 0 ≤ green) (hpositive : 0 < yellow)
    (hle : green ≤ status.greenOf (status.phaseAt q))
    (hevent : ⟨.protectedClearance, status.startOf q + green,
      status.startOf q + green + yellow⟩ ∈ events) :
    green = status.greenOf (status.phaseAt q) ∧ yellow ≤ status.yellowOf (status.phaseAt q) := by
  have hgreenSteady := @vehicle_green _ _ _ greenType hqshown
  have hredSteady := @vehicle_allRed _ _ _ greenType hqshown
  have hallRedPos := hregular.allRed_pos hplan q
  have hyellowPos := hregular.yellow_pos hplan q
  have hlength := status.startOf_succ q
  rw [phaseSeconds] at hlength
  rw [greenSeconds_of_ne hq] at hgreenSteady hredSteady hlength
  have hequal : green = status.greenOf (status.phaseAt q) := by
    by_contra hne
    exact hyellow (htimeline.eventState_eq hevent hgreenSteady
      (le_add_of_nonneg_right hgreen) (by omega) le_rfl (by dsimp only; omega))
  refine ⟨hequal, ?_⟩
  by_contra hlong
  have hstop := htimeline.eventState_eq hevent hredSteady le_rfl (by omega)
    (by dsimp only; omega) (by dsimp only; omega)
  cases hstop

end Next

variable (hfuel : status.subPhaseCount.toNat < fuel)
  (hexists : ∃ k < status.subPhaseCount.toNat, shown k) {greenType running : MovementPhaseState}
include hfuel hexists

theorem vehicleGreenTimed_of_timed (hyellow : .protectedClearance ≠ greenType)
    (htimed : status.Timed (status.lights (status.vehicleLight shown greenType)) running
      (status.vehicleGreenEvents shown fuel greenType ⟨status.runningPhase, 0, [], []⟩)) :
    status.VehicleGreenTimed shown := by
  have hkept : status.keepsGreen shown status.runningPhase = false := by
    rw [← hplan.phaseAt_zero]
    exact hregular.notKept hplan 0
  have hallRed := (hregular.allRed_pos hplan (status.nextGreen shown - 1)).ne'
  have hyellowPos := hregular.yellow_pos hplan (status.nextGreen shown)
  have hgreenPos := status.greenOf_nonneg (status.phaseAt (status.nextGreen shown))
  obtain ⟨hpos, -, hqshown, -⟩ := nextGreen_spec hexists
  have hq : status.nextGreen shown ≠ 0 := by omega
  dsimp only [VehicleGreenTimed]
  rw [hkept, if_neg Bool.false_ne_true]
  split
  · rename_i hstep
    refine ⟨hregular.greenRunEnds hplan 0, fun hthree => ?_⟩
    obtain ⟨start, hevents⟩ := @vehicleGreenEvents_reaches_of_stepThree _ shown _ hplan hfuel
      hexists greenType hthree (hregular.allRed_pos hplan 0).ne'
    have hle := (htimed.isTimeline hevents).seconds_le
    dsimp only at hle
    have hflash := status.pedGreenFlashOf_nonneg (status.phaseAt 0)
    rw [← hplan.phaseAt_zero]
    omega
  · rename_i hlate
    split
    · rename_i hstep
      have hevents := @vehicleGreenEvents_reaches_of_yellow _ shown _ hplan hfuel hexists greenType
        hstep hkept hallRed
      exact ⟨hallRed, hregular.green_le hplan hyellow hq hqshown (htimed.isTimeline hevents)
        (.tail _ (.tail _ (.head _)))⟩
    · rename_i hstep
      have hfive : status.stepId.toNat = 5 := by
        have hle := hplan.step_le
        omega
      have hevents := @vehicleGreenEvents_reaches_of_allRed _ shown _ hplan hfuel hexists greenType
        hfive hallRed
      have htimeline := htimed.isTimeline hevents
      have hle := hregular.green_le hplan hyellow hq hqshown htimeline (.tail _ (.head _))
      have hwithin := hregular.yellow_within hplan hyellow hq hqshown htimeline
        (status.greenOf_nonneg _) (hregular.yellow_pos hplan (status.nextGreen shown - 1)) hle
        (.tail _ (.tail _ (.head _)))
      exact ⟨hallRed, by omega, Or.inr ⟨hregular.notKept hplan _, hwithin⟩⟩

theorem vehicleRedTimed_of_timed
    (htimed : status.Timed (status.lights (status.vehicleLight shown greenType)) running
      (status.vehicleRedEvents shown fuel greenType ⟨status.runningPhase, 0, [], []⟩)) :
    status.VehicleRedTimed shown := by
  have hrun := @VehicleRegular.greenRunEnds _ shown hplan hregular (status.nextGreen shown)
  obtain ⟨v, -, hevents⟩ := @vehicleRedEvents_reaches _ _ _ hplan hfuel hexists greenType hrun
  have htimeline := htimed.isTimeline hevents
  have hyellowPos := hregular.yellow_pos hplan (status.nextGreen shown)
  have hgreenPos := status.greenOf_nonneg (status.phaseAt (status.nextGreen shown))
  refine ⟨?_, by omega, hrun⟩
  by_contra hlong
  obtain ⟨hpos, -, -, -⟩ := nextGreen_spec hexists
  obtain ⟨hneg, -, hpshown, -⟩ := lastGreen_spec hexists
  have hyellowSteady := @VehicleRegular.yellow _ shown hplan hregular greenType _ hpshown
  have hyellowLast := hregular.yellow_pos hplan (status.lastGreen shown)
  have hallRedLast := hregular.allRed_pos hplan (status.lastGreen shown)
  have hmono := status.startOf_mono
    (show status.lastGreen shown + 1 ≤ status.nextGreen shown by omega)
  have hlength := status.startOf_succ (status.lastGreen shown)
  rw [phaseSeconds] at hlength
  -- the last second of the yellow before
  have hstop := @IsTimeline.eventState_eq _ _ _ _ _ htimeline List.mem_cons_self _ _
    (status.startOf (status.lastGreen shown) + status.greenSeconds (status.lastGreen shown) +
      status.yellowOf (status.phaseAt (status.lastGreen shown)) - 1) _ hyellowSteady
    (by omega) (by omega) (by dsimp only; omega) (by dsimp only; omega)
  cases hstop

end Vehicle

/-! ## Pedestrian signals -/

/-- Every phase has a pedestrian green and a flash, and they fit into it. -/
def PedestrianRegular (status : TrafficSignalStatus) : Prop :=
  ∀ k < status.subPhaseCount.toNat, 0 < status.preGreenOf k ∧ 0 < status.pedGreenFlashOf k ∧
    status.preGreenOf k + status.pedGreenFlashOf k ≤ status.wholePhaseOf k

section Pedestrian

variable (hplan : status.InPlan) (hregular : status.PedestrianRegular)
include hplan hregular

theorem PedestrianRegular.green_pos (m : ℤ) : 0 < status.preGreenOf (status.phaseAt m) :=
  (hregular _ (phaseAt_lt hplan.count_pos m)).1

theorem PedestrianRegular.flash_pos (m : ℤ) : 0 < status.pedGreenFlashOf (status.phaseAt m) :=
  (hregular _ (phaseAt_lt hplan.count_pos m)).2.1

/-- The running phase goes by its steps, so its green and flash fit in any case. -/
theorem PedestrianRegular.fits (m : ℤ) : status.preGreenOf (status.phaseAt m) +
    status.pedGreenFlashOf (status.phaseAt m) ≤ status.phaseSeconds m := by
  by_cases hm : m = 0
  · rw [hm]
    exact hplan.fits
  · rw [phaseSeconds_of_ne hm]
    exact (hregular _ (phaseAt_lt hplan.count_pos m)).2.2

theorem PedestrianRegular.green {m : ℤ} (hshown : shown (status.phaseAt m)) :
    (status.lights (status.pedestrianLight shown)).Steady (status.startOf m)
      (status.startOf m + status.preGreenOf (status.phaseAt m)) .permissiveMovementAllowed := by
  have hfits := hregular.fits hplan m
  have hflash := status.pedGreenFlashOf_nonneg (status.phaseAt m)
  exact pedestrian_green hshown (by omega)

variable (hfuel : status.subPhaseCount.toNat < fuel)
  (hexists : ∃ k < status.subPhaseCount.toNat, shown k) {running : MovementPhaseState}
include hfuel hexists

theorem flash_timed_of_timed (hshown : shown status.runningPhase)
    (hstep : status.stepId.toNat = 2)
    (htimed : status.Timed (status.lights (status.pedestrianLight shown)) running
      (status.pedestrianGreenEvents shown fuel ⟨status.runningPhase, 0, [], []⟩)) :
    status.stepSeconds = 0 ∧ status.preGreenOf (status.phaseAt (status.nextGreen shown - 1)) ≤
      status.preGreenOf (status.phaseAt (status.nextGreen shown)) := by
  have hevents := pedestrianGreenEvents_reaches_of_flash hplan hfuel hexists hstep
  have htimeline := htimed.isTimeline hevents
  obtain ⟨-, -, hqshown, -⟩ := nextGreen_spec hexists
  have hshown₀ : shown (status.phaseAt 0) := hplan.phaseAt_zero ▸ hshown
  constructor
  · by_contra hseconds
    have hgreenSteady := hregular.green hplan hshown₀
    have hgreenPos := hregular.green_pos hplan 0
    have hpositive : 0 ≤ status.stepSeconds := Int.natCast_nonneg _
    have hflashPos := hregular.flash_pos hplan 0
    have hnow := hplan.stepSeconds_of_flash hstep
    -- the last second of the green
    have hgreen := @IsTimeline.eventState_eq _ _ _ _ _ htimeline (.head _) _ _
      (status.stepSeconds - status.pedGreenFlashOf (status.phaseAt 0) - 1) _ hgreenSteady
      (by omega) (by omega) (by dsimp only; omega) (by dsimp only; omega)
    cases hgreen
  · by_contra hlong
    have hflashSteady := pedestrian_flash hqshown (hregular.fits hplan _)
    have hgreenPos := hregular.green_pos hplan (status.nextGreen shown)
    have hflashPos := hregular.flash_pos hplan (status.nextGreen shown)
    have hflash := htimeline.eventState_eq (.tail _ (.tail _ (.head _))) hflashSteady le_rfl
      (by omega) (by dsimp only; omega) (by dsimp only; omega)
    cases hflash

/-- Behind the flash of the running phase, the next flash is not the next light. -/
theorem not_timed_of_red (hshown : shown status.runningPhase) (hstep : 3 ≤ status.stepId.toNat) :
    ¬status.Timed (status.lights (status.pedestrianLight shown)) running
      (status.pedestrianGreenEvents shown fuel ⟨status.runningPhase, 0, [], []⟩) := by
  intro htimed
  obtain ⟨first, rest, -, -, hevents⟩ :=
    pedestrianGreenEvents_reaches_of_red hplan hfuel hexists hstep
  have htimeline := htimed.isTimeline hevents
  have hredSteady := pedestrianRed_steady hplan hexists hshown
  obtain ⟨-, -, hqshown, -⟩ := nextGreen_spec hexists
  have hmono := startOf_one_le hexists
  have hgreenSteady := hregular.green hplan hqshown
  have hgreenPos := hregular.green_pos hplan (status.nextGreen shown)
  have hflashPos := hregular.flash_pos hplan (status.nextGreen shown - 1)
  have hsec := hplan.stepSeconds_le
  rcases lt_or_ge status.stepSeconds (status.startOf (status.nextGreen shown)) with hlt | hge
  · have hred := htimeline.eventState_eq (.tail _ (.tail _ (.head _))) hredSteady
      (hplan.le_stepSeconds hstep) hlt
      le_rfl (by dsimp only; omega)
    cases hred
  · have hgreen := htimeline.eventState_eq (.tail _ (.tail _ (.head _))) hgreenSteady hge
      (by omega) le_rfl (by dsimp only; omega)
    cases hgreen

theorem pedestrianGreenTimed_of_timed (hshown : shown status.runningPhase)
    (htimed : status.Timed (status.lights (status.pedestrianLight shown)) running
      (status.pedestrianGreenEvents shown fuel ⟨status.runningPhase, 0, [], []⟩)) :
    status.PedestrianGreenTimed shown := by
  obtain ⟨hpos, -, -, -⟩ := nextGreen_spec hexists
  have hmono := startOf_one_le hexists
  have hlength := status.startOf_succ 0
  have hfits := hplan.fits
  have hflashPos := hregular.flash_pos hplan 0
  have hgreenNext := hregular.green_pos hplan (status.nextGreen shown)
  dsimp only [PedestrianGreenTimed]
  split
  · rename_i hstep
    have hnow := hplan.stepSeconds_of_green hstep
    omega
  · rename_i hlate
    split
    · rename_i hstep
      obtain ⟨hsecond, hgreen⟩ :=
        flash_timed_of_timed hplan hregular hfuel hexists hshown hstep htimed
      have hfitsNext := hregular.fits hplan (status.nextGreen shown)
      have hflashNext := hregular.flash_pos hplan (status.nextGreen shown)
      rw [phaseSeconds_of_ne (by omega)] at hfitsNext
      have hnow := hplan.stepSeconds_of_flash hstep
      exact ⟨hsecond, hgreen, by omega, by omega⟩
    · rename_i hstep
      have hpos := hplan.step_pos
      exact absurd htimed
        (not_timed_of_red hplan hregular hfuel hexists hshown (by omega))

theorem pedestrianRedTimed_of_timed
    (htimed : status.Timed (status.lights (status.pedestrianLight shown)) running
      (status.pedestrianRedEvents shown fuel ⟨status.runningPhase, 0, [], []⟩)) :
    status.PedestrianRedTimed shown := by
  have htimeline := htimed.isTimeline (pedestrianRedEvents_reaches hplan hfuel hexists)
  obtain ⟨hpos, -, -, -⟩ := nextGreen_spec hexists
  obtain ⟨hneg, -, hpshown, -⟩ := lastGreen_spec hexists
  have hgreenNext := hregular.green_pos hplan (status.nextGreen shown)
  have hflashNext := hregular.flash_pos hplan (status.nextGreen shown)
  have hfitsNext := hregular.fits hplan (status.nextGreen shown)
  rw [phaseSeconds_of_ne (by omega)] at hfitsNext
  refine ⟨?_, by omega, hfitsNext⟩
  by_contra hlong
  have hflashSteady := pedestrian_flash hpshown (hregular.fits hplan _)
  have hflashLast := hregular.flash_pos hplan (status.lastGreen shown)
  have hfitsLast := hregular.fits hplan (status.lastGreen shown)
  have hmono := status.startOf_mono
    (show status.lastGreen shown + 1 ≤ status.nextGreen shown by omega)
  have hlength := status.startOf_succ (status.lastGreen shown)
  rw [← phaseSeconds_of_ne (by omega)] at hlong
  -- the last second of the flash before
  have hflash := @IsTimeline.eventState_eq _ _ _ _ _ htimeline (.head _) _ _
    (status.startOf (status.lastGreen shown) +
      status.preGreenOf (status.phaseAt (status.lastGreen shown)) +
      status.pedGreenFlashOf (status.phaseAt (status.lastGreen shown)) - 1) _ hflashSteady
    (by omega) (by omega) (by dsimp only; omega) (by dsimp only; omega)
  cases hflash

end Pedestrian

/-! ## Groups -/

/-- Every phase has the lights that a group goes through. -/
def Regular (status : TrafficSignalStatus) (group : SignalIdObj) : Prop :=
  if group.signalGreenType ≠ pedestrianGreenIndex then status.VehicleRegular
  else status.PedestrianRegular

section Groups

variable {signalIdTable : ℕ → ℕ → List SignalIdObj} {i : ℕ} {mask : UInt8} {group : SignalIdObj}

theorem timedRightly_of_timed (hplan : status.InPlan)
    (hgroup : (i, mask, group) ∈ status.processedGroups signalIdTable)
    (hregular : status.Regular group)
    (htimed : status.Timed (status.groupLights (status.shows i mask) group.signalGreenType)
      (status.runningLight (status.shows i mask) group.signalGreenType)
      (status.groupEvents (status.shows i mask) (status.subPhaseCount.toNat + 1)
        group.signalGreenType ⟨status.runningPhase, 0, [], []⟩)) :
    status.TimedRightly i mask group := by
  have hexists := status.exists_shows_of_mem_processedGroups signalIdTable hgroup
  have hfuel := Nat.lt_succ_self status.subPhaseCount.toNat
  obtain ⟨hyellow, -⟩ := vehicleGreenType_ne group.signalGreenType
  dsimp only [groupEvents] at htimed
  dsimp only [TimedRightly]
  unfold Regular at hregular
  by_cases hvehicle : group.signalGreenType ≠ pedestrianGreenIndex
  · rw [if_pos hvehicle] at hregular htimed ⊢
    rw [groupLights, if_pos hvehicle] at htimed
    by_cases hshown : status.shows i mask status.runningPhase
    · rw [if_pos hshown] at htimed ⊢
      exact vehicleGreenTimed_of_timed hplan hregular hfuel hexists hyellow htimed
    · rw [if_neg hshown] at htimed ⊢
      exact vehicleRedTimed_of_timed hplan hregular hfuel hexists htimed
  · rw [if_neg hvehicle] at hregular htimed ⊢
    rw [groupLights, if_neg hvehicle] at htimed
    by_cases hshown : status.shows i mask status.runningPhase
    · rw [if_pos hshown] at htimed ⊢
      exact pedestrianGreenTimed_of_timed hplan hregular hfuel hexists hshown htimed
    · rw [if_neg hshown] at htimed ⊢
      exact pedestrianRedTimed_of_timed hplan hregular hfuel hexists htimed

/-- The message has a timeline for every group whose branch has the times it needs, and,
if the plan is regular, for no other group. -/
theorem groupTimeline_of_timedRightly (hplan : status.InPlan)
    (hgroup : (i, mask, group) ∈ status.processedGroups signalIdTable) :
    (status.TimedRightly i mask group → status.GroupTimeline signalIdTable i mask group) ∧
      (status.Regular group → (status.GroupTimeline signalIdTable i mask group ↔
        status.TimedRightly i mask group)) := by
  rw [groupTimeline_iff_timed hplan hgroup]
  exact ⟨groupEvents_timed hplan hgroup, fun hregular =>
    ⟨timedRightly_of_timed hplan hgroup hregular, groupEvents_timed hplan hgroup⟩⟩

end Groups

/-- Two phases of 28 seconds of green; the first one shows a round head. -/
def twoPhases (stepId : UInt8) (stepSec : UInt16) : TrafficSignalStatus :=
  { TrafficSignalStatus.initial fun _ =>
      { StaticPlan.unset with
        preGreen := 20, pedGreenFlash := 5, pedRed := 3, yellow := 3, allRed := 2, green := 28 } with
    subPhaseId := 1
    stepId := stepId
    stepSec := stepSec
    subPhaseCount := 2
    signalCount := 1
    phaseorderPlan := fun k _ => if k = 0 then 4 else 0 }

/-- One group of the round head. -/
def roundHeadTable : ℕ → ℕ → List SignalIdObj := fun _ j => if j = 0 then [⟨1, 0, 0⟩] else []

deriving instance DecidableEq for SignalIdObj

/-- Seven seconds before the end of the first step. -/
theorem groupTimeline_of_timedRightly_stepOne :
    (twoPhases 1 7).Regular ⟨1, 0, 0⟩ ∧ (twoPhases 1 7).TimedRightly 0 4 ⟨1, 0, 0⟩ ∧
      (twoPhases 1 7).GroupTimeline roundHeadTable 0 4 ⟨1, 0, 0⟩ :=
  have htimed : (twoPhases 1 7).TimedRightly 0 4 ⟨1, 0, 0⟩ :=
    ⟨Or.inl (by decide), fun hstep => absurd hstep (by decide)⟩
  have hregular : (twoPhases 1 7).Regular ⟨1, 0, 0⟩ :=
    show ∀ k < (twoPhases 1 7).subPhaseCount.toNat, _ by decide
  have hexact := groupTimeline_of_timedRightly
    (show (twoPhases 1 7).InPlan from ⟨by decide, by decide, by decide, by decide, by decide⟩)
    (show (0, 4, ⟨1, 0, 0⟩) ∈ (twoPhases 1 7).processedGroups roundHeadTable by decide)
  ⟨hregular, (hexact.2 hregular).mp (hexact.1 htimed), hexact.1 htimed⟩

/-- Two seconds before the end of step three, the green is said to have ended three seconds
ago. -/
theorem green_ends_in_the_past :
    (twoPhases 3 2).InPlan ∧ (twoPhases 3 2).subPhaseCount ≤ 8 ∧ (twoPhases 3 2).signalCount ≤ 8 ∧
      (0, 4, ⟨1, 0, 0⟩) ∈ (twoPhases 3 2).processedGroups roundHeadTable ∧
      ¬(twoPhases 3 2).GroupTimeline roundHeadTable 0 4 ⟨1, 0, 0⟩ := by
  refine ⟨⟨by decide, by decide, by decide, by decide, by decide⟩, by decide, by decide,
    by decide, ?_⟩
  rintro ⟨states, -, state, -, hstate, ⟨first, hfirst, -, -, hend, -⟩, -⟩
  have hevents : ((twoPhases 3 2).movementState 3 0 4 ⟨1, 0, 0⟩).map
      (fun state => state.events.head?) =
        some (some ⟨.permissiveMovementAllowed, -26, -3⟩) := by decide
  have hstate : (twoPhases 3 2).movementState 3 0 4 ⟨1, 0, 0⟩ = some state := hstate
  rw [hstate, Option.map_some, Option.some.injEq] at hevents
  rw [hevents] at hfirst
  cases hfirst
  exact absurd hend (by decide)

end TrafficSignalStatus

end AdaptiveSignal.Signal
