import AdaptiveSignal.Spat.Timelines

/-! # The groups whose events are a timeline

Most branches of the message take a time from a phase or a step it does not belong to.
What the plan has to be for the events to be a timeline all the same is a condition for
each branch.
-/

namespace AdaptiveSignal.Signal

open Foundation

namespace TrafficSignalStatus

section Conditions

variable (status : TrafficSignalStatus) (shown : ℕ → Bool)

/-- A vehicle signal that is green in the running phase. Step three takes the flash off the
end of the green. In step four, late closing leaves the yellow out of the start. Otherwise
the next green has the times of the phase before it. -/
def VehicleGreenTimed : Prop :=
  let cur := status.runningPhase
  let step := status.stepId.toNat
  let before := status.phaseAt (status.nextGreen shown - 1)
  let next := status.phaseAt (status.nextGreen shown)
  if step ≤ 3 then
    status.GreenRunEnds shown status.subPhaseCount.toNat 0 ∧
      (step = 3 → status.pedGreenFlashOf cur = 0)
  else if step = 4 then
    if status.keepsGreen shown cur then
      status.stepSeconds ≤ status.secondsThrough cur 3 ∧
        status.GreenRunEnds shown status.subPhaseCount.toNat 1
    else status.allRedOf before ≠ 0 ∧ status.greenOf before ≤ status.greenOf next
  else
    status.allRedOf before ≠ 0 ∧ 0 < status.greenOf next + status.yellowOf next ∧
      ((status.yellowOf before = 0 ∧ status.greenOf before ≤ status.greenOf next) ∨
        (status.keepsGreen shown next = false ∧ status.greenOf before = status.greenOf next ∧
          status.yellowOf before ≤ status.yellowOf next))

/-- A vehicle signal that is red in the running phase: the all-red before it is taken to be
as long as the running phase's. -/
def VehicleRedTimed : Prop :=
  let next := status.phaseAt (status.nextGreen shown)
  status.allRedOf status.runningPhase ≤ status.allRedOf (status.phaseAt (status.lastGreen shown)) ∧
    0 < status.greenOf next + status.yellowOf next ∧
    status.GreenRunEnds shown status.subPhaseCount.toNat (status.nextGreen shown)

/-- A pedestrian signal that is green in the running phase. Step two starts the flash too
early by twice the seconds left, and has the next green from the phase before it. The later
steps miss a part of the red and end the next green with the running step. -/
def PedestrianGreenTimed : Prop :=
  let cur := status.phaseAt 0
  let step := status.stepId.toNat
  let before := status.phaseAt (status.nextGreen shown - 1)
  let next := status.phaseAt (status.nextGreen shown)
  if step = 1 then status.stepSeconds < status.startOf (status.nextGreen shown)
  else if step = 2 then
    status.stepSeconds = 0 ∧ status.preGreenOf before ≤ status.preGreenOf next ∧
      status.preGreenOf next ≤ status.wholePhaseOf next ∧
      0 < status.startOf (status.nextGreen shown) + status.preGreenOf next
  else
    (if step = 3 then status.pedRedOf cur + status.yellowOf cur + status.allRedOf cur
      else if step = 4 then status.allRedOf cur else status.pedRedOf cur) +
      (status.startOf (status.nextGreen shown) - status.startOf (0 + 1)) = 0 ∧
    (status.pedGreenFlashOf before = 0 ∨ (status.preGreenOf next = 0 ∧
      status.pedGreenFlashOf before ≤ status.pedGreenFlashOf next)) ∧
    0 < status.preGreenOf next + status.pedGreenFlashOf next ∧
    status.preGreenOf next + status.pedGreenFlashOf next ≤ status.wholePhaseOf next

/-- A pedestrian signal that is red in the running phase. -/
def PedestrianRedTimed : Prop :=
  let last := status.phaseAt (status.lastGreen shown)
  let next := status.phaseAt (status.nextGreen shown)
  status.allRedOf status.runningPhase ≤
      status.wholePhaseOf last - status.preGreenOf last - status.pedGreenFlashOf last ∧
    0 < status.preGreenOf next + status.pedGreenFlashOf next ∧
    status.preGreenOf next + status.pedGreenFlashOf next ≤ status.wholePhaseOf next

/-- The condition of the branch that a group goes through. -/
def TimedRightly (i : ℕ) (mask : UInt8) (group : SignalIdObj) : Prop :=
  let shown := status.shows i mask
  if group.signalGreenType ≠ pedestrianGreenIndex then
    if shown status.runningPhase then status.VehicleGreenTimed shown
    else status.VehicleRedTimed shown
  else if shown status.runningPhase then status.PedestrianGreenTimed shown
  else status.PedestrianRedTimed shown

end Conditions

variable {status : TrafficSignalStatus} {shown : ℕ → Bool} {fuel : ℕ}

theorem vehicleGreenType_ne (signalGreenType : UInt8) :
    .protectedClearance ≠ vehicleGreenType signalGreenType ∧
      .stopAndRemain ≠ vehicleGreenType signalGreenType := by
  unfold vehicleGreenType
  split <;> decide

section Groups

variable (hplan : status.InPlan) (hfuel : status.subPhaseCount.toNat < fuel)
  (hexists : ∃ k < status.subPhaseCount.toNat, shown k)
include hplan hfuel hexists

theorem vehicleGreenEvents_timed (signalGreenType : UInt8)
    (hvehicle : signalGreenType ≠ pedestrianGreenIndex) (hshown : shown status.runningPhase)
    (htimed : status.VehicleGreenTimed shown) :
    status.Timed (status.lights (status.vehicleLight shown (vehicleGreenType signalGreenType)))
      (status.runningLight shown signalGreenType)
      (status.vehicleGreenEvents shown fuel (vehicleGreenType signalGreenType)
        ⟨status.runningPhase, 0, [], []⟩) := by
  obtain ⟨hyellow, hred⟩ := vehicleGreenType_ne signalGreenType
  have hle := hplan.step_le
  dsimp only [VehicleGreenTimed] at htimed
  split at htimed
  · rename_i hstep
    have hlight := vehicleGreenEvents_timed_of_green hplan hfuel hyellow hred hexists hshown hstep
      htimed.1 htimed.2
    simpa [runningLight, hshown, hvehicle, hstep] using hlight
  · rename_i hlate
    split at htimed
    · rename_i hstep
      split at htimed
      · rename_i hkept
        have hlight := vehicleGreenEvents_timed_of_kept hplan hfuel hyellow hred hexists hshown
          hstep hkept htimed.1 htimed.2
        simpa [runningLight, hshown, hvehicle, hstep, hkept] using hlight
      · rename_i hkept
        have hlight := @vehicleGreenEvents_timed_of_yellow _ _ _ hplan hfuel
          (vehicleGreenType signalGreenType) hexists hshown hstep (Bool.eq_false_iff.mpr hkept)
          htimed.1 htimed.2
        simpa [runningLight, hshown, hvehicle, hstep, hkept] using hlight
    · rename_i hstep
      have hlight := vehicleGreenEvents_timed_of_allRed hplan hfuel hred hexists hshown
        (by omega) htimed.1 htimed.2.1 htimed.2.2
      simpa [runningLight, hshown, hvehicle, hlate, hstep] using hlight

theorem pedestrianGreenEvents_timed (hshown : shown status.runningPhase)
    (htimed : status.PedestrianGreenTimed shown) :
    status.Timed (status.lights (status.pedestrianLight shown))
      (status.runningLight shown pedestrianGreenIndex)
      (status.pedestrianGreenEvents shown fuel ⟨status.runningPhase, 0, [], []⟩) := by
  have hpos := hplan.step_pos
  dsimp only [PedestrianGreenTimed] at htimed
  split at htimed
  · rename_i hstep
    have hlight := pedestrianGreenEvents_timed_of_green hplan hfuel hexists hshown hstep htimed
    simpa [runningLight, hshown, hstep] using hlight
  · rename_i hlate
    split at htimed
    · rename_i hstep
      have hlight := pedestrianGreenEvents_timed_of_flash hplan hfuel hexists hshown hstep
        htimed.1 htimed.2.1 htimed.2.2.1 htimed.2.2.2
      simpa [runningLight, hshown, hstep] using hlight
    · rename_i hstep
      have hlight := pedestrianGreenEvents_timed_of_red hplan hfuel hexists hshown (by omega)
        htimed.1 htimed.2.1 htimed.2.2.1 htimed.2.2.2
      simpa [runningLight, hshown, hlate, hstep] using hlight

end Groups

variable {signalIdTable : ℕ → ℕ → List SignalIdObj} {i : ℕ} {mask : UInt8} {group : SignalIdObj}

theorem groupEvents_timed (hplan : status.InPlan)
    (hgroup : (i, mask, group) ∈ status.processedGroups signalIdTable)
    (htimed : status.TimedRightly i mask group) :
    status.Timed (status.groupLights (status.shows i mask) group.signalGreenType)
      (status.runningLight (status.shows i mask) group.signalGreenType)
      (status.groupEvents (status.shows i mask) (status.subPhaseCount.toNat + 1)
        group.signalGreenType ⟨status.runningPhase, 0, [], []⟩) := by
  have hexists := status.exists_shows_of_mem_processedGroups signalIdTable hgroup
  have hfuel := Nat.lt_succ_self status.subPhaseCount.toNat
  obtain ⟨-, hred⟩ := vehicleGreenType_ne group.signalGreenType
  dsimp only [TimedRightly] at htimed
  dsimp only [groupEvents]
  by_cases hvehicle : group.signalGreenType ≠ pedestrianGreenIndex
  · rw [if_pos hvehicle] at htimed ⊢
    rw [groupLights, if_pos hvehicle]
    by_cases hshown : status.shows i mask status.runningPhase
    · rw [if_pos hshown] at htimed ⊢
      exact vehicleGreenEvents_timed hplan hfuel hexists _ hvehicle hshown htimed
    · rw [if_neg hshown] at htimed ⊢
      have hlight := vehicleRedEvents_timed hplan hexists (Bool.eq_false_iff.mpr hshown) hfuel hred
        htimed.1 htimed.2.1 htimed.2.2
      simpa [runningLight, hshown] using hlight
  · rw [if_neg hvehicle] at htimed ⊢
    rw [groupLights, if_neg hvehicle, not_not.mp hvehicle]
    by_cases hshown : status.shows i mask status.runningPhase
    · rw [if_pos hshown] at htimed ⊢
      exact pedestrianGreenEvents_timed hplan hfuel hexists hshown htimed
    · rw [if_neg hshown] at htimed ⊢
      have hlight := pedestrianRedEvents_timed hplan hexists (Bool.eq_false_iff.mpr hshown) hfuel
        htimed.1 htimed.2.1 htimed.2.2
      simpa [runningLight, hshown] using hlight

/-- A group has a timeline where the events of its branch are one. -/
theorem groupTimeline_iff_timed (hplan : status.InPlan)
    (hgroup : (i, mask, group) ∈ status.processedGroups signalIdTable) :
    status.GroupTimeline signalIdTable i mask group ↔
      status.Timed (status.groupLights (status.shows i mask) group.signalGreenType)
        (status.runningLight (status.shows i mask) group.signalGreenType)
        (status.groupEvents (status.shows i mask) (status.subPhaseCount.toNat + 1)
          group.signalGreenType ⟨status.runningPhase, 0, [], []⟩) := by
  constructor
  · rintro ⟨states, -, state, -, hstate, htimeline⟩
    rw [movementState, ← runningPhase, Option.map_eq_some_iff] at hstate
    obtain ⟨w, hw, rfl⟩ := hstate
    exact ⟨w.curSubphase, w.offset, w.events, ⟨w.phases, hw⟩, htimeline⟩
  · rintro ⟨cur, offset, events, ⟨phases, hreaches⟩, htimeline⟩
    have hstate : status.movementState (status.subPhaseCount.toNat + 1) i mask group =
        some ⟨group.signalGroupId, events, status.runningPhase :: phases⟩ := by
      rw [movementState, ← runningPhase, hreaches]
      rfl
    have hle : status.subPhaseId ≤ status.subPhaseCount :=
      UInt8.le_iff_toNat_le.mpr hplan.phase_le
    obtain ⟨states, hstates, -⟩ := @scansEnd_of_le status signalIdTable hle
    have hmap := hstates
    have hpos := hplan.phase_pos
    have hstep := hplan.step_pos
    rw [spatMsgUpdate, if_neg (by
      rintro (hzero | hzero | hzero | hzero)
      · rw [hzero] at hpos
        exact absurd hpos (Nat.lt_irrefl 0)
      · rw [hzero] at hstep
        exact absurd hstep (Nat.lt_irrefl 0)
      · rw [processedGroups_of_subPhaseCount hzero] at hgroup
        exact List.not_mem_nil hgroup
      · rw [processedGroups_of_signalCount hzero] at hgroup
        exact List.not_mem_nil hgroup)] at hmap
    exact ⟨states, hstates, _, (mem_mapM_iff hmap).mpr ⟨_, hgroup, hstate⟩, hstate, htimeline⟩

end TrafficSignalStatus

end AdaptiveSignal.Signal
