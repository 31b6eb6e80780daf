import AdaptiveSignal.Foundation.GrowingArray
import AdaptiveSignal.Spat.Scans

/-! # The update of the message ends

A group is processed only when some phase shows its green, which is what the loop
without a counter looks for. The running phase is not compared with the plan.
-/

namespace AdaptiveSignal.Signal

open Foundation

/-! ## The groups that are processed -/

theorem and_or_distrib_right (a b c : UInt8) : (a ||| b) &&& c = a &&& c ||| b &&& c :=
  UInt8.toBitVec_inj.mp BitVec.and_or_distrib_right

/-- A green that a map of all phases holds is shown by one of them. -/
theorem foldl_green_ne_zero {greens : ℕ → UInt8} {mask : UInt8} (phases : List ℕ) {map : UInt8}
    (hmap : phases.foldl (fun map k => map ||| (greens k &&& greenMask)) map &&& mask ≠ 0) :
    map &&& mask ≠ 0 ∨ ∃ k ∈ phases, greens k &&& mask ≠ 0 := by
  induction phases generalizing map with
  | nil => exact .inl hmap
  | cons k phases ih =>
      rcases ih hmap with hfirst | ⟨k', hk', hshown⟩
      · by_cases hmap' : map &&& mask = 0
        · refine .inr ⟨k, List.mem_cons_self, fun hnone => hfirst ?_⟩
          rw [and_or_distrib_right, hmap', UInt8.and_assoc, UInt8.and_comm greenMask,
            ← UInt8.and_assoc, hnone, UInt8.zero_and, UInt8.or_zero]
        · exact .inl hmap'
      · exact .inr ⟨k', List.mem_cons_of_mem k hk', hshown⟩

namespace TrafficSignalStatus

variable (status : TrafficSignalStatus) (signalIdTable : ℕ → ℕ → List SignalIdObj)

theorem exists_shows_of_mem_processedGroups {i : ℕ} {mask : UInt8} {group : SignalIdObj}
    (hgroup : (i, mask, group) ∈ status.processedGroups signalIdTable) :
    ∃ k < status.subPhaseCount.toNat, status.shows i mask k := by
  simp only [processedGroups, List.mem_flatMap] at hgroup
  obtain ⟨i', -, ⟨mask', j⟩, -, hmem⟩ := hgroup
  dsimp only at hmem
  split at hmem
  · rename_i hmap
    obtain ⟨group', -, heq⟩ := List.mem_map.mp hmem
    cases heq
    rcases foldl_green_ne_zero _ hmap with hzero | ⟨k, hk, hshown⟩
    · exact absurd UInt8.zero_and hzero
    · exact ⟨k, List.mem_range.mp hk, decide_eq_true hshown⟩
  · cases hmem

/-- Every loop ends after at most as many rounds as there are phases, and every phase
index that is used is one of the plan. -/
def ScansEnd : Prop :=
  ∃ states, status.spatMsgUpdate (status.subPhaseCount.toNat + 1) signalIdTable = some states ∧
    ∀ state ∈ states, ∀ k ∈ state.phases, k < status.subPhaseCount.toNat

variable {status signalIdTable}

/-- Loops of a group that some phase shows. -/
theorem movementState_ends {i : ℕ} {mask : UInt8} {fuel : ℕ}
    (hcur : status.subPhaseId.toNat - 1 < status.subPhaseCount.toNat)
    (hfuel : status.subPhaseCount.toNat < fuel)
    (hshown : ∃ k < status.subPhaseCount.toNat, status.shows i mask k) (group : SignalIdObj) :
    ∃ state, status.movementState fuel i mask group = some state ∧
      ∀ k ∈ state.phases, k < status.subPhaseCount.toNat := by
  have hcount := Nat.zero_lt_of_lt hcur
  obtain ⟨k, hk, hshown⟩ := hshown
  have hstart : SpatWalk.Inside status.subPhaseCount.toNat
      ⟨status.subPhaseId.toNat - 1, 0, [], []⟩ :=
    ⟨hcur, fun k hk => absurd hk List.not_mem_nil⟩
  have hlands : Lands status.subPhaseCount.toNat (status.groupEvents (status.shows i mask) fuel
      group.signalGreenType ⟨status.subPhaseId.toNat - 1, 0, [], []⟩) := by
    dsimp only [groupEvents]
    split
    · split
      · exact vehicleGreenEvents_ends hcount hfuel _ _ hstart
      · exact vehicleRedEvents_ends hcount hfuel hk hshown _ _ hstart
    · split
      · exact pedestrianGreenEvents_ends hcount hfuel _ hstart
      · exact pedestrianRedEvents_ends hcount hfuel hk hshown _ hstart
  obtain ⟨w, hevents, hw⟩ := hlands
  refine ⟨_, by rw [movementState, hevents]; rfl, fun k hk => ?_⟩
  rcases List.mem_cons.mp hk with rfl | hk
  · exact hcur
  · exact hw.phases k hk

theorem cur_mem_phases {i : ℕ} {mask : UInt8} {fuel : ℕ} {group : SignalIdObj}
    {state : MovementState} (hstate : status.movementState fuel i mask group = some state) :
    status.subPhaseId.toNat - 1 ∈ state.phases := by
  obtain ⟨w, -, rfl⟩ := Option.map_eq_some_iff.mp hstate
  exact List.mem_cons_self

theorem processedGroups_of_subPhaseCount (hcount : status.subPhaseCount = 0) :
    status.processedGroups signalIdTable = [] := by
  refine List.eq_nil_iff_forall_not_mem.mpr fun ⟨i, mask, group⟩ hgroup => ?_
  obtain ⟨k, hk, -⟩ := status.exists_shows_of_mem_processedGroups signalIdTable hgroup
  rw [hcount] at hk
  exact absurd hk (Nat.not_lt_zero k)

theorem processedGroups_of_signalCount (hsignals : status.signalCount = 0) :
    status.processedGroups signalIdTable = [] := by
  rw [processedGroups, hsignals]
  rfl

/-- The first phase that is used is the running one. -/
theorem subPhaseId_le_of_scansEnd (hgroups : status.processedGroups signalIdTable ≠ [])
    (hstep : status.stepId ≠ 0) (hends : status.ScansEnd signalIdTable) :
    status.subPhaseId ≤ status.subPhaseCount := by
  obtain ⟨states, hstates, hinside⟩ := hends
  by_cases hphase : status.subPhaseId = 0
  · exact hphase ▸ UInt8.zero_le
  · rw [spatMsgUpdate, if_neg (by
      rintro (hzero | hzero | hzero | hzero)
      · exact hphase hzero
      · exact hstep hzero
      · exact hgroups (processedGroups_of_subPhaseCount hzero)
      · exact hgroups (processedGroups_of_signalCount hzero))] at hstates
    obtain ⟨group, hgroup⟩ := List.exists_mem_of_ne_nil _ hgroups
    obtain ⟨state, hstate⟩ := exists_mapM_iff.mp ⟨states, hstates⟩ group hgroup
    have hmem := (mem_mapM_iff hstates).mpr ⟨group, hgroup, hstate⟩
    have hlt := hinside state hmem _ (cur_mem_phases hstate)
    rw [UInt8.le_iff_toNat_le]
    omega

theorem scansEnd_of_le (hle : status.subPhaseId ≤ status.subPhaseCount) :
    status.ScansEnd signalIdTable := by
  unfold ScansEnd spatMsgUpdate
  split
  · exact ⟨[], rfl, fun state hstate => absurd hstate List.not_mem_nil⟩
  · rename_i hreturn
    have hcur : status.subPhaseId.toNat - 1 < status.subPhaseCount.toNat := by
      rw [UInt8.le_iff_toNat_le] at hle
      have hpos : status.subPhaseId.toNat ≠ 0 := fun h => hreturn (.inl (UInt8.toNat_inj.mp h))
      omega
    have hends : ∀ group ∈ status.processedGroups signalIdTable, ∃ state,
        status.movementState (status.subPhaseCount.toNat + 1) group.1 group.2.1 group.2.2 =
          some state ∧ ∀ k ∈ state.phases, k < status.subPhaseCount.toNat :=
      fun ⟨i, mask, group⟩ hgroup => movementState_ends hcur (Nat.lt_succ_self _)
        (status.exists_shows_of_mem_processedGroups signalIdTable hgroup) group
    obtain ⟨states, hstates⟩ := exists_mapM_iff.mpr fun group hgroup =>
      ⟨_, (hends group hgroup).choose_spec.1⟩
    refine ⟨states, hstates, fun state hstate => ?_⟩
    obtain ⟨group, hgroup, heq⟩ := (mem_mapM_iff hstates).mp hstate
    obtain ⟨state', heq', hinside⟩ := hends group hgroup
    rw [heq] at heq'
    exact Option.some.inj heq' ▸ hinside

/-- The loops end inside the plan exactly when the running phase is one of the plan, or
there is nothing to be told. -/
theorem scansEnd_iff (status : TrafficSignalStatus)
    (signalIdTable : ℕ → ℕ → List SignalIdObj) :
    status.ScansEnd signalIdTable ↔
      status.subPhaseId ≤ status.subPhaseCount ∨ status.stepId = 0 ∨
        status.processedGroups signalIdTable = [] := by
  constructor
  · intro hends
    by_cases hstep : status.stepId = 0
    · exact .inr (.inl hstep)
    · by_cases hgroups : status.processedGroups signalIdTable = []
      · exact .inr (.inr hgroups)
      · exact .inl (subPhaseId_le_of_scansEnd hgroups hstep hends)
  · rintro (hle | hstep | hgroups)
    · exact scansEnd_of_le hle
    · rw [ScansEnd, spatMsgUpdate, if_pos (.inr (.inl hstep))]
      exact ⟨[], rfl, fun state hstate => absurd hstate List.not_mem_nil⟩
    · refine ⟨[], ?_, fun state hstate => absurd hstate List.not_mem_nil⟩
      rw [spatMsgUpdate, hgroups]
      exact ite_self _

/-- Phase three of a plan that has come to have two. -/
def beyondPlan : TrafficSignalStatus :=
  { TrafficSignalStatus.initial fun _ => .unset with
    subPhaseId := 3
    stepId := 1
    subPhaseCount := 2
    signalCount := 1
    phaseorderPlan := fun _ _ => 4 }

theorem phase_beyond_plan :
    ¬beyondPlan.ScansEnd fun _ j => if j = 0 then [⟨1, 0, 0⟩] else [] := by
  intro hends
  have hgroups : beyondPlan.processedGroups (fun _ j => if j = 0 then [⟨1, 0, 0⟩] else []) ≠ [] :=
    List.ne_nil_of_length_pos (by decide)
  exact absurd (subPhaseId_le_of_scansEnd hgroups (by decide) hends) (by decide)

end TrafficSignalStatus

end AdaptiveSignal.Signal
