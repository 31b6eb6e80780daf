import AdaptiveSignal.Activation.Adjustment
import AdaptiveSignal.Compensation.RemainingTime
import Mathlib.Data.List.FinRange

/-! # The supermatrix of the buses

For every plan a table has adjustments of the coming greens, by the distance of the bus, the
running phase, its remaining time and the phase the bus needs. `TSP_supermatrix_lookup` works the
four indices out in 8 and 16 bits and hands the adjustments of the entry to the command buffer.
-/

namespace AdaptiveSignal.Signal

open Foundation TableAccess

def tspCycleMax : ℕ := 2
def tspPhaseMax : ℕ := 8
def tspRemainingDistanceInterval : ℕ := 10
def tspRemainingDistanceNum : ℕ := 50
def tspSignalPhaseNum : ℕ := 8
def tspRemainingTimeInterval : ℕ := 2
def tspRemainingTimeNum : ℕ := 100
def tspTargetPhaseNum : ℕ := 8

/-- The adjustments of an entry, by cycle and phase. -/
abbrev TspAdjustment := Fin tspCycleMax → Fin tspPhaseMax → Int8

/-- The four indices of an entry. -/
structure TspIndex where
  distance : ℕ
  signalPhase : ℕ
  time : ℕ
  targetPhase : ℕ
  deriving DecidableEq

structure TspRsuMatrix where
  planId : UInt8
  /-- What is read at the indices, also at those behind the table. -/
  entry : TspIndex → TspAdjustment

/-- The index is one of the table. -/
def TspIndex.InBounds (index : TspIndex) : Prop :=
  index.distance < tspRemainingDistanceNum ∧ index.signalPhase < tspSignalPhaseNum ∧
    index.time < tspRemainingTimeNum ∧ index.targetPhase < tspTargetPhaseNum

/-! ## The lookup -/

/-- `TSP_RSU_matrix_search`. -/
def tspRsuMatrixSearch (matrices : List TspRsuMatrix) (planId : UInt8) : Option TspRsuMatrix :=
  matrices.find? fun matrix => matrix.planId = planId

/-- The accesses of `get_remaining_time`. -/
def remainingTimeAccesses (phase step : UInt8) : List TableAccess :=
  match step.toNat with
  | 1 => List.replicate 4 (.plan (phase.toNat - 1))
  | 2 => List.replicate 3 (.plan (phase.toNat - 1))
  | 3 => List.replicate 2 (.plan (phase.toNat - 1))
  | 4 => List.replicate 1 (.plan (phase.toNat - 1))
  | _ => []

namespace TrafficSignalStatus

variable (status : TrafficSignalStatus)

/-- What is left of the running phase. -/
def remainingTime : UInt16 := status.getRemainingTime status.subPhaseId status.stepId status.stepSec

/-- The four indices, the distance and the time in 16 bits and the phases in 8. Only the former
two are clamped. -/
def tspIndex (distance : UInt16) (targetPhase : UInt8) : TspIndex :=
  let distanceIndex := distance / 10
  let timeIndex := status.remainingTime / 2
  { distance := if tspRemainingDistanceNum ≤ distanceIndex.toNat then tspRemainingDistanceNum - 1
      else distanceIndex.toNat
    signalPhase := (status.subPhaseId - 1).toNat
    time := if tspRemainingTimeNum ≤ timeIndex.toNat then tspRemainingTimeNum - 1
      else timeIndex.toNat
    targetPhase := (targetPhase - 1).toNat }

end TrafficSignalStatus

/-- The command for one element of the row. -/
def tspLookupCommand (host : TspHostObu) (i : Fin tspCycleMax) (j : Fin tspPhaseMax) :
    TscCommand where
  appId := tspId
  appPriority := 2
  targetPhase := host.targetPhase
  cycle := .ofNat i
  phase := .ofNat (j + 1)
  effectTime := 0
  hostObuName := host.obuName

/-- What a lookup reads and what it hands to `command_buf_insert_adjustment`, in order. -/
structure TspLookup where
  plans : List TableAccess
  entries : List TspIndex
  insertions : List (TscCommand × Int8)

/-- `TSP_supermatrix_lookup`, up to the insertions. -/
def tspSupermatrixLookup (status : TrafficSignalStatus) (matrices : List TspRsuMatrix)
    (host : TspHostObu) (distance : UInt16) : TspLookup :=
  if status.subPhaseId = 0 then ⟨[], [], []⟩
  else
    match tspRsuMatrixSearch matrices status.planId with
    | none => ⟨[], [], []⟩
    | some matrix =>
        let index := status.tspIndex distance host.targetPhase
        let slots := (List.finRange tspCycleMax).flatMap fun i =>
          (List.finRange tspPhaseMax).map fun j => (i, j)
        { plans := remainingTimeAccesses status.subPhaseId status.stepId
          entries := slots.map fun _ => index
          insertions := slots.map fun (i, j) =>
            (tspLookupCommand host i j, matrix.entry index i j) }

/-- The command buffer after the lookup for a bus. -/
def Middleware.tspLookup (s : Middleware) (bounds : AdjustBounds) (matrices : List TspRsuMatrix)
    (host : TspHostObu) (distance : UInt16) : Middleware :=
  run (fun s (command, adjustment) => (s.commandBufInsertAdjustment bounds command adjustment).2) s
    (tspSupermatrixLookup s.status matrices host distance).insertions

/-! ## What is asked of it -/

/-- The entry is the one of these values; the last bucket takes what is larger. -/
structure TspIndex.Contains (index : TspIndex) (distance signalPhase time targetPhase : ℕ) :
    Prop where
  inBounds : index.InBounds
  distance : index.distance * tspRemainingDistanceInterval ≤ distance ∧
    (distance < (index.distance + 1) * tspRemainingDistanceInterval ∨
      index.distance + 1 = tspRemainingDistanceNum)
  signalPhase : index.signalPhase + 1 = signalPhase
  time : index.time * tspRemainingTimeInterval ≤ time ∧
    (time < (index.time + 1) * tspRemainingTimeInterval ∨ index.time + 1 = tspRemainingTimeNum)
  targetPhase : index.targetPhase + 1 = targetPhase

/-- The status and the bus have rows in the table. -/
def Tabulated (status : TrafficSignalStatus) (host : TspHostObu) : Prop :=
  InTables status.subPhaseId ∧ InTables host.targetPhase

/-- A lookup stays in its tables. Where there is a matrix for what is asked, it hands over every
adjustment of the entry once, and otherwise it reads nothing. -/
structure LooksUp (status : TrafficSignalStatus) (matrices : List TspRsuMatrix)
    (host : TspHostObu) (distance : UInt16) (lookup : TspLookup) : Prop where
  plans : StaysInTables lookup.plans
  entries : ∀ index ∈ lookup.entries, index.Contains distance.toNat status.subPhaseId.toNat
    status.remainingTime.toNat host.targetPhase.toNat
  insertions : ∀ matrix, tspRsuMatrixSearch matrices status.planId = some matrix →
    Tabulated status host → ∃ index, lookup.entries = List.replicate 16 index ∧
      lookup.insertions.length = 16 ∧
        ∀ i j, (tspLookupCommand host i j, matrix.entry index i j) ∈ lookup.insertions
  refused : tspRsuMatrixSearch matrices status.planId = none ∨ ¬ Tabulated status host →
    lookup = ⟨[], [], []⟩

/-! ## When it does that -/

section Lookup

variable {status : TrafficSignalStatus} {matrices : List TspRsuMatrix} {matrix : TspRsuMatrix}
  {host : TspHostObu} {distance : UInt16}

theorem remainingTimeAccesses_stay {phase step : UInt8} (hphase : InTables phase) :
    StaysInTables (remainingTimeAccesses phase step) := by
  have hplan : (TableAccess.plan (phase.toNat - 1)).InBounds := by
    obtain ⟨hfirst, hlast⟩ := hphase
    change (0 : ℤ) ≤ phase.toNat - 1 ∧ (phase.toNat - 1 : ℤ) < 8
    omega
  have hall : ∀ n, StaysInTables (List.replicate n (.plan (phase.toNat - 1))) :=
    fun n access haccess => List.eq_of_mem_replicate haccess ▸ hplan
  unfold remainingTimeAccesses
  split
  · exact hall 4
  · exact hall 3
  · exact hall 2
  · exact hall 1
  · exact staysInTables_nil

theorem phase_sub_one {phase : UInt8} (hphase : InTables phase) :
    (phase - 1).toNat + 1 = phase.toNat := by
  have hle : (1 : UInt8) ≤ phase := UInt8.le_iff_toNat_le.mpr hphase.1
  rw [UInt8.toNat_sub_of_le _ _ hle]
  exact Nat.sub_add_cancel hphase.1

/-- The bucket of a value, the last one from its start on. -/
theorem clamped_bucket {value interval num : ℕ} (hinterval : 0 < interval) (hnum : 0 < num) :
    let index := if num ≤ value / interval then num - 1 else value / interval
    index < num ∧ index * interval ≤ value ∧
      (value < (index + 1) * interval ∨ index + 1 = num) := by
  intro index
  have hbucket : value / interval * interval ≤ value := Nat.div_mul_le_self value interval
  by_cases hlast : num ≤ value / interval
  · have hindex : index = num - 1 := if_pos hlast
    have hle : index * interval ≤ value / interval * interval :=
      Nat.mul_le_mul_right interval (by omega)
    exact ⟨by omega, hle.trans hbucket, Or.inr (by omega)⟩
  · have hindex : index = value / interval := if_neg hlast
    rw [hindex]
    exact ⟨by omega, hbucket, Or.inl (Nat.lt_mul_of_div_lt (Nat.lt_succ_self _) hinterval)⟩

/-- For a tabulated status and bus the four indices are those of the bucket. -/
theorem tspIndex_contains (htabulated : Tabulated status host) :
    (status.tspIndex distance host.targetPhase).Contains distance.toNat status.subPhaseId.toNat
      status.remainingTime.toNat host.targetPhase.toNat := by
  have hphase := phase_sub_one htabulated.1
  have htarget := phase_sub_one htabulated.2
  have hphaseLast := htabulated.1.2
  have htargetLast := htabulated.2.2
  have hdistance := @clamped_bucket distance.toNat tspRemainingDistanceInterval
    tspRemainingDistanceNum (by decide) (by decide)
  have htime := @clamped_bucket status.remainingTime.toNat tspRemainingTimeInterval
    tspRemainingTimeNum (by decide) (by decide)
  have hphaseIndex : (status.subPhaseId - 1).toNat < tspSignalPhaseNum := by
    change _ < 8
    omega
  have htargetIndex : (host.targetPhase - 1).toNat < tspTargetPhaseNum := by
    change _ < 8
    omega
  exact ⟨⟨hdistance.1, hphaseIndex, htime.1, htargetIndex⟩, hdistance.2, hphase, htime.2, htarget⟩

theorem tspSupermatrixLookup_of_matrix (hrunning : status.subPhaseId ≠ 0)
    (hmatrix : tspRsuMatrixSearch matrices status.planId = some matrix) :
    (tspSupermatrixLookup status matrices host distance).plans =
        remainingTimeAccesses status.subPhaseId status.stepId ∧
      (tspSupermatrixLookup status matrices host distance).entries =
        List.replicate 16 (status.tspIndex distance host.targetPhase) ∧
      (tspSupermatrixLookup status matrices host distance).insertions.length = 16 ∧
      ∀ i j, (tspLookupCommand host i j,
          matrix.entry (status.tspIndex distance host.targetPhase) i j) ∈
        (tspSupermatrixLookup status matrices host distance).insertions := by
  unfold tspSupermatrixLookup
  rw [if_neg hrunning, hmatrix]
  refine ⟨rfl, rfl, rfl, fun i j => ?_⟩
  refine List.mem_map.mpr ⟨(i, j), ?_, rfl⟩
  exact List.mem_flatMap.mpr ⟨i, List.mem_finRange i, List.mem_map_of_mem (List.mem_finRange j)⟩

/-- A lookup that ends at once is right where there is nothing to look up. -/
theorem looksUp_of_refused
    (hlookup : tspSupermatrixLookup status matrices host distance = ⟨[], [], []⟩)
    (hnone : ∀ matrix, tspRsuMatrixSearch matrices status.planId = some matrix →
      ¬ Tabulated status host) :
    LooksUp status matrices host distance
      (tspSupermatrixLookup status matrices host distance) := by
  rw [hlookup]
  exact ⟨staysInTables_nil, fun _ h => absurd h List.not_mem_nil,
    fun matrix hmatrix htabulated => absurd htabulated (hnone matrix hmatrix), fun _ => rfl⟩

theorem looksUp_of_tabulated (hrunning : status.subPhaseId ≠ 0)
    (hmatrix : tspRsuMatrixSearch matrices status.planId = some matrix)
    (htabulated : Tabulated status host) :
    LooksUp status matrices host distance
      (tspSupermatrixLookup status matrices host distance) := by
  obtain ⟨hplans, hentries, hlength, hmem⟩ :=
    @tspSupermatrixLookup_of_matrix _ _ _ host distance hrunning hmatrix
  refine ⟨?_, fun index hindex => ?_, fun other hother _ => ?_, fun hrefused => ?_⟩
  · rw [hplans]
    exact remainingTimeAccesses_stay htabulated.1
  · rw [hentries] at hindex
    rw [List.eq_of_mem_replicate hindex]
    exact tspIndex_contains htabulated
  · obtain rfl : matrix = other := Option.some_injective _ (hmatrix.symm.trans hother)
    exact ⟨_, hentries, hlength, hmem⟩
  · rcases hrefused with hnone | hout
    · rw [hmatrix] at hnone
      cases hnone
    · exact absurd htabulated hout

/-- A lookup is right exactly if no phase runs, there is no matrix for the plan, or the running
phase and the phase of the bus are between 1 and 8. -/
theorem looksUp_iff (status : TrafficSignalStatus) (matrices : List TspRsuMatrix)
    (host : TspHostObu) (distance : UInt16) :
    LooksUp status matrices host distance (tspSupermatrixLookup status matrices host distance) ↔
      status.subPhaseId = 0 ∨ tspRsuMatrixSearch matrices status.planId = none ∨
        Tabulated status host := by
  by_cases hrunning : status.subPhaseId = 0
  · refine iff_of_true (looksUp_of_refused ?_ fun _ _ htabulated => ?_) (Or.inl hrunning)
    · rw [tspSupermatrixLookup, if_pos hrunning]
    · have hfirst := htabulated.1.1
      rw [hrunning] at hfirst
      exact absurd hfirst (by decide)
  cases hmatrix : tspRsuMatrixSearch matrices status.planId with
  | none =>
      refine iff_of_true (looksUp_of_refused ?_ fun matrix hsome => ?_) (Or.inr (Or.inl rfl))
      · rw [tspSupermatrixLookup, if_neg hrunning, hmatrix]
      · rw [hmatrix] at hsome
        cases hsome
  | some matrix =>
      constructor
      · intro hlooks
        refine Or.inr (Or.inr ?_)
        by_contra htabulated
        obtain ⟨-, -, hlength, -⟩ :=
          @tspSupermatrixLookup_of_matrix _ _ _ host distance hrunning hmatrix
        rw [hlooks.refused (Or.inr htabulated)] at hlength
        cases hlength
      · rintro (hzero | hnone | htabulated)
        · exact absurd hzero hrunning
        · cases hnone
        · exact looksUp_of_tabulated hrunning hmatrix htabulated

end Lookup

/-- A bus 100 away that needs phase 0, in the first step of phase 1: the fourth index is 255. -/
theorem phase_zero_read :
    let status := { TrafficSignalStatus.initial fun _ => .unset with
      planId := 1, subPhaseId := 1, stepId := 1 }
    let matrices : List TspRsuMatrix := [⟨1, fun _ _ _ => 0⟩]
    let host := TspHostObu.new ⟨['b', 'u', 's'], by decide⟩ 0
    (tspSupermatrixLookup status matrices host 100).entries = List.replicate 16 ⟨10, 0, 0, 255⟩ ∧
      ¬ LooksUp status matrices host 100 (tspSupermatrixLookup status matrices host 100) := by
  intro status matrices host
  have hentries : (tspSupermatrixLookup status matrices host 100).entries =
      List.replicate 16 ⟨10, 0, 0, 255⟩ := by decide
  refine ⟨hentries, fun hlooks => ?_⟩
  have hcontains := hlooks.entries ⟨10, 0, 0, 255⟩ (by rw [hentries]; exact List.mem_cons_self)
  exact absurd hcontains.inBounds.2.2.2 (by decide)

end AdaptiveSignal.Signal
