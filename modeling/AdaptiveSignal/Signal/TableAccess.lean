import AdaptiveSignal.Signal.PlanPackets
import Mathlib.Tactic.IntervalCases

/-! # Positions in the tables of the status

The handlers of status packets index INFO, the plans, the signal groups and the
segments of the day by counts that come from the packet. Each handler is given
the list of the accesses it makes; whether they stay within the tables depends
on the counts alone.
-/

namespace AdaptiveSignal.Signal

def phaseCountMaxNum : ℕ := 8
def signalCountMaxNum : ℕ := 8
def planIdMaxNum : ℕ := 48
def infoMaxLen : ℕ := 118
def stepArrLen : ℕ := 4

/-- An access to a table, at the array index of the source. -/
inductive TableAccess
  | info (i : ℕ)
  | plan (i : ℤ)
  | stepArr (i : ℤ)
  | phaseorderPlan (i j : ℕ)
  | alldayPlan (i : ℕ)
  | commandBuf (i : ℤ)
  deriving DecidableEq

namespace TableAccess

def InBounds : TableAccess → Prop
  | info i => i < infoMaxLen
  | plan i => 0 ≤ i ∧ i < phaseCountMaxNum
  | stepArr i => 0 ≤ i ∧ i < stepArrLen
  | phaseorderPlan i j => i < phaseCountMaxNum ∧ j < signalCountMaxNum
  | alldayPlan i => i < planIdMaxNum
  | commandBuf i => 0 ≤ i ∧ i < subPhaseIdNum

instance : (access : TableAccess) → Decidable access.InBounds
  | info _ | alldayPlan _ => inferInstanceAs (Decidable (_ < _))
  | plan _ | stepArr _ | phaseorderPlan _ _ | commandBuf _ => inferInstanceAs (Decidable (_ ∧ _))

/-- Both bytes of a word of INFO. -/
def word (i : ℕ) : List TableAccess := [info i, info (i + 1)]

end TableAccess

open TableAccess

/-- All accesses stay within their tables. -/
def StaysInTables (accesses : List TableAccess) : Prop :=
  ∀ access ∈ accesses, access.InBounds

instance (accesses : List TableAccess) : Decidable (StaysInTables accesses) :=
  inferInstanceAs (Decidable (∀ _ ∈ _, _))

/-! ## The accesses of the handlers -/

/-- The greens of 5FC8 and 5FC5, and the cycle time and offset behind them. -/
def greenAccesses (count : ℕ) : List TableAccess :=
  (List.range count).flatMap (fun i : ℕ => plan i :: word (6 + i * 2)) ++
    word (6 + count * 2) ++ word (8 + count * 2)

def accesses5FCC : List TableAccess := [info 2, info 3, info 4] ++ word 5

def accesses5FC8 (packet : TrafficSignalPacket) : List TableAccess :=
  let count := (packet.info 5).toNat
  [info 2, info 4, info 5] ++ greenAccesses count ++ (List.range count).map fun i : ℕ => plan i

def accesses5FC5 (packet : TrafficSignalPacket) : List TableAccess :=
  [info 4, info 5] ++ greenAccesses (packet.info 5).toNat

def accesses5FC4 (packet : TrafficSignalPacket) : List TableAccess :=
  info 3 :: (List.range (packet.info 3).toNat).flatMap fun i : ℕ =>
    plan i :: (List.range 7).map fun field => info (4 + field + i * 7)

def accesses5FC3 (status : TrafficSignalStatus) (packet : TrafficSignalPacket) :
    List TableAccess :=
  let signalCount := (packet.info 4).toNat
  [info 2, info 3, info 4] ++ (List.range status.subPhaseCount.toNat).flatMap fun i =>
    (List.range signalCount).flatMap fun j =>
      [phaseorderPlan i j, info (6 + i * signalCount + j)]

def accesses5FC6 (packet : TrafficSignalPacket) : List TableAccess :=
  [info 2, info 3] ++ (List.range (packet.info 3).toNat).flatMap fun i =>
    [alldayPlan i, info (4 + 3 * i), info (5 + 3 * i), info (6 + 3 * i)]

def accesses5F0C : List TableAccess := [info 2, info 3, info 4]

/-- The accesses of a packet, its two bytes for the dispatch included. -/
def packetAccesses (status : TrafficSignalStatus) (packet : TrafficSignalPacket) :
    List TableAccess :=
  [info 0, info 1] ++
    match packet.kind with
    | .phaseReport => accesses5FCC
    | .runningPlan => accesses5FC8 packet
    | .storedPlan => accesses5FC5 packet
    | .planParameters => accesses5FC4 packet
    | .daySegments => accesses5FC6 packet
    | .confirmation => accesses5F0C
    | .phaseOrder => accesses5FC3 status packet
    | .version => [info 2]
    | .other => []

/-- The counts of a packet fit the tables. The signal groups are stored for as many
phases as the status has, and a packet has room for 38 segments. -/
def CountsFit (status : TrafficSignalStatus) (packet : TrafficSignalPacket) : Prop :=
  match packet.kind with
  | .runningPlan | .storedPlan => (packet.info 5).toNat ≤ 8
  | .planParameters => (packet.info 3).toNat ≤ 8
  | .daySegments => (packet.info 3).toNat ≤ 38
  | .phaseOrder =>
      (packet.info 4).toNat = 0 ∨ status.subPhaseCount.toNat = 0 ∨
        (packet.info 4).toNat ≤ 8 ∧ status.subPhaseCount.toNat ≤ 8
  | _ => True

/-! ## When they stay in the tables -/

section StaysInTables

variable {first second : List TableAccess} {access : TableAccess}

@[simp] theorem staysInTables_nil : StaysInTables [] := by
  simp [StaysInTables]

@[simp] theorem staysInTables_append :
    StaysInTables (first ++ second) ↔ StaysInTables first ∧ StaysInTables second :=
  List.forall_mem_append

@[simp] theorem staysInTables_cons :
    StaysInTables (access :: second) ↔ access.InBounds ∧ StaysInTables second :=
  List.forall_mem_cons

@[simp] theorem staysInTables_map {Index : Type*} {indices : List Index}
    {at' : Index → TableAccess} :
    StaysInTables (indices.map at') ↔ ∀ i ∈ indices, (at' i).InBounds :=
  List.forall_mem_map

@[simp] theorem staysInTables_flatMap {Index : Type*} {indices : List Index}
    {accesses : Index → List TableAccess} :
    StaysInTables (indices.flatMap accesses) ↔
      ∀ i ∈ indices, StaysInTables (accesses i) := by
  simp only [StaysInTables, List.mem_flatMap]
  exact ⟨fun h i hi access haccess => h access ⟨i, hi, haccess⟩,
    fun h access ⟨i, hi, haccess⟩ => h i hi access haccess⟩

/-- A loop over the phases that indexes the plans. -/
theorem range_le_of_plan {count : ℕ}
    (h : ∀ i ∈ List.range count, (plan (i : ℕ)).InBounds) : count ≤ 8 := by
  by_contra hcount
  have hplan := h 8 (List.mem_range.mpr (by omega))
  exact absurd hplan (by decide)

end StaysInTables

theorem greenAccesses_stay {count : ℕ} : StaysInTables (greenAccesses count) ↔ count ≤ 8 := by
  simp only [greenAccesses, TableAccess.word, staysInTables_append, staysInTables_flatMap,
    staysInTables_cons, staysInTables_nil, and_true]
  constructor
  · rintro ⟨⟨hloop, -⟩, -⟩
    exact range_le_of_plan fun i hi => (hloop i hi).1
  · intro hcount
    refine ⟨⟨fun i hi => ?_, ?_⟩, ?_⟩ <;>
      simp only [InBounds, infoMaxLen, phaseCountMaxNum, List.mem_range] at * <;> omega

theorem accesses5FC8_stay {packet : TrafficSignalPacket} :
    StaysInTables (accesses5FC8 packet) ↔ (packet.info 5).toNat ≤ 8 := by
  simp only [accesses5FC8, staysInTables_append, greenAccesses_stay, staysInTables_map]
  constructor
  · exact fun h => h.1.2
  · intro hcount
    refine ⟨⟨by decide, hcount⟩, fun i hi => ?_⟩
    simp only [InBounds, phaseCountMaxNum, List.mem_range] at *
    omega

theorem accesses5FC5_stay {packet : TrafficSignalPacket} :
    StaysInTables (accesses5FC5 packet) ↔ (packet.info 5).toNat ≤ 8 := by
  rw [accesses5FC5, staysInTables_append, greenAccesses_stay]
  exact and_iff_right (by decide)

theorem accesses5FC4_stay {packet : TrafficSignalPacket} :
    StaysInTables (accesses5FC4 packet) ↔ (packet.info 3).toNat ≤ 8 := by
  simp only [accesses5FC4, staysInTables_cons, staysInTables_flatMap, staysInTables_map]
  constructor
  · rintro ⟨-, hloop⟩
    exact range_le_of_plan fun i hi => (hloop i hi).1
  · intro hcount
    refine ⟨by decide, fun i hi => ⟨?_, fun field hfield => ?_⟩⟩ <;>
      simp only [InBounds, infoMaxLen, phaseCountMaxNum, List.mem_range] at * <;> omega

theorem accesses5FC6_stay {packet : TrafficSignalPacket} :
    StaysInTables (accesses5FC6 packet) ↔ (packet.info 3).toNat ≤ 38 := by
  simp only [accesses5FC6, staysInTables_append, staysInTables_flatMap, staysInTables_cons,
    staysInTables_nil, and_true]
  constructor
  · rintro ⟨-, hloop⟩
    by_contra hcount
    have hlast := (hloop 38 (List.mem_range.mpr (by omega))).2.2.2
    exact absurd hlast (by decide)
  · intro hcount
    refine ⟨by decide, fun i hi => ?_⟩
    simp only [InBounds, infoMaxLen, planIdMaxNum, List.mem_range] at *
    omega

theorem accesses5FC3_stay {status : TrafficSignalStatus} {packet : TrafficSignalPacket} :
    StaysInTables (accesses5FC3 status packet) ↔
      (packet.info 4).toNat = 0 ∨ status.subPhaseCount.toNat = 0 ∨
        (packet.info 4).toNat ≤ 8 ∧ status.subPhaseCount.toNat ≤ 8 := by
  simp only [accesses5FC3, staysInTables_append, staysInTables_flatMap, staysInTables_cons,
    staysInTables_nil, and_true]
  generalize (packet.info 4).toNat = signalCount
  generalize status.subPhaseCount.toNat = subPhaseCount
  constructor
  · rintro ⟨-, hloop⟩
    rcases Nat.eq_zero_or_pos signalCount with hsignals | hsignals
    · exact Or.inl hsignals
    rcases Nat.eq_zero_or_pos subPhaseCount with hphases | hphases
    · exact Or.inr (Or.inl hphases)
    -- the last cell of the loops is in the table
    have hlast := (hloop (subPhaseCount - 1) (List.mem_range.mpr (by omega))
      (signalCount - 1) (List.mem_range.mpr (by omega))).1
    simp only [InBounds, phaseCountMaxNum, signalCountMaxNum] at hlast
    omega
  · intro hfit
    refine ⟨by decide, fun i hi j hj => ?_⟩
    rw [List.mem_range] at hi hj
    have hsignals : signalCount ≤ 8 := by omega
    have hcell : i * signalCount ≤ 7 * 8 := Nat.mul_le_mul (by omega) hsignals
    simp only [InBounds, infoMaxLen, phaseCountMaxNum, signalCountMaxNum]
    omega

theorem packetAccesses_stay {status : TrafficSignalStatus} {packet : TrafficSignalPacket} :
    StaysInTables (packetAccesses status packet) ↔ CountsFit status packet := by
  have hheader : StaysInTables [info 0, info 1] := by decide
  rw [packetAccesses, staysInTables_append, and_iff_right hheader, CountsFit]
  cases packet.kind with
  | phaseReport => exact iff_of_true (by decide : StaysInTables accesses5FCC) trivial
  | confirmation => exact iff_of_true (by decide : StaysInTables accesses5F0C) trivial
  | version => exact iff_of_true (by decide : StaysInTables [info 2]) trivial
  | other => exact iff_of_true staysInTables_nil trivial
  | runningPlan => exact accesses5FC8_stay
  | storedPlan => exact accesses5FC5_stay
  | planParameters => exact accesses5FC4_stay
  | daySegments => exact accesses5FC6_stay
  | phaseOrder => exact accesses5FC3_stay

end AdaptiveSignal.Signal
