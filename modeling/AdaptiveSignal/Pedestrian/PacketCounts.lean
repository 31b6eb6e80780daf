import AdaptiveSignal.Pedestrian.Counting
import Mathlib.Tactic.Linarith

/-! # What a packet of a camera leaves behind

Every person of the packet who walks on the crossing should be in one cell of the two
rows of the camera, every person who waits in its waiting count, and nothing else
should change.
-/

namespace AdaptiveSignal.Pedestrian

open Network (Pedestrian)

/-! ## What should be counted -/

/-- Someone who does not wait and is between both ends of the crossing. -/
def Walks (road : Point × Point) (p : Pedestrian) : Prop :=
  p.waiting = 0 ∧ 0 < projectionRatio road p ∧ projectionRatio road p ≤ 1

instance (road : Point × Point) (p : Pedestrian) : Decidable (Walks road p) :=
  inferInstanceAs (Decidable (_ ∧ _ ∧ _))

/-- How far along the crossing, in columns. -/
def columnOf (road : Point × Point) (p : Pedestrian) : ℕ :=
  (⌈(cols : ℚ) * projectionRatio road p⌉ - 1).toNat

/-- The cell of someone who walks: the columns of the first direction are mirrored. -/
def cellOf (cameraNo : UInt32) (road : Point × Point) (p : Pedestrian) : ℕ × ℕ :=
  let row := 2 * (cameraNo.toNat - 3)
  if p.direction = 1 then (row, cols - 1 - columnOf road p) else (row + 1, columnOf road p)

/-- What a packet of a camera should leave behind. -/
structure PacketCounted (road : Point × Point) (now : ℤ) (cameraNo : UInt32)
    (tab : List Pedestrian) (before after : PlusArrays) : Prop where
  inBounds : ∀ access ∈ after.touched, access.2 < access.1.size
  ignored : ¬(3 ≤ cameraNo ∧ cameraNo ≤ 6) →
    after.matrixPlus = before.matrixPlus ∧ after.waitingAreaPlus = before.waitingAreaPlus ∧
      after.lastUpdateTimePlus = before.lastUpdateTimePlus
  counted : 3 ≤ cameraNo ∧ cameraNo ≤ 6 → ∀ row < rows, ∀ column < cols,
    after.matrixPlus row column =
      if row / 2 = cameraNo.toNat - 3 then
        tab.countP fun p => Walks road p ∧ cellOf cameraNo road p = (row, column)
      else before.matrixPlus row column
  waiting : 3 ≤ cameraNo ∧ cameraNo ≤ 6 → ∀ i,
    after.waitingAreaPlus i =
      if i = cameraNo.toNat - 3 then tab.countP fun p => p.waiting ≠ 0
      else before.waitingAreaPlus i
  updated : 3 ≤ cameraNo ∧ cameraNo ≤ 6 →
    after.lastUpdateTimePlus = Function.update before.lastUpdateTimePlus cameraNo.toNat now

/-! ## Where the code counts, against where it should -/

section Cells

variable {cameraNo : UInt32} (hcamera : 3 ≤ cameraNo ∧ cameraNo ≤ 6)
include hcamera

theorem cameraNo_cases : cameraNo = 3 ∨ cameraNo = 4 ∨ cameraNo = 5 ∨ cameraNo = 6 := by
  obtain ⟨hlow, hhigh⟩ := hcamera
  rw [UInt32.le_iff_toNat_le] at hlow hhigh
  simp only [← UInt32.toNat_inj]
  change 3 ≤ cameraNo.toNat at hlow
  change cameraNo.toNat ≤ 6 at hhigh
  change _ = 3 ∨ _ = 4 ∨ _ = 5 ∨ _ = 6
  omega

theorem toNat_sub_three : (cameraNo - 3).toNat = cameraNo.toNat - 3 := by
  rcases cameraNo_cases hcamera with rfl | rfl | rfl | rfl <;> rfl

theorem rowNoPlus_eq (direction : ℕ) :
    rowNoPlus cameraNo direction =
      2 * (cameraNo.toNat - 3 : ℕ) + if direction = 1 then 0 else 1 := by
  rw [rowNoPlus, if_pos hcamera]
  rcases cameraNo_cases hcamera with rfl | rfl | rfl | rfl <;> rfl

end Cells

variable {road : Point × Point} {p : Pedestrian}

theorem columnOf_lt (hwalks : Walks road p) : columnOf road p < cols := by
  obtain ⟨-, -, hle⟩ := hwalks
  have hceil : ⌈(cols : ℚ) * projectionRatio road p⌉ ≤ (11 : ℤ) := by
    rw [Int.ceil_le]
    push_cast [cols]
    linarith
  change (_ - 1 : ℤ).toNat < 11
  omega

theorem locationPlus_eq (hwalks : Walks road p) :
    locationPlus (projectionRatio road p) p.direction =
      if p.direction = 1 then cols - columnOf road p else columnOf road p := by
  have hlt := columnOf_lt hwalks
  rw [columnOf] at hlt
  simp only [locationPlus, columnOf]
  split <;> split <;> omega

theorem cellPlus_of_walks {cameraNo : UInt32} (hcamera : 3 ≤ cameraNo ∧ cameraNo ≤ 6)
    (hwalks : Walks road p) :
    cellPlus cameraNo road p =
      let row := 2 * (cameraNo.toNat - 3)
      if p.direction = 1 then
        if columnOf road p = 0 then none else some (row, cols - columnOf road p)
      else some (row + 1, columnOf road p) := by
  have hlt := columnOf_lt hwalks
  have hrow : cameraNo.toNat ≤ 6 := hcamera.2
  simp only [cellPlus, if_pos hwalks.2, rowNoPlus_eq hcamera, locationPlus_eq hwalks]
  by_cases hdirection : p.direction = 1
  · simp only [hdirection, if_true]
    split <;> split <;> grind
  · simp only [hdirection, if_false]
    split <;> grind

/-! ## The state before the loop -/

section Prepared

variable {cameraNo : UInt32} (s : PlusArrays)

theorem clearRows_waitingAreaPlus : (clearRows cameraNo s).waitingAreaPlus = s.waitingAreaPlus := by
  simp only [clearRows]
  split <;> rfl

theorem clearRows_lastUpdateTimePlus :
    (clearRows cameraNo s).lastUpdateTimePlus = s.lastUpdateTimePlus := by
  simp only [clearRows]
  split <;> rfl

theorem clearRows_eq (hcamera : 3 ≤ cameraNo ∧ cameraNo ≤ 6) :
    clearRows cameraNo s =
      (s.clearRow (2 * (cameraNo.toNat - 3))).clearRow (2 * (cameraNo.toNat - 3) + 1) := by
  rcases cameraNo_cases hcamera with rfl | rfl | rfl | rfl <;> rfl

theorem clearRows_matrixPlus (hcamera : 3 ≤ cameraNo ∧ cameraNo ≤ 6) (row column : ℕ) :
    (clearRows cameraNo s).matrixPlus row column =
      if row / 2 = cameraNo.toNat - 3 then 0 else s.matrixPlus row column := by
  rw [clearRows_eq s hcamera]
  generalize cameraNo.toNat - 3 = k
  simp only [PlusArrays.clearRow, PlusArrays.touch, Function.update_apply]
  split
  · rw [if_pos (by omega)]
  · split
    · rw [if_pos (by omega)]
    · rw [if_neg (by omega)]

end Prepared

section Packet

variable (memory : ℕ → Point) (now : ℤ) {cameraNo : UInt32} (tab : List Pedestrian)
  (s : PlusArrays)

theorem plusOnPedestrianPacketRx_matrixPlus (hcamera : 3 ≤ cameraNo ∧ cameraNo ≤ 6)
    (row column : ℕ) :
    (plusOnPedestrianPacketRx memory now cameraNo tab s).matrixPlus row column =
      (if row / 2 = cameraNo.toNat - 3 then 0 else s.matrixPlus row column) +
        tab.countP fun p =>
          p.waiting = 0 ∧ cellPlus cameraNo (roadPlus memory cameraNo) p = some (row, column) := by
  rw [plusOnPedestrianPacketRx, foldl_matrixPlus]
  congr 1
  exact clearRows_matrixPlus _ hcamera row column

theorem plusOnPedestrianPacketRx_waitingAreaPlus (hcamera : 3 ≤ cameraNo ∧ cameraNo ≤ 6)
    (i : ℕ) :
    (plusOnPedestrianPacketRx memory now cameraNo tab s).waitingAreaPlus i =
      if i = cameraNo.toNat - 3 then tab.countP fun p => p.waiting ≠ 0
      else s.waitingAreaPlus i := by
  rw [plusOnPedestrianPacketRx, foldl_waitingAreaPlus, toNat_sub_three hcamera]
  simp only [PlusArrays.touch, PlusArrays.setLastUpdate, PlusArrays.setWaiting,
    Function.update_apply, clearRows_waitingAreaPlus]
  split <;> simp [*]

theorem plusOnPedestrianPacketRx_lastUpdateTimePlus :
    (plusOnPedestrianPacketRx memory now cameraNo tab s).lastUpdateTimePlus =
      Function.update s.lastUpdateTimePlus cameraNo.toNat now := by
  rw [plusOnPedestrianPacketRx, foldl_lastUpdateTimePlus]
  simp only [PlusArrays.touch, PlusArrays.setLastUpdate, PlusArrays.setWaiting,
    clearRows_lastUpdateTimePlus]

theorem plusOnPedestrianPacketRx_touched (hcamera : 3 ≤ cameraNo ∧ cameraNo ≤ 6) :
    ∀ access ∈ (plusOnPedestrianPacketRx memory now cameraNo tab s).touched,
      access.2 < access.1.size := by
  intro access hmem
  have hthree := toNat_sub_three hcamera
  have hcases : cameraNo.toNat ≤ 6 := hcamera.2
  rcases mem_touched_foldl _ _ _ _ hmem with hmem | hin | rfl
  · rw [clearRows_eq _ hcamera] at hmem
    simp only [PlusArrays.touch, PlusArrays.setLastUpdate, PlusArrays.setWaiting,
      PlusArrays.clearRow, List.nil_append, List.cons_append, List.mem_cons, List.not_mem_nil,
      or_false] at hmem
    rcases hmem with rfl | rfl | rfl | rfl | rfl <;> simp only [PlusArray.size, rows] <;> omega
  · exact hin
  · simp only [PlusArray.size]
    omega

/-- The waiting area is used at a number that wraps. -/
theorem waitingAreaPlus_mem_touched :
    (.waitingAreaPlus, (cameraNo - 3).toNat) ∈
      (plusOnPedestrianPacketRx memory now cameraNo tab s).touched := by
  apply touched_subset_foldl
  simp [PlusArrays.touch, PlusArrays.setLastUpdate, PlusArrays.setWaiting]

theorem three_le_of_waitingAreaPlus (hsmall : (cameraNo - 3).toNat < 4) :
    3 ≤ cameraNo ∧ cameraNo ≤ 6 := by
  rw [UInt32.toNat_sub] at hsmall
  have hlt := cameraNo.toNat_lt
  simp only [UInt32.le_iff_toNat_le, UInt32.reduceToNat] at hsmall ⊢
  omega

/-- Someone is counted in a row of the camera, and only someone who walks. -/
theorem walks_of_cellPlus {road : Point × Point} {p : Pedestrian} {row column : ℕ}
    (hcamera : 3 ≤ cameraNo ∧ cameraNo ≤ 6)
    (hcounted : p.waiting = 0 ∧ cellPlus cameraNo road p = some (row, column)) :
    Walks road p ∧ row / 2 = cameraNo.toNat - 3 := by
  obtain ⟨hwaiting, hcell⟩ := hcounted
  have hwalks : Walks road p := by
    refine ⟨hwaiting, ?_⟩
    by_contra hout
    simp only [cellPlus, if_neg hout] at hcell
    cases hcell
  refine ⟨hwalks, ?_⟩
  rw [cellPlus_of_walks hcamera hwalks] at hcell
  dsimp only at hcell
  split at hcell
  · split at hcell
    · cases hcell
    · cases hcell
      omega
  · cases hcell
    omega

theorem counted_iff_of_direction {road : Point × Point} {p : Pedestrian} {row column : ℕ}
    (hcamera : 3 ≤ cameraNo ∧ cameraNo ≤ 6) (hdirection : Walks road p → p.direction ≠ 1) :
    (p.waiting = 0 ∧ cellPlus cameraNo road p = some (row, column)) ↔
      Walks road p ∧ cellOf cameraNo road p = (row, column) := by
  by_cases hwalks : Walks road p
  · rw [cellPlus_of_walks hcamera hwalks, cellOf, if_neg (hdirection hwalks)]
    simp only [hwalks, hwalks.1, if_neg (hdirection hwalks), true_and, Option.some.injEq]
  · exact iff_of_false (fun h => hwalks (walks_of_cellPlus hcamera h).1) fun h => hwalks h.1

/-- The people of the first direction, a column off and none in the first column. -/
theorem counted_iff_first {road : Point × Point} {p : Pedestrian} {column : ℕ}
    (hcamera : 3 ≤ cameraNo ∧ cameraNo ≤ 6) (hcolumn : column < cols) :
    (p.waiting = 0 ∧ cellPlus cameraNo road p = some (2 * (cameraNo.toNat - 3), column)) ↔
      Walks road p ∧ p.direction = 1 ∧ columnOf road p = cols - column ∧ column ≠ 0 := by
  by_cases hwalks : Walks road p
  · have hlt := columnOf_lt hwalks
    rw [cellPlus_of_walks hcamera hwalks]
    simp only [hwalks, hwalks.1, true_and]
    split
    · split <;> simp [*] <;> omega
    · simp [*]
  · exact iff_of_false (fun h => hwalks (walks_of_cellPlus hcamera h).1) fun h => hwalks h.1

theorem cellOf_first_iff {road : Point × Point} {p : Pedestrian} {column : ℕ}
    (hwalks : Walks road p) (hcolumn : column < cols) :
    cellOf cameraNo road p = (2 * (cameraNo.toNat - 3), column) ↔
      p.direction = 1 ∧ columnOf road p = cols - 1 - column := by
  have hlt : columnOf road p < 11 := columnOf_lt hwalks
  have hcolumn : column < 11 := hcolumn
  simp only [cellOf, cols]
  split
  · simp only [*, Prod.mk.injEq, true_and]
    omega
  · simp only [*, Prod.mk.injEq, false_and, iff_false]
    omega

theorem countP_decide_congr {α : Type} {tab : List α} {P Q : α → Prop} [DecidablePred P]
    [DecidablePred Q] (hiff : ∀ p ∈ tab, (P p ↔ Q p)) :
    (tab.countP fun p => P p) = tab.countP fun p => Q p :=
  List.countP_congr fun p hp => by rw [decide_eq_true_iff, decide_eq_true_iff, hiff p hp]

/-- By columns: nobody is counted in the first one, and a column too far to the next. -/
theorem countP_first_column {road : Point × Point} (hroad : roadPlus memory cameraNo = road)
    (h : PacketCounted road now cameraNo tab s (plusOnPedestrianPacketRx memory now cameraNo tab s))
    (hcamera : 3 ≤ cameraNo ∧ cameraNo ≤ 6) {column : ℕ} (hcolumn : column < cols) :
    (tab.countP fun p => Walks road p ∧ p.direction = 1 ∧
        columnOf road p = cols - column ∧ column ≠ 0) =
      tab.countP fun p => Walks road p ∧ p.direction = 1 ∧
        columnOf road p = cols - 1 - column := by
  have hle : cameraNo.toNat ≤ 6 := hcamera.2
  have hcell := h.counted hcamera (2 * (cameraNo.toNat - 3)) (by simp only [rows]; omega)
    column hcolumn
  rw [plusOnPedestrianPacketRx_matrixPlus memory now tab s hcamera, hroad,
    if_pos (by omega), if_pos (by omega), Nat.zero_add] at hcell
  rw [countP_decide_congr fun p _ => counted_iff_first hcamera hcolumn] at hcell
  rw [hcell]
  exact countP_decide_congr fun p _ =>
    and_congr_right fun hwalks => cellOf_first_iff hwalks hcolumn

theorem direction_ne_one {road : Point × Point} (hroad : roadPlus memory cameraNo = road)
    (h : PacketCounted road now cameraNo tab s (plusOnPedestrianPacketRx memory now cameraNo tab s))
    (hcamera : 3 ≤ cameraNo ∧ cameraNo ≤ 6) :
    ∀ p ∈ tab, Walks road p → p.direction ≠ 1 := by
  -- nobody is counted in a column, so nobody should be
  have hnone : ∀ k < cols,
      (∀ p ∈ tab, Walks road p → p.direction = 1 → columnOf road p = cols - k → k = 0) →
      ∀ p ∈ tab, Walks road p → p.direction = 1 → columnOf road p ≠ cols - 1 - k := by
    intro k hk hbefore p hp hwalks hdirection hcolumn
    have hzero := countP_first_column memory now tab s hroad h hcamera hk
    rw [List.countP_eq_zero.mpr fun p hp h => by
      obtain ⟨hwalks, hdirection, hcolumn, hne⟩ := of_decide_eq_true h
      exact hne (hbefore p hp hwalks hdirection hcolumn)] at hzero
    exact List.countP_eq_zero.mp hzero.symm p hp (decide_eq_true ⟨hwalks, hdirection, hcolumn⟩)
  have hempty : ∀ k < cols, ∀ p ∈ tab, Walks road p → p.direction = 1 →
      columnOf road p ≠ cols - 1 - k := by
    intro k hk
    induction k with
    | zero => exact hnone 0 hk fun _ _ _ _ _ => rfl
    | succ k ih =>
        refine hnone (k + 1) hk fun p hp hwalks hdirection hcolumn => ?_
        exact absurd (by omega) (ih (by omega) p hp hwalks hdirection)
  intro p hp hwalks hdirection
  have hlt := columnOf_lt hwalks
  exact hempty (cols - 1 - columnOf road p) (by omega) p hp hwalks hdirection (by omega)

/-- A packet is counted as it should be exactly when it is of one of the four cameras
and nobody walks in its first direction. -/
theorem packetCounted_iff (cameraNo : UInt32) :
    PacketCounted (roadPlus memory cameraNo) now cameraNo tab s
        (plusOnPedestrianPacketRx memory now cameraNo tab s) ↔
      (3 ≤ cameraNo ∧ cameraNo ≤ 6) ∧
        ∀ p ∈ tab, Walks (roadPlus memory cameraNo) p → p.direction ≠ 1 := by
  constructor
  · intro h
    have hcamera := three_le_of_waitingAreaPlus
      (h.inBounds _ (waitingAreaPlus_mem_touched memory now tab s))
    exact ⟨hcamera, direction_ne_one memory now tab s rfl h hcamera⟩
  · rintro ⟨hcamera, hdirection⟩
    refine ⟨plusOnPedestrianPacketRx_touched memory now tab s hcamera,
      fun hout => absurd hcamera hout, fun _ row hrow column hcolumn => ?_,
      fun _ => plusOnPedestrianPacketRx_waitingAreaPlus memory now tab s hcamera,
      fun _ => plusOnPedestrianPacketRx_lastUpdateTimePlus memory now tab s⟩
    rw [plusOnPedestrianPacketRx_matrixPlus memory now tab s hcamera]
    split
    · rw [Nat.zero_add]
      exact countP_decide_congr fun p hp => counted_iff_of_direction hcamera (hdirection p hp)
    · rename_i hother
      rw [List.countP_eq_zero.mpr, Nat.add_zero]
      intro p _ hcounted
      exact hother (walks_of_cellPlus hcamera (of_decide_eq_true hcounted)).2

end Packet

/-- Someone who has just stepped on the crossing of the first camera. -/
def newcomer : Pedestrian where
  personId := 1
  waiting := 0
  cx := 619
  cy := 232
  direction := 1

/-- The newcomer is counted nowhere, and a packet of a camera that there is not
clears a waiting area that there is not. -/
theorem newcomer_lost_and_out_of_bounds :
    ¬PacketCounted (roadPlus (fun _ => ⟨0, 0⟩) 3) 0 3 [newcomer] .zero
        (plusOnPedestrianPacketRx (fun _ => ⟨0, 0⟩) 0 3 [newcomer] .zero) ∧
      ¬PacketCounted (roadPlus (fun _ => ⟨0, 0⟩) 7) 0 7 [] .zero
        (plusOnPedestrianPacketRx (fun _ => ⟨0, 0⟩) 0 7 [] .zero) := by
  constructor
  · intro h
    refine direction_ne_one _ _ _ _ rfl h (by decide) newcomer (List.mem_singleton_self _) ?_ rfl
    decide +kernel
  · intro h
    exact absurd (h.inBounds (.waitingAreaPlus, 4) (by decide)) (by decide)

end AdaptiveSignal.Pedestrian
