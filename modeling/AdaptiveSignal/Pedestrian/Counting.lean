import AdaptiveSignal.Network.InboundParsers
import AdaptiveSignal.Pedestrian.VipsPlus

/-! # Counting the pedestrians of a packet

A packet of a camera replaces what the two rows of that camera hold, one row for
each direction of its crossing, and the number of people who wait there. Positions
are projected on the crossing in exact rationals.
-/

namespace AdaptiveSignal.Pedestrian

open Network (Pedestrian)

structure Point where
  x : ℚ
  y : ℚ

/-- Where the crossings of the cameras start, by camera number. -/
def pStartPlus : List Point :=
  [⟨0, 0⟩, ⟨0, 0⟩, ⟨0, 0⟩, ⟨620, 232.5⟩, ⟨605, 321.5⟩, ⟨623, 355⟩, ⟨605, 435⟩]

def pEndPlus : List Point :=
  [⟨0, 0⟩, ⟨0, 0⟩, ⟨0, 0⟩, ⟨330, 135⟩, ⟨260, 190⟩, ⟨250, 127.5⟩, ⟨235, 66⟩]

def calculateProjectionOnRoadPlus (p start finish : Point) : ℚ :=
  let lengthSquared :=
    (finish.x - start.x) * (finish.x - start.x) + (finish.y - start.y) * (finish.y - start.y)
  ((p.x - start.x) * (finish.x - start.x) + (p.y - start.y) * (finish.y - start.y)) / lengthSquared

/-- The arrays that the packets of the cameras are counted in, with their sizes. -/
inductive PlusArray
  | matrixPlus
  | waitingAreaPlus
  | lastUpdateTimePlus
  | roadPlus
  deriving DecidableEq

def PlusArray.size : PlusArray → ℕ
  | matrixPlus => rows
  | waitingAreaPlus => 4
  | lastUpdateTimePlus => 7
  | roadPlus => 7

/-- The arrays, with what an index beyond their end stands for, and the indices that the
last packet used. -/
structure PlusArrays where
  matrixPlus : ℕ → ℕ → ℕ
  waitingAreaPlus : ℕ → ℕ
  lastUpdateTimePlus : ℕ → ℤ
  touched : List (PlusArray × ℕ)

namespace PlusArrays

/-- The arrays at the start of the program. -/
def zero : PlusArrays := ⟨fun _ _ => 0, fun _ => 0, fun _ => 0, []⟩

variable (s : PlusArrays)

def touch (array : PlusArray) (i : ℕ) : PlusArrays :=
  { s with touched := s.touched ++ [(array, i)] }

def clearRow (row : ℕ) : PlusArrays :=
  { s.touch .matrixPlus row with matrixPlus := Function.update s.matrixPlus row fun _ => 0 }

def addToCell (row column : ℕ) : PlusArrays :=
  { s.touch .matrixPlus row with
    matrixPlus := Function.update s.matrixPlus row
      (Function.update (s.matrixPlus row) column (s.matrixPlus row column + 1)) }

def setWaiting (i count : ℕ) : PlusArrays :=
  { s.touch .waitingAreaPlus i with
    waitingAreaPlus := Function.update s.waitingAreaPlus i count }

def setLastUpdate (i : ℕ) (now : ℤ) : PlusArrays :=
  { s.touch .lastUpdateTimePlus i with
    lastUpdateTimePlus := Function.update s.lastUpdateTimePlus i now }

end PlusArrays

/-- Both ends of the crossing of a camera; memory behind the tables is any. -/
def roadPlus (memory : ℕ → Point) (cameraNo : UInt32) : Point × Point :=
  (pStartPlus.getD cameraNo.toNat (memory cameraNo.toNat),
    pEndPlus.getD cameraNo.toNat (memory cameraNo.toNat))

def projectionRatio (road : Point × Point) (p : Pedestrian) : ℚ :=
  calculateProjectionOnRoadPlus ⟨p.cx, p.cy⟩ road.1 road.2

/-- The column of a ratio, mirrored for the first direction. -/
def locationPlus (ratio : ℚ) (direction : ℕ) : ℕ :=
  let location := (⌈(cols : ℚ) * ratio⌉ - 1).toNat
  if direction = 1 ∧ 0 < (cols : ℤ) - location then cols - location else location

def rowNoPlus (cameraNo : UInt32) (direction : ℕ) : ℤ :=
  if 3 ≤ cameraNo ∧ cameraNo ≤ 6 then
    ((cameraNo - 3) * 2).toNat + if direction = 1 then 0 else 1
  else -1

/-- The cell that someone who does not wait is counted in. -/
def cellPlus (cameraNo : UInt32) (road : Point × Point) (p : Pedestrian) : Option (ℕ × ℕ) :=
  let ratio := projectionRatio road p
  if 0 < ratio ∧ ratio ≤ 1 then
    let location := locationPlus ratio p.direction
    let rowNo := rowNoPlus cameraNo p.direction
    if 0 ≤ rowNo ∧ rowNo < rows ∧ location < cols then some (rowNo.toNat, location) else none
  else none

/-- One pass of the loop over the pedestrians. -/
def countPedestrian (cameraNo : UInt32) (road : Point × Point) (s : PlusArrays) (p : Pedestrian) :
    PlusArrays :=
  if p.waiting = 0 then
    match cellPlus cameraNo road p with
    | some (row, column) => s.addToCell row column
    | none => s
  else
    let i := (cameraNo - 3).toNat
    s.setWaiting i (s.waitingAreaPlus i + 1)

/-- The rows of the camera are cleared if their number is one of the matrix. -/
def clearRows (cameraNo : UInt32) (s : PlusArrays) : PlusArrays :=
  let rowToZero := ((cameraNo - 3) * 2).toInt32
  if 0 ≤ rowToZero ∧ rowToZero < 8 then
    let row := rowToZero.toInt.toNat
    (s.clearRow row).clearRow (row + 1)
  else s

/-- `PEDESTRIAN_plus_on_pedestrian_packet_rx`, at a time `now`. -/
def plusOnPedestrianPacketRx (memory : ℕ → Point) (now : ℤ) (cameraNo : UInt32)
    (tab : List Pedestrian) (s : PlusArrays) : PlusArrays :=
  let s := clearRows cameraNo { s with touched := [] }
  let s := s.setWaiting (cameraNo - 3).toNat 0
  let s := s.setLastUpdate cameraNo.toNat now
  let s := s.touch .roadPlus cameraNo.toNat
  tab.foldl (countPedestrian cameraNo (roadPlus memory cameraNo)) s

/-! ## What one pass of the loop and the whole loop do -/

section Loop

variable (cameraNo : UInt32) (road : Point × Point) (s : PlusArrays)

theorem countPedestrian_matrixPlus (p : Pedestrian) (row column : ℕ) :
    (countPedestrian cameraNo road s p).matrixPlus row column =
      s.matrixPlus row column +
        if p.waiting = 0 ∧ cellPlus cameraNo road p = some (row, column) then 1 else 0 := by
  unfold countPedestrian
  by_cases hwaiting : p.waiting = 0
  · rw [if_pos hwaiting]
    rcases hcell : cellPlus cameraNo road p with - | ⟨row', column'⟩
    · simp
    · simp only [PlusArrays.addToCell, Function.update_apply, hwaiting, true_and,
        Option.some.injEq, Prod.mk.injEq]
      grind
  · simp [hwaiting, PlusArrays.setWaiting, PlusArrays.touch]

theorem countPedestrian_waitingAreaPlus (p : Pedestrian) (i : ℕ) :
    (countPedestrian cameraNo road s p).waitingAreaPlus i =
      s.waitingAreaPlus i + if p.waiting ≠ 0 ∧ i = (cameraNo - 3).toNat then 1 else 0 := by
  unfold countPedestrian
  by_cases hwaiting : p.waiting = 0
  · rw [if_pos hwaiting]
    rcases cellPlus cameraNo road p with - | ⟨row, column⟩ <;>
      simp [hwaiting, PlusArrays.addToCell, PlusArrays.touch]
  · simp only [hwaiting, if_false, PlusArrays.setWaiting, Function.update_apply, ne_eq,
      not_false_eq_true, true_and]
    split <;> simp [*]

theorem countPedestrian_lastUpdateTimePlus (p : Pedestrian) :
    (countPedestrian cameraNo road s p).lastUpdateTimePlus = s.lastUpdateTimePlus := by
  unfold countPedestrian
  split
  · rcases cellPlus cameraNo road p with - | ⟨row, column⟩ <;> rfl
  · rfl

/-- A cell that is counted in is one of the matrix. -/
theorem cellPlus_lt {p : Pedestrian} {row column : ℕ}
    (hcell : cellPlus cameraNo road p = some (row, column)) : row < rows ∧ column < cols := by
  simp only [cellPlus] at hcell
  split at hcell
  · split at hcell
    · rename_i hin
      obtain ⟨rfl, rfl⟩ := Prod.mk.inj (Option.some.inj hcell)
      exact ⟨by omega, hin.2.2⟩
    · cases hcell
  · cases hcell

/-- A pass of the loop uses a row of the matrix or the waiting area of the camera. -/
theorem mem_touched_countPedestrian {p : Pedestrian} {access : PlusArray × ℕ} :
    access ∈ (countPedestrian cameraNo road s p).touched →
      access ∈ s.touched ∨ access.2 < access.1.size ∨
        access = (.waitingAreaPlus, (cameraNo - 3).toNat) := by
  unfold countPedestrian
  split
  · rcases hcell : cellPlus cameraNo road p with - | ⟨row, column⟩
    · exact Or.inl
    · intro hmem
      rcases List.mem_append.mp hmem with hmem | hmem
      · exact .inl hmem
      · rw [List.mem_singleton.mp hmem]
        exact .inr (.inl (cellPlus_lt cameraNo road hcell).1)
  · intro hmem
    rcases List.mem_append.mp hmem with hmem | hmem
    · exact .inl hmem
    · exact .inr (.inr (List.mem_singleton.mp hmem))

theorem touched_subset_countPedestrian (p : Pedestrian) :
    s.touched ⊆ (countPedestrian cameraNo road s p).touched := by
  unfold countPedestrian
  split
  · rcases cellPlus cameraNo road p with - | ⟨row, column⟩
    · exact List.Subset.refl _
    · exact List.subset_append_left _ _
  · exact List.subset_append_left _ _

variable (tab : List Pedestrian)

theorem foldl_matrixPlus (row column : ℕ) :
    (tab.foldl (countPedestrian cameraNo road) s).matrixPlus row column =
      s.matrixPlus row column + tab.countP fun p =>
        p.waiting = 0 ∧ cellPlus cameraNo road p = some (row, column) := by
  induction tab generalizing s with
  | nil => rfl
  | cons p tab ih =>
      rw [List.foldl_cons, ih, countPedestrian_matrixPlus, List.countP_cons]
      simp only [decide_eq_true_eq]
      omega

theorem foldl_waitingAreaPlus (i : ℕ) :
    (tab.foldl (countPedestrian cameraNo road) s).waitingAreaPlus i =
      s.waitingAreaPlus i + tab.countP fun p => p.waiting ≠ 0 ∧ i = (cameraNo - 3).toNat := by
  induction tab generalizing s with
  | nil => rfl
  | cons p tab ih =>
      rw [List.foldl_cons, ih, countPedestrian_waitingAreaPlus, List.countP_cons]
      simp only [decide_eq_true_eq]
      omega

theorem foldl_lastUpdateTimePlus :
    (tab.foldl (countPedestrian cameraNo road) s).lastUpdateTimePlus = s.lastUpdateTimePlus := by
  induction tab generalizing s with
  | nil => rfl
  | cons p tab ih => rw [List.foldl_cons, ih, countPedestrian_lastUpdateTimePlus]

theorem mem_touched_foldl {access : PlusArray × ℕ}
    (hmem : access ∈ (tab.foldl (countPedestrian cameraNo road) s).touched) :
    access ∈ s.touched ∨ access.2 < access.1.size ∨
      access = (.waitingAreaPlus, (cameraNo - 3).toNat) := by
  induction tab generalizing s with
  | nil => exact .inl hmem
  | cons p tab ih =>
      rcases ih _ hmem with hmem | hin
      · exact mem_touched_countPedestrian cameraNo road s hmem
      · exact .inr hin

theorem touched_subset_foldl :
    s.touched ⊆ (tab.foldl (countPedestrian cameraNo road) s).touched := by
  induction tab generalizing s with
  | nil => exact List.Subset.refl _
  | cons p tab ih =>
      exact fun _ hmem => ih _ (touched_subset_countPedestrian cameraNo road s p hmem)

end Loop

end AdaptiveSignal.Pedestrian
