import AdaptiveSignal.Foundation.Run
import AdaptiveSignal.Pedestrian.PacketCounts
import AdaptiveSignal.Pedestrian.StageOrder

/-! # Cameras that go silent

Packets and ticks share the arrays. A packet replaces the counts of its camera,
the first tick clears everything, and every tick clears the counts of a camera
whose last packet is six seconds old.
-/

namespace AdaptiveSignal.Pedestrian

open Foundation
open Network (Pedestrian)

/-- The block of the first tick. -/
def clearArrays (s : PlusArrays) : PlusArrays :=
  { s with matrixPlus := fun _ _ => 0, waitingAreaPlus := fun _ => 0 }

/-- One pass of the loop that looks for silent cameras. -/
def silenceCamera (now : ℤ) (s : PlusArrays) (cameraNo : ℕ) : PlusArrays :=
  if 6 ≤ now - s.lastUpdateTimePlus cameraNo then
    let row := (cameraNo - 3) * 2
    ((s.clearRow row).clearRow (row + 1)).setWaiting (cameraNo - 3) 0
  else s

def silenceCameras (now : ℤ) (s : PlusArrays) : PlusArrays :=
  [3, 4, 5, 6].foldl (silenceCamera now) s

/-- What a tick does to the arrays before the algorithm reads them. -/
def tickArrays (timeFlagPlus : Bool) (now : ℤ) (s : PlusArrays) : PlusArrays :=
  silenceCameras now (if !timeFlagPlus then clearArrays s else s)

/-- The arrays and the timer handler that reads them. -/
structure Crossing where
  arrays : PlusArrays
  timer : TimerPlus

inductive CrossingEvent
  | packet (now : ℤ) (cameraNo : UInt32) (tab : List Pedestrian)
  | tick (now : ℤ) (subPhaseId stepId : UInt8)

namespace Crossing

def boot : Crossing := ⟨.zero, TimerPlus.boot⟩

def tickInput (s : Crossing) (now : ℤ) (subPhaseId stepId : UInt8) : TickInput where
  subPhaseId := subPhaseId
  stepId := stepId
  matrixPlus := fun i j => s.arrays.matrixPlus i j
  expired := fun k => 6 ≤ now - s.arrays.lastUpdateTimePlus (k + 3)

variable (memory : ℕ → Point)

def step (s : Crossing) : CrossingEvent → Crossing
  | .packet now cameraNo tab =>
      { s with arrays := plusOnPedestrianPacketRx memory now cameraNo tab s.arrays }
  | .tick now subPhaseId stepId =>
      { arrays := tickArrays s.timer.timeFlagPlus now s.arrays
        timer := s.timer.tick (s.tickInput now subPhaseId stepId) }

end Crossing

/-! ## What is kept of one camera -/

/-- The counts of a camera, by direction and column, and the people who wait. -/
@[ext] structure CameraCounts where
  cells : Bool → ℕ → ℕ
  waiting : ℕ

def CameraCounts.zero : CameraCounts := ⟨fun _ _ => 0, 0⟩

/-- The two rows and the waiting area of camera `k + 3`. -/
def PlusArrays.counts (s : PlusArrays) (k : ℕ) : CameraCounts where
  cells second column := s.matrixPlus (2 * k + second.toNat) column
  waiting := s.waitingAreaPlus k

/-- What a packet of a camera says of it. -/
def packetCounts (memory : ℕ → Point) (cameraNo : UInt32) (tab : List Pedestrian) :
    CameraCounts where
  cells second column := tab.countP fun p => p.waiting = 0 ∧
    cellPlus cameraNo (roadPlus memory cameraNo) p =
      some (2 * (cameraNo.toNat - 3) + second.toNat, column)
  waiting := tab.countP fun p => p.waiting ≠ 0

section Silence

variable (now : ℤ) (s : PlusArrays)

theorem silenceCamera_lastUpdateTimePlus (cameraNo : ℕ) :
    (silenceCamera now s cameraNo).lastUpdateTimePlus = s.lastUpdateTimePlus := by
  unfold silenceCamera
  split_ifs <;> rfl

theorem cleared_counts (j k : ℕ) :
    (((s.clearRow (2 * j)).clearRow (2 * j + 1)).setWaiting j 0).counts k =
      if k = j then .zero else s.counts k := by
  split_ifs with heq
  · subst heq
    ext second column
    · cases second <;>
        simp [PlusArrays.counts, PlusArrays.clearRow, PlusArrays.setWaiting, PlusArrays.touch,
          CameraCounts.zero, Function.update_apply]
    · simp [PlusArrays.counts, PlusArrays.setWaiting, CameraCounts.zero]
  · ext second column
    · have hrow : 2 * k + second.toNat ≠ 2 * j ∧ 2 * k + second.toNat ≠ 2 * j + 1 := by
        have hsecond := Bool.toNat_le second
        omega
      simp [PlusArrays.counts, PlusArrays.clearRow, PlusArrays.setWaiting, PlusArrays.touch,
        Function.update_apply, hrow]
    · simp [PlusArrays.counts, PlusArrays.clearRow, PlusArrays.setWaiting, PlusArrays.touch,
        Function.update_apply, heq]

theorem silenceCamera_counts (j k : ℕ) :
    (silenceCamera now s (j + 3)).counts k =
      if k = j ∧ 6 ≤ now - s.lastUpdateTimePlus (j + 3) then .zero else s.counts k := by
  unfold silenceCamera
  rw [Nat.add_sub_cancel, Nat.mul_comm j 2]
  by_cases hsilent : 6 ≤ now - s.lastUpdateTimePlus (j + 3)
  · rw [if_pos hsilent, cleared_counts]
    simp only [hsilent, and_true]
  · rw [if_neg hsilent, if_neg fun h => hsilent h.2]

theorem foldl_silenceCamera (js : List ℕ) (k : ℕ) :
    (js.foldl (fun s j => silenceCamera now s (j + 3)) s).lastUpdateTimePlus =
        s.lastUpdateTimePlus ∧
      (js.foldl (fun s j => silenceCamera now s (j + 3)) s).counts k =
        if k ∈ js ∧ 6 ≤ now - s.lastUpdateTimePlus (k + 3) then .zero else s.counts k := by
  induction js generalizing s with
  | nil => simp
  | cons j js ih =>
      obtain ⟨htime, hcounts⟩ := ih (silenceCamera now s (j + 3))
      rw [silenceCamera_lastUpdateTimePlus] at htime hcounts
      refine ⟨htime, ?_⟩
      rw [List.foldl_cons, hcounts, silenceCamera_counts]
      grind

end Silence

section Tick

variable (timeFlagPlus : Bool) (now : ℤ) (s : PlusArrays)

theorem tickArrays_lastUpdateTimePlus :
    (tickArrays timeFlagPlus now s).lastUpdateTimePlus = s.lastUpdateTimePlus := by
  rw [tickArrays]
  refine (foldl_silenceCamera now _ (List.range 4) 0).1.trans ?_
  cases timeFlagPlus <;> rfl

/-- A tick clears the counts of every camera if it is the first one, and else
those of the cameras that are silent. -/
theorem tickArrays_counts {k : ℕ} (hk : k < 4) :
    (tickArrays timeFlagPlus now s).counts k =
      if timeFlagPlus = false ∨ 6 ≤ now - s.lastUpdateTimePlus (k + 3) then .zero
      else s.counts k := by
  rw [tickArrays]
  refine (foldl_silenceCamera now _ (List.range 4) k).2.trans ?_
  simp only [List.mem_range, hk, true_and]
  cases timeFlagPlus with
  | false =>
      have hzero : (clearArrays s).counts k = .zero := rfl
      simp [hzero]
  | true => simp

end Tick

/-- A packet replaces the counts of its camera and of no other. -/
theorem packet_counts (memory : ℕ → Point) (now : ℤ) {cameraNo : UInt32} (tab : List Pedestrian)
    (s : PlusArrays) (hcamera : 3 ≤ cameraNo ∧ cameraNo ≤ 6) (k : ℕ) :
    (plusOnPedestrianPacketRx memory now cameraNo tab s).counts k =
      if k = cameraNo.toNat - 3 then packetCounts memory cameraNo tab else s.counts k := by
  ext second column
  · have hhalf : (2 * k + second.toNat) / 2 = k := by
      have hsecond := Bool.toNat_le second
      omega
    simp only [PlusArrays.counts, plusOnPedestrianPacketRx_matrixPlus memory now tab s hcamera,
      hhalf]
    split_ifs with heq
    · subst heq
      rw [Nat.zero_add]
      rfl
    · rw [List.countP_eq_zero.mpr, Nat.add_zero]
      intro p _ hcounted
      have hrow := (walks_of_cellPlus hcamera (of_decide_eq_true hcounted)).2
      exact heq (hhalf ▸ hrow)
  · simp only [PlusArrays.counts, plusOnPedestrianPacketRx_waitingAreaPlus memory now tab s hcamera]
    split_ifs <;> rfl

/-! ## Runs -/

namespace CrossingEvent

def camera : CrossingEvent → Option UInt32
  | .packet _ cameraNo _ => some cameraNo
  | .tick _ _ _ => none

def tickTime : CrossingEvent → Option ℤ
  | .packet _ _ _ => none
  | .tick now _ _ => some now

end CrossingEvent

/-- The times of the ticks of a run. -/
def tickTimes (events : List CrossingEvent) : List ℤ :=
  events.filterMap CrossingEvent.tickTime

/-- The packets are those of the four cameras of the crossing. -/
def FromCameras (events : List CrossingEvent) : Prop :=
  ∀ event ∈ events, ∀ cameraNo ∈ event.camera, 3 ≤ cameraNo ∧ cameraNo ≤ 6

/-- Counts of the time `last` are cleared in the run that follows. -/
def Cleared (timeFlagPlus : Bool) (last : ℤ) (events : List CrossingEvent) : Prop :=
  (timeFlagPlus = false ∧ tickTimes events ≠ []) ∨ ∃ now ∈ tickTimes events, 6 ≤ now - last

instance (timeFlagPlus : Bool) (last : ℤ) (events : List CrossingEvent) :
    Decidable (Cleared timeFlagPlus last events) :=
  inferInstanceAs (Decidable (_ ∨ _))

theorem TimerPlus.tick_timeFlag (s : TimerPlus) (input : TickInput) :
    (s.tick input).timeFlagPlus = true := by
  have hflag : ∀ s : TimerPlus, s.initialise.timeFlagPlus = true := fun s => by
    unfold TimerPlus.initialise
    split_ifs with hfirst
    · rfl
    · simpa using hfirst
  simp only [TimerPlus.tick, pedestrianPlusTimerHandler, TimerPlus.advance]
  split_ifs <;> exact hflag _

namespace Crossing

variable (memory : ℕ → Point)

theorem run_timeFlag (s : Crossing) (events : List CrossingEvent) :
    (run (step memory) s events).timer.timeFlagPlus =
      (s.timer.timeFlagPlus || !(tickTimes events).isEmpty) := by
  induction events generalizing s with
  | nil => simp [tickTimes]
  | cons event rest ih =>
      rw [run_cons, ih]
      cases event with
      | packet now cameraNo tab => rfl
      | tick now subPhaseId stepId => simp [step, TimerPlus.tick_timeFlag, tickTimes,
          CrossingEvent.tickTime]

/-- What the ticks and the packets of the other cameras do to the counts of one. -/
theorem run_counts {k : ℕ} (hk : k < 4) {s : Crossing} {events : List CrossingEvent}
    (hcameras : FromCameras events)
    (hothers : ∀ event ∈ events, ∀ cameraNo ∈ event.camera, cameraNo.toNat ≠ k + 3) :
    (run (step memory) s events).arrays.counts k =
      if Cleared s.timer.timeFlagPlus (s.arrays.lastUpdateTimePlus (k + 3)) events then .zero
      else s.arrays.counts k := by
  induction events generalizing s with
  | nil => simp [Cleared, tickTimes]
  | cons event rest ih =>
      rw [run_cons, ih (fun event hevent => hcameras event (List.mem_cons_of_mem _ hevent))
        (fun event hevent => hothers event (List.mem_cons_of_mem _ hevent))]
      cases event with
      | packet now cameraNo tab =>
          have hcamera := hcameras _ List.mem_cons_self cameraNo rfl
          have hother := hothers _ List.mem_cons_self cameraNo rfl
          have hlow : 3 ≤ cameraNo.toNat := hcamera.1
          have hsame : (plusOnPedestrianPacketRx memory now cameraNo tab
              s.arrays).lastUpdateTimePlus (k + 3) = s.arrays.lastUpdateTimePlus (k + 3) := by
            rw [plusOnPedestrianPacketRx_lastUpdateTimePlus,
              Function.update_of_ne (Ne.symm hother)]
          simp only [step, hsame, packet_counts memory now tab s.arrays hcamera,
            if_neg (show k ≠ cameraNo.toNat - 3 by omega)]
          rfl
      | tick now subPhaseId stepId =>
          have htimes : tickTimes (.tick now subPhaseId stepId :: rest) = now :: tickTimes rest :=
            rfl
          simp only [step, TimerPlus.tick_timeFlag, tickArrays_lastUpdateTimePlus,
            tickArrays_counts _ _ _ hk, Cleared, htimes]
          -- the first tick clears, and a later one if the last packet is old enough
          cases s.timer.timeFlagPlus with
          | false => simp
          | true =>
              simp only [Bool.true_eq_false, false_and, false_or, List.exists_mem_cons_iff]
              by_cases hnow : 6 ≤ now - s.arrays.lastUpdateTimePlus (k + 3)
              · simp only [hnow, true_or, if_true, ite_self]
              · simp only [hnow, false_or, if_false]

/-- The matrix that the algorithm reads at a tick is the one the tick leaves. -/
theorem matrixRead_eq (s : Crossing) (now : ℤ) (subPhaseId stepId : UInt8) (i : Fin rows)
    (j : Fin cols) :
    (s.tickInput now subPhaseId stepId).matrixRead s.timer.timeFlagPlus i j =
      (s.step memory (.tick now subPhaseId stepId)).arrays.matrixPlus i j := by
  have hk : i.val / 2 < 4 := Nat.div_lt_of_lt_mul i.isLt
  have hrow : 2 * (i.val / 2) + (decide (i.val % 2 = 1)).toNat = i.val := by
    rcases Nat.mod_two_eq_zero_or_one i.val with hmod | hmod <;> simp [hmod] <;> omega
  have hcell : ∀ s : PlusArrays, (s.counts (i.val / 2)).cells (decide (i.val % 2 = 1)) j =
      s.matrixPlus i j := fun s => by
    simp only [PlusArrays.counts, hrow]
  simp only [step]
  rw [← hcell, tickArrays_counts _ _ _ hk]
  cases hflag : s.timer.timeFlagPlus with
  | false => simp [TickInput.matrixRead, CameraCounts.zero]
  | true =>
      simp only [TickInput.matrixRead, tickInput, cameraOf, Bool.not_true, Bool.false_or,
        decide_eq_true_eq, Bool.true_eq_false, false_or]
      split_ifs
      · rfl
      · exact (hcell s.arrays).symm

/-- In every run of packets of the four cameras and ticks, at any times: a camera
is counted as its last packet says, unless a later tick found that packet six
seconds old or was the first one, and with zeros before its first packet. What
the algorithm reads at the next tick are the counts that this tick leaves. -/
theorem cameras_count_fresh_packets {events : List CrossingEvent} (hcameras : FromCameras events)
    {cameraNo : UInt32} (hcamera : 3 ≤ cameraNo ∧ cameraNo ≤ 6) :
    let s := run (step memory) boot events
    let counts := s.arrays.counts (cameraNo.toNat - 3)
    (∀ before now tab after, events = before ++ .packet now cameraNo tab :: after →
      (∀ event ∈ after, cameraNo ∉ event.camera) →
      counts = if Cleared (!(tickTimes before).isEmpty) now after then .zero
        else packetCounts memory cameraNo tab) ∧
    ((∀ event ∈ events, cameraNo ∉ event.camera) → counts = .zero) ∧
    ∀ now subPhaseId stepId i j,
      (s.tickInput now subPhaseId stepId).matrixRead s.timer.timeFlagPlus i j =
        (s.step memory (.tick now subPhaseId stepId)).arrays.matrixPlus i j := by
  intro s counts
  have hlow : 3 ≤ cameraNo.toNat := hcamera.1
  have hhigh : cameraNo.toNat ≤ 6 := hcamera.2
  have hk : cameraNo.toNat - 3 < 4 := by omega
  have hothers : ∀ events : List CrossingEvent, (∀ event ∈ events, cameraNo ∉ event.camera) →
      ∀ event ∈ events, ∀ other ∈ event.camera, other.toNat ≠ cameraNo.toNat - 3 + 3 := by
    intro events hnone event hevent other hother heq
    have hsame : other = cameraNo := UInt32.toNat_inj.mp (by omega)
    exact hnone event hevent (hsame ▸ hother)
  refine ⟨?_, fun hnone => ?_, matrixRead_eq memory s⟩
  · rintro before now tab after rfl hnone
    have hafter : FromCameras after := fun event hevent =>
      hcameras event (List.mem_append_right _ (List.mem_cons_of_mem _ hevent))
    have hflag : (run (step memory) boot before).timer.timeFlagPlus =
        !(tickTimes before).isEmpty := by
      rw [run_timeFlag]
      exact Bool.false_or _
    simp only [counts, s, run_append, run_cons]
    rw [run_counts memory hk hafter (hothers after hnone)]
    simp only [step, hflag, packet_counts memory now tab _ hcamera, if_true,
      plusOnPedestrianPacketRx_lastUpdateTimePlus, Nat.sub_add_cancel hlow, Function.update_self]
  · have hcounts := run_counts memory (s := boot) hk hcameras (hothers events hnone)
    have hzero : boot.arrays.counts (cameraNo.toNat - 3) = .zero := rfl
    rw [hzero, ite_self] at hcounts
    exact hcounts

theorem cameras_count_fresh_packets_between_ticks :
    let memory : ℕ → Point := fun _ => ⟨0, 0⟩
    let before : List CrossingEvent := [.tick 9 1 1]
    let after : List CrossingEvent := [.packet 11 4 [], .tick 15 2 1]
    (run (step memory) boot (before ++ .packet 10 3 [newcomer] :: after)).arrays.counts 0 =
      packetCounts memory 3 [newcomer] := by
  intro memory before after
  have hcameras : FromCameras (before ++ .packet 10 3 [newcomer] :: after) := by
    simp [FromCameras, before, after, CrossingEvent.camera]
  have hcounts := (cameras_count_fresh_packets memory hcameras
    (show (3 : UInt32) ≤ 3 ∧ _ by decide)).1 before 10 [newcomer] after rfl
    (by simp [after, CrossingEvent.camera])
  exact hcounts.trans (if_neg (by decide))

end Crossing

end AdaptiveSignal.Pedestrian
