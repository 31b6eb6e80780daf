import Mathlib.Algebra.Order.Floor.Semiring
import Mathlib.Data.Rat.Floor
import Mathlib.Logic.Function.Basic

/-! # The VIPS+ pedestrian signal control

One tick of `runPedestrianSignalControl_plus` and of the timer handler that
calls it once a second. Times are exact rationals. The pedestrian matrix is
read as it stands at the tick: every writer clears cells or increments them, so
its entries are natural numbers.
-/

namespace AdaptiveSignal.Pedestrian

abbrev cols : ℕ := 11
abbrev rows : ℕ := 8

/-- Green, green flash, yellow, all-red and total seconds of the signal. -/
def G : ℚ := 30.0
def GF : ℚ := 27.0
def Y : ℚ := 2.0
def R : ℚ := 2.0
def PT : ℚ := 65.0

abbrev MatrixPlus := Fin rows → Fin cols → ℕ

/-- Timer 0 is unused. -/
abbrev stageTimerNum : ℕ := 7

instance stageTimerNum_neZero : NeZero stageTimerNum := ⟨by decide⟩

/-- The variables of the VIPS+ algorithm. Flag `false` is North/South. -/
structure ControlPlus where
  csPlus : ℕ
  directionFlagPlus : Bool
  yPlus : ℚ
  lgPlus : ℚ
  lgfPlus : ℚ
  urPlus : ℚ
  lrPlus : ℚ
  erPlus : ℚ
  dynamicGPlus : ℚ
  dynamicGFPlus : ℚ
  stageTimersPlus : Fin stageTimerNum → ℕ
  picPlus : ℕ
  waitingCount : ℕ

def initVariablePlus (c : ControlPlus) : ControlPlus :=
  let lgPlus := (G + GF) * 0.2
  let lgfPlus := (G + GF) * 0.4
  { c with
    yPlus := Y
    lgPlus := lgPlus
    lgfPlus := lgfPlus
    urPlus := (G + GF + R) - lgPlus - lgfPlus
    lrPlus := 2.0
    erPlus := PT * 0.1
    csPlus := 1
    directionFlagPlus := false
    stageTimersPlus := fun _ => 0
    dynamicGPlus := G
    dynamicGFPlus := GF }

/-- Column 0 holds the people who wait, so the crossing count starts at column 1. -/
def calculateMaxPedPlus (m : MatrixPlus) : ℕ :=
  ((List.finRange rows).map fun i => ((List.finRange cols).tail.map (m i)).sum).sum

def calculateWaiting (m : MatrixPlus) : ℕ :=
  m 1 0 + m 3 0 + m 5 0 + m 7 0

def isAnyoneBeforeRatioPlus (m : MatrixPlus) (ratioCols : ℕ) : Bool :=
  (List.finRange rows).any fun i =>
    (List.finRange cols).any fun j => 1 ≤ j.val && j.val ≤ ratioCols && 0 < m i j

namespace ControlPlus

/-- `stage_timers_plus[k]++`. -/
def tickStage (c : ControlPlus) (k : Fin stageTimerNum) : ControlPlus :=
  { c with stageTimersPlus := Function.update c.stageTimersPlus k (c.stageTimersPlus k + 1) }

/-- Early pedestrian start: the first tick fixes the split of green and green
flash from the number of people waiting. -/
def stage1 (c : ControlPlus) (m : MatrixPlus) : ControlPlus :=
  let c := { c.tickStage 1 with waitingCount := calculateWaiting m }
  if c.stageTimersPlus 1 < 5 then
    if c.stageTimersPlus 1 = 1 then
      if c.waitingCount ≤ 5 then
        let dynamicGF := (G + GF) * 0.5
        let c := { c with dynamicGFPlus := dynamicGF, dynamicGPlus := (G + GF) - dynamicGF }
        if c.waitingCount = 0 then { c with csPlus := 2 } else c
      else if c.waitingCount ≤ 30 then
        let dynamicGF := (G + GF) * 0.65
        { c with dynamicGFPlus := dynamicGF, dynamicGPlus := (G + GF) - dynamicGF }
      else
        let dynamicGF := (G + GF) * 0.75
        { c with dynamicGFPlus := dynamicGF, dynamicGPlus := (G + GF) - dynamicGF }
    else c
  else { c with csPlus := 2 }

/-- The common body of the green and the green flash. Past its shortest time the
stage takes a second of the red time from every tick, and it ends when nobody is
left in the first columns or the time of the flow class is used up. -/
def crossingStage (c : ControlPlus) (m : MatrixPlus) (k : Fin stageTimerNum) (shortest : ℚ)
    (ratioCols : ℕ) (longest : ℚ) (next : ℕ) : ControlPlus :=
  let c := c.tickStage k
  if shortest ≤ c.stageTimersPlus k then
    let pedStill := isAnyoneBeforeRatioPlus m ratioCols
    let c := if shortest < c.stageTimersPlus k then { c with urPlus := c.urPlus - 1 } else c
    if !pedStill then { c with csPlus := next }
    else if longest ≤ c.stageTimersPlus k then { c with csPlus := next } else c
  else c

/-- Pedestrian green. -/
def stage2 (c : ControlPlus) (m : MatrixPlus) : ControlPlus :=
  c.crossingStage m 2 c.lgPlus 3 c.dynamicGPlus 3

/-- Pedestrian green flash. -/
def stage3 (c : ControlPlus) (m : MatrixPlus) : ControlPlus :=
  c.crossingStage m 3 c.lgfPlus 10 c.dynamicGFPlus 4

/-- Pedestrian red, vehicle green. -/
def stage4 (c : ControlPlus) : ControlPlus :=
  let c := c.tickStage 4
  if c.urPlus ≤ c.stageTimersPlus 4 then { c with csPlus := 5 } else c

/-- Pedestrian red, vehicle yellow. -/
def stage5 (c : ControlPlus) : ControlPlus :=
  let c := c.tickStage 5
  if c.yPlus ≤ c.stageTimersPlus 5 then { c with csPlus := 6 } else c

/-- The `SWITCH_DIRECTION` label. -/
def switchDirection (c : ControlPlus) : ControlPlus :=
  { c with
    directionFlagPlus := !c.directionFlagPlus
    stageTimersPlus := fun _ => 0
    urPlus := (G + GF + R) - c.lgPlus - c.lgfPlus
    csPlus := 1 }

/-- All red, extended while somebody is still crossing. -/
def stage6 (c : ControlPlus) : ControlPlus :=
  let c := c.tickStage 6
  if c.lrPlus ≤ c.stageTimersPlus 6 then
    if 0 < c.picPlus then
      if c.lrPlus + c.erPlus ≤ c.stageTimersPlus 6 then c.switchDirection else c
    else c.switchDirection
  else c

/-- The `switch (CS_plus)`. -/
def switchStage (c : ControlPlus) (m : MatrixPlus) : ControlPlus :=
  match c.csPlus with
  | 1 => c.stage1 m
  | 2 => c.stage2 m
  | 3 => c.stage3 m
  | 4 => c.stage4
  | 5 => c.stage5
  | 6 => c.stage6
  | _ => c

/-- The count of people on the crossing is read once, before the stage runs. -/
def readPic (c : ControlPlus) (m : MatrixPlus) : ControlPlus :=
  { c with picPlus := calculateMaxPedPlus m }

end ControlPlus

def runPedestrianSignalControlPlus (c : ControlPlus) (m : MatrixPlus) : ControlPlus :=
  (c.readPic m).switchStage m

/-- The text pushed to the web clients after every tick of the algorithm. -/
def messagePlus (c : ControlPlus) (phase step : UInt8) : String :=
  let lights := match c.csPlus with
    | 1 => ("Green", "Red")
    | 2 => ("Green", "Green")
    | 3 => ("GreenFlash", "Green")
    | 4 => ("Red", "Green")
    | 5 => ("Red", "Yellow")
    | 6 => ("Red(準備中 行人放行)", "Red")
    | _ => ("Red", "Red")
  let dirStr := if c.directionFlagPlus then "East/West" else "North/South"
  lights.1 ++ " | " ++ lights.2 ++ " | " ++ dirStr ++ " | " ++
    toString phase ++ "-" ++ toString step

/-! ## The timer handler -/

/-- What the handler writes towards the signal controller and the simulator. -/
inductive ControllerTx
  | tscSwitchStrategy
  | tscSwitch
  | sumoSwitchPhase
  | tsc5F4C
  deriving DecidableEq, Repr

/-- The static variables of the handler and the algorithm state it drives. -/
structure TimerPlus where
  control : ControlPlus
  isSynchronized : Bool
  readyToSend : Bool
  timeFlagPlus : Bool
  secondPlus : ℕ
  messageBufferPlus : String

/-- What one tick finds: phase and step of the controller, the pedestrian
matrix, and for each of the cameras 3 to 6 whether its last packet is at least
six seconds old. -/
structure TickInput where
  subPhaseId : UInt8
  stepId : UInt8
  matrixPlus : MatrixPlus
  expired : Fin 4 → Bool

/-- Two rows of the matrix belong to one camera. -/
def cameraOf (i : Fin rows) : Fin 4 := ⟨i.val / 2, Nat.div_lt_of_lt_mul i.isLt⟩

/-- The matrix the algorithm reads: all zero on the very first tick, and
without the rows of the cameras that have gone silent. -/
def TickInput.matrixRead (input : TickInput) (timeFlagPlus : Bool) : MatrixPlus := fun i j =>
  if !timeFlagPlus || input.expired (cameraOf i) then 0 else input.matrixPlus i j

/-- The alignment block: before synchronisation the controller is stepped until
phase 2 or 4 reaches step 5, and the algorithm starts at the next step 1 of
phase 1 or 3. -/
def TimerPlus.synchronize (s : TimerPlus) (input : TickInput) : TimerPlus × List ControllerTx :=
  let phase := input.subPhaseId
  let step := input.stepId
  if !s.isSynchronized then
    let (s, sent) :=
      if (phase = 2 ∧ step = 5) ∨ (phase = 4 ∧ step = 5) then
        ({ s with readyToSend := true }, [])
      -- a step 1 ends the stepping in every phase
      else if (phase ≠ 1 ∧ step ≠ 1) ∧ (phase ≠ 3 ∧ step ≠ 1) then
        (s, [.tscSwitchStrategy, .tscSwitch, .sumoSwitchPhase, .tsc5F4C])
      else (s, [])
    if ((phase = 1 ∧ step = 1) ∨ (phase = 3 ∧ step = 1)) ∧ s.readyToSend then
      ({ s with
        control := { s.control with csPlus := 1, directionFlagPlus := !(phase = 1) }
        isSynchronized := true
        readyToSend := false }, sent)
    else (s, sent)
  else (s, [])

/-- Variable initialisation of the first tick, and the tick counter. -/
def TimerPlus.initialise (s : TimerPlus) : TimerPlus :=
  if !s.timeFlagPlus then
    { s with secondPlus := 1, timeFlagPlus := true, control := initVariablePlus s.control }
  else { s with secondPlus := s.secondPlus + 1 }

/-- One tick of the algorithm; the hardware is switched when the stage changed. -/
def TimerPlus.advance (s : TimerPlus) (input : TickInput) (m : MatrixPlus) :
    TimerPlus × List ControllerTx :=
  if s.isSynchronized then
    let control := runPedestrianSignalControlPlus s.control m
    ({ s with
      control := control
      messageBufferPlus := messagePlus control input.subPhaseId input.stepId },
      if s.control.csPlus ≠ control.csPlus then [.tscSwitchStrategy, .tscSwitch, .tsc5F4C] else [])
  else (s, [])

def pedestrianPlusTimerHandler (s : TimerPlus) (input : TickInput) :
    TimerPlus × List ControllerTx :=
  let (aligned, sent) := s.synchronize input
  let m := input.matrixRead aligned.timeFlagPlus
  let (s', sent') := aligned.initialise.advance input m
  (s', sent ++ sent')

/-- The statics as the program loads. -/
def TimerPlus.boot : TimerPlus where
  control :=
    { csPlus := 2, directionFlagPlus := false, yPlus := 0, lgPlus := 0, lgfPlus := 0
      urPlus := 0, lrPlus := 0, erPlus := 0, dynamicGPlus := 0, dynamicGFPlus := 0
      stageTimersPlus := fun _ => 0, picPlus := 0, waitingCount := 0 }
  isSynchronized := false
  readyToSend := false
  timeFlagPlus := false
  secondPlus := 0
  messageBufferPlus := "Red"

end AdaptiveSignal.Pedestrian
