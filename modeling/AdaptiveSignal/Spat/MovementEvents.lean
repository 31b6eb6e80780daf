import AdaptiveSignal.Compensation.Allocation
import AdaptiveSignal.Foundation.WhileLoop

/-! # Movement events of the SPaT message

For every signal group whose green some phase shows, the message tells when its
light changes next. The times come from one offset to now, which is moved along the
steps and the phases of the plan; it is kept here without the wrap to the hour.
-/

namespace AdaptiveSignal.Signal

open Foundation

inductive MovementPhaseState
  | stopAndRemain
  | permissiveMovementAllowed
  | protectedMovementAllowed
  | protectedClearance
  deriving DecidableEq

/-- An event, from and to an offset in seconds from now. -/
structure MovementEvent where
  eventState : MovementPhaseState
  startTime : Int
  minEndTime : Int
  deriving DecidableEq

/-- What the macros of `spat_msg_update` share: the phase they stand at, the offset, the
events so far, and the phase indices that were used. -/
structure SpatWalk where
  curSubphase : ℕ
  offset : Int
  events : List MovementEvent
  phases : List ℕ

/-- A loop of `spat_msg_update`, with its own index and counter. -/
structure SpatScan where
  k : ℕ
  t : ℕ
  walk : SpatWalk

def SpatWalk.touch (w : SpatWalk) (k : ℕ) : SpatWalk :=
  { w with phases := w.phases ++ [k] }

def SpatWalk.moveTo (w : SpatWalk) (k : ℕ) : SpatWalk :=
  { w.touch k with curSubphase := k }

def SpatWalk.add (w : SpatWalk) (seconds : Int) : SpatWalk :=
  { w with offset := w.offset + seconds }

/-- A loop from an index on, with the walk in its last state. -/
def spatScan (fuel : ℕ) (cond : SpatScan → Bool) (body : SpatScan → SpatScan) (k : ℕ)
    (w : SpatWalk) : Option SpatWalk :=
  (whileLoop cond body fuel ⟨k, 0, w.touch k⟩).map SpatScan.walk

/-- `after_cur_step`: an event from the offset to where it is moved to. -/
def afterCurStep (eventState : MovementPhaseState) (endOffset : SpatWalk → Int)
    (extra : SpatWalk → Option SpatWalk) (w : SpatWalk) : Option SpatWalk := do
  let moved ← extra { w with offset := endOffset w }
  return { moved with events := moved.events ++ [⟨eventState, w.offset, moved.offset⟩] }

/-- The masks of round-head, left, straight, right and pedestrian green. -/
def signalMaskArr : List UInt8 := [4, 8, 16, 32, 64]

def greenMask : UInt8 := 124

/-- `PedestrianGreenIndex` and `RroundHeadGreenIndex`. -/
def pedestrianGreenIndex : UInt8 := 4

def rroundHeadGreenIndex : UInt8 := 0

/-- A round head permits the movement, an arrow protects it. -/
def vehicleGreenType (signalGreenType : UInt8) : MovementPhaseState :=
  if signalGreenType = rroundHeadGreenIndex then .permissiveMovementAllowed
  else .protectedMovementAllowed

structure SignalIdObj where
  signalGroupId : UInt8
  approachId : UInt8
  signalGreenType : UInt8

/-- The light of a signal group. -/
structure MovementState where
  signalGroup : UInt8
  events : List MovementEvent
  phases : List ℕ

namespace TrafficSignalStatus

variable (status : TrafficSignalStatus)

/-- `get_greenSignalMap` of a signal: the greens that some phase shows. -/
def greenSignalMap (i : ℕ) : UInt8 :=
  (List.range status.subPhaseCount.toNat).foldl
    (fun map k => map ||| (status.phaseorderPlan k i &&& greenMask)) 0

/-- A phase shows a green of a signal. -/
def shows (i : ℕ) (mask : UInt8) (k : ℕ) : Bool :=
  status.phaseorderPlan k i &&& mask ≠ 0

section Steps

variable (k : ℕ)

def preGreenOf : Int := (status.planAt k).preGreen.toNat
def pedGreenFlashOf : Int := (status.planAt k).pedGreenFlash.toNat
def pedRedOf : Int := (status.planAt k).pedRed.toNat
def yellowOf : Int := (status.planAt k).yellow.toNat
def allRedOf : Int := (status.planAt k).allRed.toNat
def greenOf : Int := (status.planAt k).green.toNat

/-- The seconds of a whole phase. -/
def wholePhaseOf : Int := status.greenOf k + status.yellowOf k + status.allRedOf k

end Steps

def nextSubphase (k : ℕ) : ℕ := (k + 1) % status.subPhaseCount.toNat

def previousSubphase (k : ℕ) : ℕ :=
  (k + status.subPhaseCount.toNat - 1) % status.subPhaseCount.toNat

def stepSeconds : Int := status.stepSec.toNat

variable (shown : ℕ → Bool) (fuel : ℕ)

/-- Over the phases that do not show the green. -/
def increaseOffsetRedSignal (w : SpatWalk) : Option SpatWalk :=
  spatScan fuel (fun s => !shown s.k && s.t < status.subPhaseCount.toNat)
    (fun s =>
      let k := status.nextSubphase s.k
      ⟨k, s.t + 1, ((s.walk.add (status.wholePhaseOf s.k)).moveTo
        (status.nextSubphase s.walk.curSubphase)).touch k⟩)
    (status.nextSubphase w.curSubphase) w

/-- Over the phases that start early: the phase before has neither yellow nor red. -/
def leadingSubphaseSignal (w : SpatWalk) : Option SpatWalk :=
  spatScan fuel
    (fun s => status.yellowOf s.k = 0 ∧ status.allRedOf s.k = 0 ∧
      s.t < status.subPhaseCount.toNat)
    (fun s =>
      let k := status.nextSubphase s.k
      ⟨k, s.t + 1, ((s.walk.add (status.greenOf k)).moveTo
        (status.nextSubphase s.walk.curSubphase)).touch k⟩)
    w.curSubphase w

/-- Over the phases that the green of the phase before is kept through. -/
def laggingSubphaseSignal (w : SpatWalk) : Option SpatWalk :=
  spatScan fuel
    (fun s => status.allRedOf s.k = 0 ∧ status.yellowOf s.k ≠ 0 ∧
      shown (status.nextSubphase s.k) ∧ s.t < status.subPhaseCount.toNat)
    (fun s =>
      let k := status.nextSubphase s.k
      ⟨k, s.t + 1, ((s.walk.add (status.greenOf k + status.yellowOf k)).moveTo
        (status.nextSubphase s.walk.curSubphase)).touch k⟩)
    w.curSubphase w

/-- Back over the phases before which this one started early. -/
def earlyStart (w : SpatWalk) : Option SpatWalk :=
  spatScan fuel
    (fun s => shown s.k ∧ status.allRedOf s.k = 0 ∧ s.t < status.subPhaseCount.toNat)
    (fun s =>
      let k := status.previousSubphase s.k
      ⟨k, s.t + 1, (s.walk.add (status.greenOf s.k)).touch k⟩)
    (status.previousSubphase w.curSubphase) w

/-- Back to the last phase that shows the green; this loop has no counter. -/
def backToGreen (w : SpatWalk) : Option SpatWalk :=
  spatScan fuel (fun s => !shown s.k)
    (fun s =>
      let k := status.previousSubphase s.k
      ⟨k, s.t, (s.walk.add (status.wholePhaseOf s.k)).touch k⟩)
    (status.previousSubphase w.curSubphase) w

/-- The green event, where the green of the phase ends at an offset. -/
def greenFrom (greenType : MovementPhaseState) (greenEnd : SpatWalk → Int) (w : SpatWalk) :
    Option SpatWalk :=
  afterCurStep greenType greenEnd
    (fun w => do status.laggingSubphaseSignal shown fuel (← status.leadingSubphaseSignal fuel w)) w

def yellowAfter : SpatWalk → Option SpatWalk :=
  afterCurStep .protectedClearance (fun w => w.offset + status.yellowOf w.curSubphase) some

def redAfter : SpatWalk → Option SpatWalk :=
  afterCurStep .stopAndRemain (fun w => w.offset + status.allRedOf w.curSubphase)
    (status.increaseOffsetRedSignal shown fuel)

/-- A vehicle signal that is green in the running phase, by the running step. -/
def vehicleGreenEvents (greenType : MovementPhaseState) (w : SpatWalk) : Option SpatWalk := do
  let w ← status.earlyStart shown fuel w
  let cur := w.curSubphase
  let step := status.stepId.toNat
  if step = 1 ∨ step = 2 ∨ step = 3 then
    -- step 3 falls into step 2, and that into step 1
    let greenOffset := if step = 3 then 0 else status.pedGreenFlashOf cur + status.pedRedOf cur
    let offset := if step = 3 then w.offset + status.pedRedOf cur else w.offset
    let greenOffset := if step = 1 then greenOffset else greenOffset - status.pedGreenFlashOf cur
    let offset := if step = 1 then offset else offset + status.pedGreenFlashOf cur
    let w := { w with offset := status.stepSeconds - (offset + status.preGreenOf cur) }
    let w ← status.greenFrom shown fuel greenType (fun _ => status.stepSeconds + greenOffset) w
    let w ← status.yellowAfter w
    status.redAfter shown fuel w
  else if step = 4 then
    if status.allRedOf cur = 0 ∧ status.yellowOf cur ≠ 0 ∧ shown (status.nextSubphase cur) then
      let offset := w.offset + status.pedRedOf cur + status.pedGreenFlashOf cur +
        status.preGreenOf cur
      let w := { w with offset := status.stepSeconds - offset }.moveTo (status.nextSubphase cur)
      let w ← status.greenFrom shown fuel greenType
        (fun w => status.stepSeconds + status.greenOf w.curSubphase) w
      let w ← status.yellowAfter w
      status.redAfter shown fuel w
    else
      let w := { w with offset := -(status.yellowOf cur - status.stepSeconds) }
      let w ← afterCurStep .protectedClearance (fun _ => status.stepSeconds) some w
      let w ← status.redAfter shown fuel w
      status.greenFrom shown fuel greenType (fun w => w.offset + status.greenOf w.curSubphase) w
  else if step = 5 then
    let w := { w with offset := -(status.allRedOf cur - status.stepSeconds) }
    let w ← afterCurStep .stopAndRemain (fun _ => status.stepSeconds)
      (status.increaseOffsetRedSignal shown fuel) w
    let w ← status.greenFrom shown fuel greenType
      (fun w => w.offset + status.greenOf w.curSubphase) w
    status.yellowAfter w
  else return w

/-- The red of a group that the running phase does not show, and the next green phase. -/
def redUntilGreen (w : SpatWalk) : Option SpatWalk := do
  let cur := w.curSubphase
  let step := status.stepId.toNat
  let elapsed := (if 1 ≤ step then status.preGreenOf cur else 0) +
    (if 2 ≤ step then status.pedGreenFlashOf cur else 0) +
    (if 3 ≤ step then status.pedRedOf cur else 0) +
    (if 4 ≤ step then status.yellowOf cur else 0) +
    (if 5 ≤ step then status.allRedOf cur else 0)
  let w := w.add (elapsed - status.stepSeconds + status.allRedOf cur)
  let w ← status.backToGreen shown fuel w
  let startTime := -w.offset
  let remaining := status.stepSeconds +
    (if step ≤ 1 then status.pedGreenFlashOf cur else 0) +
    (if step ≤ 2 then status.pedRedOf cur else 0) +
    (if step ≤ 3 then status.yellowOf cur else 0) +
    (if step ≤ 4 then status.allRedOf cur else 0)
  let w ← status.increaseOffsetRedSignal shown fuel { w with offset := remaining }
  let red : MovementEvent := ⟨.stopAndRemain, startTime, w.offset⟩
  return { w with events := w.events ++ [red] }.moveTo (status.nextSubphase w.curSubphase)

/-- A vehicle signal that is red in the running phase. -/
def vehicleRedEvents (greenType : MovementPhaseState) (w : SpatWalk) : Option SpatWalk := do
  let w ← status.redUntilGreen shown fuel w
  let w ← status.greenFrom shown fuel greenType (fun w => w.offset + status.greenOf w.curSubphase) w
  status.yellowAfter w

/-- A pedestrian signal that is green in the running phase, by the running step. -/
def pedestrianGreenEvents (w : SpatWalk) : Option SpatWalk := do
  let cur := w.curSubphase
  let step := status.stepId.toNat
  let redOffset := status.pedRedOf cur + status.allRedOf cur
  let red := status.increaseOffsetRedSignal shown fuel
  if step = 1 then
    let w := { w with offset := -(status.preGreenOf cur - status.stepSeconds) }
    let w ← afterCurStep .permissiveMovementAllowed (fun _ => status.stepSeconds) some w
    let w ← afterCurStep .protectedClearance
      (fun w => w.offset + status.pedGreenFlashOf w.curSubphase) some w
    afterCurStep .stopAndRemain
      (fun w => w.offset + status.yellowOf w.curSubphase + redOffset) red w
  else if step = 2 then
    let w := { w with offset := -status.pedGreenFlashOf cur - status.stepSeconds }
    let w ← afterCurStep .protectedClearance (fun _ => status.stepSeconds) some w
    let w ← afterCurStep .stopAndRemain
      (fun w => w.offset + status.yellowOf w.curSubphase + redOffset) red w
    afterCurStep .permissiveMovementAllowed
      (fun w => w.offset + status.preGreenOf w.curSubphase) some w
  else if step = 3 ∨ step = 4 ∨ step = 5 then
    -- step 5 falls into step 4, and that into step 3
    let offset := if step = 5 then w.offset + status.allRedOf cur else w.offset
    let redOffset := if step = 5 then 0 else redOffset
    let offset := if step = 3 then offset else offset + status.yellowOf cur
    let redOffset := if step = 3 then redOffset else redOffset - status.pedRedOf cur
    let offset := status.stepSeconds - (offset + status.pedRedOf cur)
    let w := { w with offset := offset }
    let w ← afterCurStep .stopAndRemain (fun _ => status.stepSeconds + redOffset) red w
    let w ← afterCurStep .permissiveMovementAllowed (fun _ => status.stepSeconds) some w
    afterCurStep .protectedClearance
      (fun w => w.offset + status.pedGreenFlashOf w.curSubphase) some w
  else return w

/-- A pedestrian signal that is red in the running phase. -/
def pedestrianRedEvents (w : SpatWalk) : Option SpatWalk := do
  let w ← status.redUntilGreen shown fuel w
  let w ← afterCurStep .permissiveMovementAllowed
    (fun w => w.offset + status.preGreenOf w.curSubphase) some w
  afterCurStep .protectedClearance
    (fun w => w.offset + status.pedGreenFlashOf w.curSubphase) some w

/-- The events of a vehicle signal or of a pedestrian signal, by the running phase. -/
def groupEvents (signalGreenType : UInt8) (w : SpatWalk) : Option SpatWalk :=
  if signalGreenType ≠ pedestrianGreenIndex then
    let greenType := vehicleGreenType signalGreenType
    if shown w.curSubphase then status.vehicleGreenEvents shown fuel greenType w
    else status.vehicleRedEvents shown fuel greenType w
  else if shown w.curSubphase then status.pedestrianGreenEvents shown fuel w
  else status.pedestrianRedEvents shown fuel w

/-- The events of one group of a signal; none where a loop does not end in time. -/
def movementState (i : ℕ) (mask : UInt8) (group : SignalIdObj) : Option MovementState :=
  let cur := status.subPhaseId.toNat - 1
  (status.groupEvents (status.shows i mask) fuel group.signalGreenType ⟨cur, 0, [], []⟩).map
    fun w => ⟨group.signalGroupId, w.events, cur :: w.phases⟩

/-- The groups that are processed: of a signal that there is, in a colour some phase shows. -/
def processedGroups (signalIdTable : ℕ → ℕ → List SignalIdObj) :
    List (ℕ × UInt8 × SignalIdObj) :=
  (List.range status.signalCount.toNat).flatMap fun i =>
    signalMaskArr.zipIdx.flatMap fun (mask, j) =>
      if status.greenSignalMap i &&& mask ≠ 0 then
        (signalIdTable i j).map fun group => (i, mask, group)
      else []

/-- `spat_msg_update`, up to the wrap of its times; no message without a running phase
or step, without phases or signals, or without a group. -/
def spatMsgUpdate (signalIdTable : ℕ → ℕ → List SignalIdObj) : Option (List MovementState) :=
  if status.subPhaseId = 0 ∨ status.stepId = 0 ∨ status.subPhaseCount = 0 ∨
      status.signalCount = 0 then some []
  else (status.processedGroups signalIdTable).mapM fun (i, mask, group) =>
    status.movementState fuel i mask group

end TrafficSignalStatus

end AdaptiveSignal.Signal
