import AdaptiveSignal.Spat.MovementEvents

/-! # The connections of the map message

The map message names, for every turn from a lane, the signal group that controls
it; the timing message names the groups whose lights it tells. Both take the
groups from one table of the configuration, each by its own index.
-/

namespace AdaptiveSignal.Signal

/-! ## The table of signal groups -/

/-- `COMPASS_NUM`. -/
abbrev compassNum : ℕ := 8

/-- The numbers in a row of the file, where approaches and signals count from 1. -/
structure SignalGroupRow where
  signalGroupId : ℤ
  approachId : ℕ
  signalGreenType : ℕ
  signalId : ℕ
  mapGreenType : ℕ

/-- A row for one of the approaches and signals, with a group that fits its octet. -/
structure SignalGroupRow.Valid (row : SignalGroupRow) : Prop where
  nonneg : 0 ≤ row.signalGroupId
  octet : row.signalGroupId < 256
  approach : 1 ≤ row.approachId
  signal : 1 ≤ row.signalId

/-- `sGobj`. -/
def SignalGroupRow.object (row : SignalGroupRow) : SignalIdObj where
  signalGroupId := UInt8.ofNat row.signalGroupId.toNat
  approachId := UInt8.ofNat (row.approachId - 1)
  signalGreenType := UInt8.ofNat row.signalGreenType

/-- `signalGroupId_table`, with -1 where there is no group, and `signalId_table`. -/
structure GroupTables where
  signalGroupId : ℕ → ℕ → ℤ
  signalId : ℕ → ℕ → List SignalIdObj

namespace GroupTables

def initial : GroupTables := ⟨fun _ _ => -1, fun _ _ => []⟩

/-- A row is refused that is out of range, or whose place in the first table is taken. -/
def readRow (t : GroupTables) (row : SignalGroupRow) : Option GroupTables :=
  if row.signalGroupId = -1 ∨ compassNum ≤ row.approachId ∨ 4 < row.signalGreenType then none
  else if t.signalGroupId (row.approachId - 1) row.signalGreenType ≠ -1 then none
  else if compassNum < row.signalId ∨ 4 < row.mapGreenType then none
  else some {
    signalGroupId := fun approach green =>
      if approach = row.approachId - 1 ∧ green = row.signalGreenType then row.signalGroupId
      else t.signalGroupId approach green
    signalId := fun signal green =>
      if signal = row.signalId - 1 ∧ green = row.mapGreenType then
        t.signalId signal green ++ [row.object]
      else t.signalId signal green }

def readRows (t : GroupTables) (rows : List SignalGroupRow) : Option GroupTables :=
  rows.foldlM readRow t

end GroupTables

/-! ## The lanes -/

inductive LaneType
  | vehicle
  | crosswalk
  | bikeLane
  | sidewalk
  | trackedVehicle
  deriving DecidableEq

/-- `MAP_config_lane_t`; its approach counts from 0. -/
structure ConfigLane where
  ingress : Bool
  approach : UInt8
  laneIndex : UInt8
  laneType : LaneType

/-- The `laneID` in the message. -/
def ConfigLane.laneId (lane : ConfigLane) : UInt8 :=
  (lane.approach <<< 5 &&& 0b11100000) ||| (if lane.ingress then 0b00010000 else 0) |||
    (0b00001111 &&& lane.laneIndex)

/-- `MAP_config_connectsTo_t`. -/
structure ConfigConnectsTo where
  configLaneId : ℕ
  leftLaneId : List ℕ
  straightLaneId : List ℕ
  rightLaneId : List ℕ

structure MapConfig where
  laneList : List ConfigLane
  connectsToList : List ConfigConnectsTo
  tables : GroupTables

structure MapConnection where
  lane : UInt8
  signalGroup : ℤ
  deriving DecidableEq

namespace MapConfig

variable (config : MapConfig)

def laneIdAt (ℓ : ℕ) : UInt8 := (config.laneList[ℓ]?.map ConfigLane.laneId).getD 0

def approachAt (ℓ : ℕ) : ℕ := (config.laneList[ℓ]?.map fun lane => lane.approach.toNat).getD 0

/-- `MAP_lane_approach`: the lanes for vehicles that lead into the intersection. -/
def laneApproach (i : ℕ) : List ℕ :=
  (List.range config.laneList.length).filter fun ℓ => config.laneList[ℓ]?.any fun lane =>
    lane.approach.toNat = i ∧ lane.laneType = .vehicle ∧ lane.ingress

/-- `MAP_sidewalk_approach`. -/
def sidewalkApproach (i : ℕ) : List ℕ :=
  (List.range config.laneList.length).filter fun ℓ => config.laneList[ℓ]?.any fun lane =>
    lane.approach.toNat = i ∧ lane.laneType = .sidewalk

/-! ## The connections -/

def setCompassConnectsTo (signalGroupId : ℤ) (connections : List MapConnection)
    (laneIds : List ℕ) : List MapConnection :=
  laneIds.foldl (fun connections k => connections ++ [⟨config.laneIdAt k, signalGroupId⟩])
    connections

/-- `search_signal_compass`, with the lists of turns that `setFunc` goes through. -/
def searchSignalCompass (ℓ : ℕ) (signalGroupId : ℤ)
    (turns : List (ConfigConnectsTo → List ℕ)) (connections : List MapConnection) :
    List MapConnection :=
  if signalGroupId ≠ -1 then
    config.connectsToList.foldl
      (fun connections connectTo =>
        if connectTo.configLaneId = ℓ then
          turns.foldl
            (fun connections turn =>
              config.setCompassConnectsTo signalGroupId connections (turn connectTo))
            connections
        else connections)
      connections
  else connections

/-- What the loop adds to a lane for vehicles. -/
def connectLane (ℓ : ℕ) (connections : List MapConnection) : List MapConnection :=
  let group := config.tables.signalGroupId (config.approachAt ℓ)
  let connections := config.searchSignalCompass ℓ (group 0)
    [ConfigConnectsTo.leftLaneId, ConfigConnectsTo.straightLaneId, ConfigConnectsTo.rightLaneId]
    connections
  let connections :=
    config.searchSignalCompass ℓ (group 1) [ConfigConnectsTo.leftLaneId] connections
  let connections :=
    config.searchSignalCompass ℓ (group 2) [ConfigConnectsTo.straightLaneId] connections
  config.searchSignalCompass ℓ (group 3) [ConfigConnectsTo.rightLaneId] connections

/-- What the loop adds to a sidewalk of approach `i`; there group 0 counts as none. -/
def connectSidewalk (i ℓ : ℕ) (connections : List MapConnection) : List MapConnection :=
  let group := config.tables.signalGroupId i 4
  if group ≠ 0 then
    config.searchSignalCompass ℓ group [ConfigConnectsTo.straightLaneId] connections
  else connections

/-- The body of the loop over the approaches. -/
def connectApproach (connections : ℕ → List MapConnection) (i : ℕ) : ℕ → List MapConnection :=
  let connections := (config.laneApproach i).foldl
    (fun connections ℓ => Function.update connections ℓ (config.connectLane ℓ (connections ℓ)))
    connections
  (config.sidewalkApproach i).foldl
    (fun connections ℓ =>
      Function.update connections ℓ (config.connectSidewalk i ℓ (connections ℓ)))
    connections

/-- The connections of each lane that `map_signal_group` leaves. -/
def mapSignalGroup : ℕ → List MapConnection :=
  (List.range compassNum).foldl config.connectApproach fun _ => []

end MapConfig

end AdaptiveSignal.Signal
