import AdaptiveSignal.CommandBuffer.Polling
import AdaptiveSignal.Foundation.KeyedList

/-! # Host vehicles of the two priority applications

Each application lists the vehicles it acts for by name. An emergency vehicle
is listed from its first touch of a touching area on and counts as activated
after enough further touches; a bus is listed while the cloud requests priority
for it. A vehicle that left is kept out of its touching area for a while.
-/

namespace AdaptiveSignal.Signal

open Foundation

/-- The part of a vehicle name that the lists store and compare. -/
def HostName.obuName (name : HostName) : HostName where
  chars := name.chars.take obuNameMaxLen
  fits := Nat.le_trans (List.length_take_le _ _) (by decide)

/-- The lists compare names as the source does, by the first ten characters. -/
theorem obuName_obuName (name : HostName) : name.obuName.obuName = name.obuName := by
  simp [HostName.obuName, List.take_take]

/-! ## Touching areas -/

structure EvspTouchingArea where
  touchingAreaId : UInt32
  terminateAreaIds : List UInt32
  deriving DecidableEq

structure EvspPlanSubPhase where
  subPhaseId : UInt8
  touchingAreas : List EvspTouchingArea

/-- The touching areas of the subphases, under the plans that share them. -/
structure EvspPlanTable where
  planIds : List UInt8
  planSubPhases : List EvspPlanSubPhase

structure EvspConfig where
  touchingThreshold : UInt8
  coolingTime : UInt32
  planTables : List EvspPlanTable

/-- `EVSP_plan_table_search`. -/
def EvspConfig.planTableSearch (config : EvspConfig) (planId : UInt8) : Option EvspPlanTable :=
  config.planTables.find? fun table => table.planIds.contains planId

/-- `EVSP_activate`: the first touching area of the plan that the vehicle is in,
with its subphase. `inside` lists the areas that contain position and direction. -/
def EvspPlanTable.activate (table : EvspPlanTable) (inside : List UInt32) :
    Option (UInt8 × EvspTouchingArea) :=
  table.planSubPhases.findSome? fun subPhase =>
    (subPhase.touchingAreas.find? fun area => inside.contains area.touchingAreaId).map
      fun area => (subPhase.subPhaseId, area)

/-- `EVSP_terminate`: the first terminate area of the touching area that the
vehicle is in. -/
def EvspTouchingArea.terminate (area : EvspTouchingArea) (inside : List UInt32) :
    Option UInt32 :=
  area.terminateAreaIds.find? inside.contains

/-! ## Emergency vehicles -/

/-- `isActivate` is 1 before activation and 2 after. -/
structure EvspHostObu where
  obuName : HostName
  targetPhase : UInt8
  area : EvspTouchingArea
  touchedAmount : UInt8
  isActivate : UInt8
  deriving DecidableEq

def EvspHostObu.key (host : EvspHostObu) : HostName := host.obuName.obuName

abbrev EvspHostObuList := KeyedList EvspHostObu HostName EvspHostObu.key

structure EvspObuUpdateInfo where
  isTouching : UInt8
  isActivate : UInt8
  deriving DecidableEq

/-- `EVSP_host_OBU_obj_new`, with room for the name only up to its length. -/
def EvspHostObu.new (obuName : HostName) (targetPhase : UInt8) (area : EvspTouchingArea) :
    EvspHostObu where
  obuName := obuName.obuName
  targetPhase := targetPhase
  area := area
  touchedAmount := 0
  isActivate := 0

/-- `EVSP_host_OBU_obj_update`. -/
def EvspHostObu.update (info : EvspObuUpdateInfo) (host : EvspHostObu) : EvspHostObu :=
  { host with
    touchedAmount :=
      if info.isTouching = 1 then host.touchedAmount + 1 else host.touchedAmount
    isActivate := if info.isActivate ≠ 0 then info.isActivate else host.isActivate }

/-- `EVSP_host_OBU_obj_insert`: a listed vehicle keeps target phase and area. -/
def EvspHostObuList.insertObu (hosts : EvspHostObuList) (obuName : HostName) (targetPhase : UInt8)
    (area : EvspTouchingArea) (info : EvspObuUpdateInfo) : EvspHostObuList :=
  hosts.insert (.new obuName targetPhase area) (EvspHostObu.update info) fun _ => rfl

/-- The update `EVSP_host_OBU_obj_search` makes on its way. -/
def EvspHostObuList.seen (hosts : EvspHostObuList) (obuName : HostName)
    (info : EvspObuUpdateInfo) : EvspHostObuList :=
  KeyedList.update hosts obuName.obuName (EvspHostObu.update info) fun _ => rfl

theorem insertObu_search {hosts : EvspHostObuList} (obuName : HostName) (targetPhase : UInt8)
    (area : EvspTouchingArea) (info : EvspObuUpdateInfo) (key : HostName) :
    KeyedList.search (hosts.insertObu obuName targetPhase area info) key =
      if key = obuName.obuName then
        some (((KeyedList.search hosts key).getD (.new obuName targetPhase area)).update info)
      else KeyedList.search hosts key := by
  have hinsert := @KeyedList.search_insert _ _ _ _ hosts
    (.new obuName targetPhase area) (EvspHostObu.update info) (fun _ => rfl) key
  have hnew : (EvspHostObu.new obuName targetPhase area).key = obuName.obuName :=
    obuName_obuName obuName
  rwa [hnew] at hinsert

theorem seen_search {hosts : EvspHostObuList} (obuName : HostName) (info : EvspObuUpdateInfo)
    (key : HostName) :
    KeyedList.search (hosts.seen obuName info) key =
      if key = obuName.obuName then (KeyedList.search hosts key).map (EvspHostObu.update info)
      else KeyedList.search hosts key :=
  KeyedList.search_update (f := EvspHostObu.update info) (fun _ => rfl) key

/-- `EVSP_host_OBU_obj_resume`: no vehicle is left for the phase. -/
def EvspHostObuList.resume (hosts : EvspHostObuList) (targetPhase : UInt8) : Bool :=
  !hosts.entries.any fun host => host.targetPhase = targetPhase

/-- The vehicles that count. -/
def EvspHostObu.activated (host : EvspHostObu) : Bool := host.isActivate = 2

@[simp] theorem update_activated_of_idle (isTouching : UInt8) (host : EvspHostObu) :
    (host.update ⟨isTouching, 0⟩).activated = host.activated := rfl

/-! ## Vehicles that left -/

structure EvspCoolingInfo where
  obuName : HostName
  touchingAreaId : UInt32
  terminateTime : Int
  deriving DecidableEq

def EvspCoolingInfo.expired (info : EvspCoolingInfo) (config : EvspConfig) (now : Int) : Bool :=
  config.coolingTime.toNat < now - info.terminateTime

/-- `EVSP_cooling_list_insert`. It gives the arguments of `list_add_tail` the other way
around: the head is put into the new list of the entry, and the entries it had are lost. -/
def coolingListInsert (obuName : HostName) (area : EvspTouchingArea) (now : Int) :
    List EvspCoolingInfo :=
  [⟨obuName.obuName, area.touchingAreaId, now⟩]

/-- The entry keeps a vehicle of this name from the touching area. -/
def EvspCoolingInfo.isFor (info : EvspCoolingInfo) (obuName : HostName)
    (area : EvspTouchingArea) : Bool :=
  strncmpEq obuNameMaxLen info.obuName obuName && info.touchingAreaId = area.touchingAreaId

/-- The answer of `EVSP_cooling_list_search`, which drops what has expired. -/
def coolingListSearch (cooling : List EvspCoolingInfo) (config : EvspConfig) (now : Int)
    (obuName : HostName) (area : EvspTouchingArea) : Bool :=
  cooling.any fun info => !info.expired config now && info.isFor obuName area

def coolingListExpire (cooling : List EvspCoolingInfo) (config : EvspConfig) (now : Int) :
    List EvspCoolingInfo :=
  cooling.filter fun info => !info.expired config now

/-! ## Buses -/

structure TspHostObu where
  obuName : HostName
  targetPhase : UInt8
  deriving DecidableEq

def TspHostObu.key (host : TspHostObu) : HostName := host.obuName.obuName

abbrev TspHostObuList := KeyedList TspHostObu HostName TspHostObu.key

/-- `TSP_host_OBU_obj_new`. -/
def TspHostObu.new (obuName : HostName) (targetPhase : UInt8) : TspHostObu where
  obuName := obuName.obuName
  targetPhase := targetPhase

/-- The list update of `TSP_host_OBU_obj_insert`: for a listed bus only its
timer starts again. -/
def TspHostObuList.insertObu (hosts : TspHostObuList) (obuName : HostName) (targetPhase : UInt8) :
    TspHostObuList :=
  hosts.insert (.new obuName targetPhase) id fun _ => rfl

/-- The bounds a percentage of the planned green puts on an adjustment, where
they are active. The percentages are floating point numbers. -/
structure AdjustBounds where
  lower : Option (UInt16 → Int16)
  upper : Option (UInt16 → Int16)

def AdjustBounds.minGreen (bounds : AdjustBounds) (plan : StaticPlan) : UInt16 :=
  match bounds.lower with
  | some lower =>
      let lower := lower plan.preTimeCompensated
      if plan.minGreen.toNat < lower.toInt then lower.toUInt16 else plan.minGreen.toUInt16
  | none => plan.minGreen.toUInt16

def AdjustBounds.maxGreen (bounds : AdjustBounds) (plan : StaticPlan) : UInt16 :=
  match bounds.upper with
  | some upper =>
      let upper := upper plan.preTimeCompensated
      if upper.toInt < plan.maxGreen.toNat then upper.toUInt16 else plan.maxGreen
  | none => plan.maxGreen

/-- A relative adjustment is made absolute and inserted. -/
def Middleware.commandBufInsertAdjustment (s : Middleware) (bounds : AdjustBounds)
    (command : TscCommand) (adjustment : Int8) : CommandBufErr × Middleware :=
  if s.isInCompensation then (.incompTspDoNothing, s)
  else if adjustment = 0 then (.invalidAdjustment, s)
  else
    let plan := s.status.plan command.phase
    let minGreen := bounds.minGreen plan
    let maxGreen := bounds.maxGreen plan
    let adjustedTime := (s.target command).adjustedTime
    let effectTime : Int16 :=
      if adjustedTime = 0 then Int16.ofInt (plan.preTimeCompensated.toNat + adjustment.toInt)
      else Int16.ofInt (adjustedTime.toNat + adjustment.toInt)
    let effectTime := if effectTime.toInt < minGreen.toNat then minGreen.toInt16 else effectTime
    let effectTime := if maxGreen.toNat < effectTime.toInt then maxGreen.toInt16 else effectTime
    s.commandBufInsertEffectTime { command with effectTime := effectTime }

/-- The cycle in which a target phase comes next. -/
def TrafficSignalStatus.cycleOfTarget (status : TrafficSignalStatus) (targetPhase : UInt8) :
    UInt8 :=
  if targetPhase = status.subPhaseId then if status.stepId = 1 then 0 else 1
  else if status.subPhaseId < targetPhase then 0
  else 1

/-- `TSP_host_OBU_obj_first_insert`: one more second for a new bus. -/
def Middleware.tspFirstInsert (s : Middleware) (bounds : AdjustBounds) (obuName : HostName)
    (targetPhase : UInt8) : Middleware :=
  if s.status.subPhaseId = 0 then s
  else
    (s.commandBufInsertAdjustment bounds
      { appId := tspId
        appPriority := 2
        targetPhase := targetPhase
        cycle := s.status.cycleOfTarget targetPhase
        phase := targetPhase
        effectTime := 0
        hostObuName := obuName.obuName } 1).2

end AdaptiveSignal.Signal
