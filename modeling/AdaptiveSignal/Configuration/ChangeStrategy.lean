import AdaptiveSignal.Configuration.File
import Mathlib.Algebra.BigOperators.Fin

/-! # A change of the strategy from the cloud

The command sets the method of the compensation and the number of cycles, and for the
method that has weights the weights. When it is accepted, the whole configuration is
written to the file that is read at the next start.
-/

namespace AdaptiveSignal.Configuration

open Foundation

variable {single : SingleFormat} {double : DoubleFormat}

/-! ## The configuration that is compiled in -/

variable (single) in
def Amount.ofUint8 (n : UInt8) : Amount single :=
  ⟨single.nearest n.toNat, by
    rw [single.nearest_byte n.toNat_lt]
    exact Nat.cast_nonneg _⟩

theorem default_latitude :
    -90 ≤ double.toRat (double.nearest 22.996714) ∧
      double.toRat (double.nearest 22.996714) ≤ 90 := by
  have hnear := double.precise 22.996714 (Or.inr (by norm_num [abs_of_nonneg]))
  obtain ⟨hlow, hhigh⟩ := abs_lt.mp (lt_of_le_of_lt (le_mul_of_one_le_right (abs_nonneg _)
    (by norm_num)) hnear)
  constructor <;> linarith

theorem default_longitude :
    -180 < double.toRat (double.nearest 120.237009) ∧
      double.toRat (double.nearest 120.237009) ≤ 180 := by
  have hnear := double.precise 120.237009 (Or.inr (by norm_num [abs_of_nonneg]))
  obtain ⟨hlow, hhigh⟩ := abs_lt.mp (lt_of_le_of_lt (le_mul_of_one_le_right (abs_nonneg _)
    (by norm_num)) hnear)
  constructor <;> linarith

/-- What `config` is initialised with. -/
def Config.initial : Config single double where
  rsuName := ⟨"S428901   ".toList, by decide, by decide, by decide⟩
  rsuId := 4289
  rsuRegion := ⟨701, by decide⟩
  rsuLat := ⟨double.nearest 22.996714, default_latitude⟩
  rsuLon := ⟨double.nearest 120.237009, default_longitude⟩
  signalControllerManufacturer := .shanZhu
  signalAdjustUpperBoundPercentage := .ofUint8 single 60
  signalAdjustLowerBoundPercentage := .ofUint8 single 60
  trafficCompensationMethod := 0
  trafficCompensationBaseline := .notSet
  trafficCompensationCycleNumber := 1
  phaseWeight := fun _ => .ofUint8 single 0
  cmsNumber := 0
  flag := fun flag => flag ≠ .signalStatusReportActive

/-! ## Writing -/

def line (name : String) (value : List Char) : List Char := name.toList ++ ' ' :: value ++ ['\n']

/-- `%d` of an unsigned integer. -/
def formatUint32 (n : UInt32) : List Char := formatInt n.toInt32.toInt

def formatUint8 (n : UInt8) : List Char := formatInt n.toNat

def yesNo (b : Bool) : List Char := if b then "yes".toList else "no".toList

def Manufacturer.name : Manufacturer → List Char
  | chengLong => "cheng_long".toList
  | shanZhu => "shan_zhu".toList
  | shanZhuM => "shan_zhu_m".toList

/-- `%f`. -/
def formatDouble (x : double.Value) : List Char := formatFixed 6 (double.toRat x)

/-- `%.0f`. -/
def Amount.format (x : Amount single) : List Char := formatFixed 0 (single.toRat x.1)

/-- Amounts with a space in front of each but the first. -/
def formatWeights (weight : Fin phaseCountMaxNum → Amount single) : List Char :=
  (((List.finRange phaseCountMaxNum).map fun i => (weight i).format).intersperse [' ']).flatten

def configLines (config : Config single double) : List (List Char) :=
  [line "RSU_NAME" ('"' :: config.rsuName.chars ++ ['"']),
    line "RSU_id" (formatUint32 config.rsuId),
    line "RSU_region" (formatUint32 config.rsuRegion),
    line "RSU_LAT" (formatDouble config.rsuLat.1),
    line "RSU_LON" (formatDouble config.rsuLon.1),
    line "SIGNAL_CONTROLLER_MANUFACTURER" config.signalControllerManufacturer.name,
    line "SIGNAL_STATUS_REPORT_ACTIVE" (yesNo (config.flag .signalStatusReportActive)),
    line "SIGNAL_ADJUST_UPPER_BOUND_ACTVE" (yesNo (config.flag .signalAdjustUpperBoundActive)),
    line "SIGNAL_ADJUST_LOWER_BOUND_ACTVE" (yesNo (config.flag .signalAdjustLowerBoundActive)),
    line "SIGNAL_ADJUST_UPPER_BOUND_PERCENTAGE" config.signalAdjustUpperBoundPercentage.format,
    line "SIGNAL_ADJUST_LOWER_BOUND_PERCENTAGE" config.signalAdjustLowerBoundPercentage.format,
    line "TRAFFIC_COMPENSATION_METHOD" (formatUint8 config.trafficCompensationMethod),
    line "TRAFFIC_COMPENSATION_CYCLE_NUMBER"
      (if config.trafficCompensationCycleNumber = 1 then "1".toList else "2".toList),
    line "PHASE_WEIGHT" (formatWeights config.phaseWeight),
    line "LOG_MIDDLEWARE_TIMER_EVENT" (yesNo (config.flag .logMiddlewareTimerEvent)),
    line "LOG_APPLICATION_REGISTER_EVENT" (yesNo (config.flag .logApplicationRegisterEvent)),
    line "LOG_COMMAND_BUFFER" (yesNo (config.flag .logCommandBuffer)),
    line "LOG_SIGNAL_PACKET_RX" (yesNo (config.flag .logSignalPacketRx)),
    line "LOG_SIGNAL_PACKET_TX" (yesNo (config.flag .logSignalPacketTx)),
    line "LOG_SIGNAL_PACKET_INFO" (yesNo (config.flag .logSignalPacketInfo)),
    line "LOG_CLOUD_PACKET_RXA" (yesNo (config.flag .logCloudPacketRx)),
    line "LOG_CLOUD_PACKET_TX" (yesNo (config.flag .logCloudPacketTx)),
    line "LOG_OBU_PACKET_RX" (yesNo (config.flag .logObuPacketRx)),
    line "LOG_OBU_PACKET_TX" (yesNo (config.flag .logObuPacketTx)),
    line "LOG_OBU_LIST" (yesNo (config.flag .logObuList))]

/-! ## The command -/

structure Command where
  strategy : UInt8
  cycleNumber : UInt8
  /-- Present when the strategy is 2. -/
  phaseWeight : Fin phaseCountMaxNum → UInt8

def Command.totalWeight (command : Command) : ℕ := ∑ i, (command.phaseWeight i).toNat

/-- The weights are taken, whether or not the command is accepted. -/
def Command.setsWeights (command : Command) : Bool :=
  command.strategy = 2 && command.totalWeight = 100

def Command.accepted (command : Command) : Bool :=
  command.strategy < 4 && 0 < command.cycleNumber && command.cycleNumber < 3

/-- `case 8` of `TSP_on_cloud_packet_rx` and `case 1` of `MMP_on_cloud_packet_rx`, where the
file can be opened: the running configuration, and what is written. -/
def changeStrategy (command : Command) (config : Config single double) :
    Config single double × Option (List Char) :=
  let config :=
    if command.setsWeights then
      { config with phaseWeight := fun i => Amount.ofUint8 single (command.phaseWeight i) }
    else config
  if command.accepted then
    let config := { config with
      trafficCompensationCycleNumber := command.cycleNumber
      trafficCompensationMethod := command.strategy }
    (config, some (configLines config).flatten)
  else (config, none)

end AdaptiveSignal.Configuration
