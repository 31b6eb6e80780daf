import AdaptiveSignal.Foundation.FloatFormat
import Mathlib.Data.List.Infix
import Mathlib.Data.UInt
import Mathlib.Logic.Function.Basic

/-! # The configuration file

The configuration is read line by line: a line is searched for the name of each key,
and the value after the name is scanned. An accepted change of the strategy writes the
running configuration over the file.
-/

namespace AdaptiveSignal.Configuration

open Foundation

/-! ## The configuration -/

inductive Manufacturer
  | chengLong
  | shanZhu
  | shanZhuM
  deriving DecidableEq

inductive Baseline
  | notSet
  | zeroHourZeroMin
  | dailySegment
  deriving DecidableEq

/-- The fields of type `bool`. -/
inductive Flag
  | signalStatusReportActive
  | signalAdjustUpperBoundActive
  | signalAdjustLowerBoundActive
  | logMiddlewareTimerEvent
  | logApplicationRegisterEvent
  | logCommandBuffer
  | logSignalPacketRx
  | logSignalPacketTx
  | logSignalPacketInfo
  | logCloudPacketRx
  | logCloudPacketTx
  | logObuPacketRx
  | logObuPacketTx
  | logObuList
  | pedCountdownSend
  deriving DecidableEq

abbrev rsuNameMaxLen : ℕ := 10
abbrev phaseCountMaxNum : ℕ := 8

/-- A character that does not end a name between quotes. -/
def isQuotable (c : Char) : Bool := c ≠ '"' && c ≠ '\n'

/-- A name that can stand between quotes. -/
structure RsuName where
  chars : List Char
  nonempty : chars ≠ []
  short : chars.length ≤ rsuNameMaxLen
  quotable : chars.all isQuotable = true
  deriving DecidableEq

section Formats

variable (single : SingleFormat) (double : DoubleFormat)

/-- A `float` that is not negative. -/
abbrev Amount : Type := { x : single.Value // 0 ≤ single.toRat x }

abbrev Latitude : Type := { x : double.Value // -90 ≤ double.toRat x ∧ double.toRat x ≤ 90 }

abbrev Longitude : Type := { x : double.Value // -180 < double.toRat x ∧ double.toRat x ≤ 180 }

@[ext] structure Config where
  rsuName : RsuName
  rsuId : UInt32
  rsuRegion : { n : UInt32 // n ≤ 65535 }
  rsuLat : Latitude double
  rsuLon : Longitude double
  signalControllerManufacturer : Manufacturer
  signalAdjustUpperBoundPercentage : Amount single
  signalAdjustLowerBoundPercentage : Amount single
  trafficCompensationMethod : UInt8
  trafficCompensationBaseline : Baseline
  trafficCompensationCycleNumber : UInt8
  phaseWeight : Fin phaseCountMaxNum → Amount single
  cmsNumber : UInt8
  flag : Flag → Bool

end Formats

variable {single : SingleFormat} {double : DoubleFormat}

/-! ## Keys -/

inductive Key
  | rsuName
  | rsuId
  | rsuRegion
  | rsuLat
  | rsuLon
  | signalControllerManufacturer
  | signalAdjustUpperBoundPercentage
  | signalAdjustLowerBoundPercentage
  | trafficCompensationMethod
  | trafficCompensationBaseline
  | trafficCompensationCycleNumber
  | phaseWeight
  | cmsNumber
  | flag (flag : Flag)
  deriving DecidableEq

def Flag.name : Flag → String
  | signalStatusReportActive => "SIGNAL_STATUS_REPORT_ACTIVE"
  | signalAdjustUpperBoundActive => "SIGNAL_ADJUST_UPPER_BOUND_ACTVE"
  | signalAdjustLowerBoundActive => "SIGNAL_ADJUST_LOWER_BOUND_ACTVE"
  | logMiddlewareTimerEvent => "LOG_MIDDLEWARE_TIMER_EVENT"
  | logApplicationRegisterEvent => "LOG_APPLICATION_REGISTER_EVENT"
  | logCommandBuffer => "LOG_COMMAND_BUFFER"
  | logSignalPacketRx => "LOG_SIGNAL_PACKET_RX"
  | logSignalPacketTx => "LOG_SIGNAL_PACKET_TX"
  | logSignalPacketInfo => "LOG_SIGNAL_PACKET_INFO"
  | logCloudPacketRx => "LOG_CLOUD_PACKET_RX"
  | logCloudPacketTx => "LOG_CLOUD_PACKET_TX"
  | logObuPacketRx => "LOG_OBU_PACKET_RX"
  | logObuPacketTx => "LOG_OBU_PACKET_TX"
  | logObuList => "LOG_OBU_LIST"
  | pedCountdownSend => "PED_COUNTDOWN_SEND"

def Key.name : Key → String
  | rsuName => "RSU_NAME"
  | rsuId => "RSU_id"
  | rsuRegion => "RSU_region"
  | rsuLat => "RSU_LAT"
  | rsuLon => "RSU_LON"
  | signalControllerManufacturer => "SIGNAL_CONTROLLER_MANUFACTURER"
  | signalAdjustUpperBoundPercentage => "SIGNAL_ADJUST_UPPER_BOUND_PERCENTAGE"
  | signalAdjustLowerBoundPercentage => "SIGNAL_ADJUST_LOWER_BOUND_PERCENTAGE"
  | trafficCompensationMethod => "TRAFFIC_COMPENSATION_METHOD"
  | trafficCompensationBaseline => "TRAFFIC_COMPENSATION_BASELINE"
  | trafficCompensationCycleNumber => "TRAFFIC_COMPENSATION_CYCLE_NUMBER"
  | phaseWeight => "PHASE_WEIGHT"
  | cmsNumber => "CMS_NUMBER"
  | flag f => f.name

/-- The keys, in the order in which a line is searched for them. -/
def Key.all : List Key :=
  [rsuName, rsuId, rsuRegion, rsuLat, rsuLon, signalControllerManufacturer,
    flag .signalStatusReportActive, flag .signalAdjustUpperBoundActive,
    flag .signalAdjustLowerBoundActive, signalAdjustUpperBoundPercentage,
    signalAdjustLowerBoundPercentage, trafficCompensationMethod, trafficCompensationBaseline,
    trafficCompensationCycleNumber, phaseWeight, cmsNumber, flag .logMiddlewareTimerEvent,
    flag .logApplicationRegisterEvent, flag .logCommandBuffer, flag .logSignalPacketRx,
    flag .logSignalPacketTx, flag .logSignalPacketInfo, flag .logCloudPacketRx,
    flag .logCloudPacketTx, flag .logObuPacketRx, flag .logObuPacketTx, flag .logObuList,
    flag .pedCountdownSend]

/-! ## Return codes -/

def configAccept : ℤ := 0
def configInvalidRsuName : ℤ := -1
def configInvalidRsuLat : ℤ := -3
def configInvalidRsuLon : ℤ := -4
def configInvalidSignalControllerManufacturer : ℤ := -5
def configInvalidSignalAdjustUpperBoundPercentage : ℤ := -9
def configInvalidSignalAdjustLowerBoundPercentage : ℤ := -10
def configInvalidTrafficCompensationMethod : ℤ := -22
def configInvalidPhaseWeight : ℤ := -23
def configInvalidTrafficCompensationCycleNumber : ℤ := -24
def configInvalidCmsNumber : ℤ := -25
def configInvalidOpenFile : ℤ := -99

/-- `CONFIG_INVALID_` and the name of the flag. -/
def Flag.invalid : Flag → ℤ
  | signalStatusReportActive => -6
  | signalAdjustUpperBoundActive => -7
  | signalAdjustLowerBoundActive => -8
  | logMiddlewareTimerEvent => -11
  | logApplicationRegisterEvent => -12
  | logCommandBuffer => -13
  | logSignalPacketRx => -14
  | logSignalPacketTx => -15
  | logSignalPacketInfo => -16
  | logCloudPacketRx => -17
  | logCloudPacketTx => -18
  | logObuPacketRx => -19
  | logObuPacketTx => -20
  | logObuList => -21
  | pedCountdownSend => -26

/-! ## Scanning a line -/

/-- `%s`: the characters up to the next space. -/
def scanWord (s : List Char) : Option (List Char × List Char) :=
  let s := skipSpace s
  let word := s.takeWhile fun c => !isSpace c
  if word = [] then none else some (word, s.dropWhile fun c => !isSpace c)

/-- `%hhd` after the name of the key. -/
def readUint8 (line : List Char) : Option UInt8 := do
  let (_, s) ← scanWord line
  let (n, _) ← scanInt s
  return UInt8.ofInt n

/-- `%u` after the name of the key. -/
def readUint32 (line : List Char) : Option UInt32 := do
  let (_, s) ← scanWord line
  let (n, _) ← scanInt s
  return UInt32.ofInt n

/-- `%f` or `%lf` after the name of the key. -/
def readDecimal (line : List Char) : Option ℚ := do
  let (_, s) ← scanWord line
  let (q, _) ← scanDecimal s
  return q

def readDecimals (count : ℕ) (line : List Char) : Option (List ℚ) := do
  let (_, s) ← scanWord line
  scanDecimals count s

def readString (line : List Char) : Option (List Char) := do
  let (_, s) ← scanWord line
  let (word, _) ← scanWord s
  return word

/-- `%s "%[^"\n]"`. -/
def readName (line : List Char) : Option (List Char) := do
  let (_, s) ← scanWord line
  match skipSpace s with
  | '"' :: s =>
      let name := s.takeWhile isQuotable
      if name = [] then none else some name
  | _ => none

def atoi (s : List Char) : ℤ :=
  match scanInt s with
  | some (n, _) => n
  | none => 0

/-- A name that is not too long; what was scanned between quotes is a name. -/
def RsuName.ofChars (chars : List Char) : Option RsuName :=
  if h : chars ≠ [] ∧ chars.length ≤ rsuNameMaxLen ∧ chars.all isQuotable = true then
    some ⟨chars, h.1, h.2.1, h.2.2⟩
  else none

/-! ## Reading -/

/-- What becomes of a line at a key that it has. -/
inductive Outcome (Config : Type)
  /-- The next line is read. -/
  | next (config : Config)
  /-- The line is searched for the keys that follow. -/
  | on (config : Config)
  | fail (code : ℤ) (config : Config)

/-- The loop over the weights. -/
def assignWeights (weights : Fin phaseCountMaxNum → single.Value) :
    List (Fin phaseCountMaxNum) → Config single double → Outcome (Config single double)
  | [], config => .next config
  | i :: rest, config =>
      if h : 0 ≤ single.toRat (weights i) then
        assignWeights weights rest
          { config with phaseWeight := Function.update config.phaseWeight i ⟨weights i, h⟩ }
      else .fail configInvalidPhaseWeight config

def readKey (key : Key) (line : List Char) (config : Config single double) :
    Outcome (Config single double) :=
  match key with
  | .rsuName =>
      match (readName line).bind RsuName.ofChars with
      | some name =>
          .next { config with
            rsuName := name
            rsuId := UInt32.ofInt (atoi ((name.chars.drop 1).take 4)) }
      | none => .fail configInvalidRsuName config
  | .rsuId =>
      match readUint32 line with
      | some n =>
          if n ≤ 65535 then .on { config with rsuId := n } else .fail configInvalidRsuName config
      | none => .fail configInvalidRsuName config
  | .rsuRegion =>
      match readUint32 line with
      | some n =>
          if h : n ≤ 65535 then .on { config with rsuRegion := ⟨n, h⟩ }
          else .fail configInvalidRsuName config
      | none => .fail configInvalidRsuName config
  | .rsuLat =>
      match readDecimal line with
      | some q =>
          let x := double.nearest q
          if h : -90 ≤ double.toRat x ∧ double.toRat x ≤ 90 then
            .next { config with rsuLat := ⟨x, h⟩ }
          else .fail configInvalidRsuLat config
      | none => .fail configInvalidRsuLat config
  | .rsuLon =>
      match readDecimal line with
      | some q =>
          let x := double.nearest q
          if h : -180 < double.toRat x ∧ double.toRat x ≤ 180 then
            .next { config with rsuLon := ⟨x, h⟩ }
          else .fail configInvalidRsuLon config
      | none => .fail configInvalidRsuLon config
  | .signalControllerManufacturer =>
      match readString line with
      | some word =>
          if word = "cheng_long".toList then
            .next { config with signalControllerManufacturer := .chengLong }
          else if word = "shan_zhu".toList then
            .next { config with signalControllerManufacturer := .shanZhu }
          else if word = "shan_zhu_m".toList then
            .on { config with signalControllerManufacturer := .shanZhuM }
          else .fail configInvalidSignalControllerManufacturer config
      | none => .fail configInvalidSignalControllerManufacturer config
  | .signalAdjustUpperBoundPercentage =>
      match readDecimal line with
      | some q =>
          let x := single.nearest q
          if h : 0 ≤ single.toRat x then
            .next { config with signalAdjustUpperBoundPercentage := ⟨x, h⟩ }
          else .fail configInvalidSignalAdjustUpperBoundPercentage config
      | none => .fail configInvalidSignalAdjustUpperBoundPercentage config
  | .signalAdjustLowerBoundPercentage =>
      match readDecimal line with
      | some q =>
          let x := single.nearest q
          if h : 0 ≤ single.toRat x then
            .next { config with signalAdjustLowerBoundPercentage := ⟨x, h⟩ }
          else .fail configInvalidSignalAdjustLowerBoundPercentage config
      | none => .fail configInvalidSignalAdjustLowerBoundPercentage config
  | .trafficCompensationMethod =>
      match readUint8 line with
      | some n => .next { config with trafficCompensationMethod := n }
      | none => .fail configInvalidTrafficCompensationMethod config
  | .trafficCompensationBaseline =>
      match readString line with
      | some word =>
          if word = "ZERO_HOUR_ZERO_MIN_BASELINE".toList then
            .next { config with trafficCompensationBaseline := .zeroHourZeroMin }
          else if word = "DAILY_SEGMENT_BASELINE".toList then
            .next { config with trafficCompensationBaseline := .dailySegment }
          else .fail configInvalidSignalControllerManufacturer config
      | none => .fail configInvalidSignalControllerManufacturer config
  | .trafficCompensationCycleNumber =>
      match readUint8 line with
      | some n => .next { config with trafficCompensationCycleNumber := n }
      | none => .fail configInvalidTrafficCompensationCycleNumber config
  | .phaseWeight =>
      match readDecimals phaseCountMaxNum line with
      | some qs =>
          assignWeights (fun i => single.nearest (qs.getD i 0)) (List.finRange phaseCountMaxNum)
            config
      | none => .fail configInvalidPhaseWeight config
  | .cmsNumber =>
      match readUint8 line with
      | some n => .next { config with cmsNumber := n }
      | none => .fail configInvalidCmsNumber config
  | .flag flag =>
      match readString line with
      | some word =>
          if word = "yes".toList then
            .next { config with flag := Function.update config.flag flag true }
          else if word = "no".toList then
            .next { config with flag := Function.update config.flag flag false }
          else .fail flag.invalid config
      | none => .fail flag.invalid config

/-- `strstr(line, key)`. -/
def strstr (line key : List Char) : Bool := key <:+: line

def readKeys (line : List Char) : List Key → Config single double → Outcome (Config single double)
  | [], config => .next config
  | key :: keys, config =>
      if strstr line (key.name.toList ++ [' ']) then
        match readKey key line config with
        | .next config => .next config
        | .on config => readKeys line keys config
        | .fail code config => .fail code config
      else readKeys line keys config

def readLine (line : List Char) (config : Config single double) :
    Outcome (Config single double) :=
  if line.head? = some '#' ∨ line.head? = some '\n' ∨ line.head? = some ' ' then .next config
  else readKeys line Key.all config

abbrev configLineBufferSize : ℕ := 256

/-- `fgets` of at most so many characters, and the rest of the file. -/
def fgets : ℕ → List Char → List Char × List Char
  | 0, file => ([], file)
  | _ + 1, [] => ([], [])
  | size + 1, c :: file =>
      if c = '\n' then ([c], file)
      else (c :: (fgets size file).1, (fgets size file).2)

theorem fgets_length (size : ℕ) (file : List Char) :
    (fgets size file).1.length + (fgets size file).2.length = file.length := by
  induction size generalizing file with
  | zero => simp [fgets]
  | succ size ih =>
      cases file with
      | nil => rfl
      | cons c file =>
          rw [fgets]
          split_ifs with hc
          · simp [Nat.add_comm]
          · have hrest := ih file
            simp only [List.length_cons]
            omega

theorem fgets_ne_nil {size : ℕ} {file : List Char} (hsize : 0 < size) (hfile : file ≠ []) :
    (fgets size file).1 ≠ [] := by
  obtain ⟨size, rfl⟩ := Nat.exists_eq_succ_of_ne_zero hsize.ne'
  obtain ⟨c, file, rfl⟩ := List.exists_cons_of_ne_nil hfile
  rw [fgets]
  split_ifs <;> exact List.cons_ne_nil _ _

theorem fgets_rest_length_lt {size : ℕ} {file : List Char} (hsize : 0 < size)
    (hfile : file ≠ []) : (fgets size file).2.length < file.length := by
  have hlength := fgets_length size file
  have hpos := List.length_pos_of_ne_nil (fgets_ne_nil hsize hfile)
  omega

/-- Reading a line ran into the end of the file. -/
def reachesEnd (line rest : List Char) : Bool :=
  rest = [] && line.length < configLineBufferSize - 1 && line.getLast? ≠ some '\n'

/-- The loop until the end of the file was seen. At the end `fgets` leaves the line in the
buffer as it is, and it is read once more. -/
def readLoop (line file : List Char) (config : Config single double) : ℤ × Config single double :=
  if _ : file = [] then
    match readLine line config with
    | .next config => (configAccept, config)
    | .on config => (configAccept, config)
    | .fail code config => (code, config)
  else
    let next := fgets (configLineBufferSize - 1) file
    match readLine next.1 config with
    | .next config =>
        if reachesEnd next.1 next.2 then (configAccept, config) else readLoop next.1 next.2 config
    | .on config =>
        if reachesEnd next.1 next.2 then (configAccept, config) else readLoop next.1 next.2 config
    | .fail code config => (code, config)
termination_by file.length
decreasing_by
  all_goals exact fgets_rest_length_lt (by decide) ‹_›

/-- `config_init`; `line` is what lies in the buffer at first. -/
def configInit (line : List Char) (file : Option (List Char)) (config : Config single double) :
    ℤ × Config single double :=
  match file with
  | none => (configInvalidOpenFile, config)
  | some file => readLoop line file config

end AdaptiveSignal.Configuration
