import AdaptiveSignal.Foundation.CString
import AdaptiveSignal.Network.ByteProcessing
import AdaptiveSignal.Network.ClientBuffer

/-! # Parsers of inbound packets

A packet of the cloud announces its length, one of the cameras how many records
follow its header. The handlers take the announced number and do not look at the
length of the message.
-/

namespace AdaptiveSignal.Network

open Foundation

/-- The codes that refuse a packet. -/
inductive PacketProcessingErr
  | invalidPacketLen
  | invalidDeviceType
  | invalidRsuName
  | invalidSeviceId
  deriving DecidableEq

inductive Outcome (Packet : Type)
  | refused (err : PacketProcessingErr)
  /-- The packet is passed on to the callbacks. -/
  | delivered (packet : Packet)
  /-- `exit(errno)`. -/
  | exits

/-- What a handler makes of a message, and the places of the message that it reads. -/
structure Handled (Packet : Type) where
  outcome : Outcome Packet
  reads : List Place

/-- A copy of the first bytes of a message, with what lies in memory behind the copy. -/
def MsgBuf.copyOf (msg : MsgObj) (len : ℕ) (heap : ℕ → UInt8) : MsgBuf where
  content i := if i < len then msg.msg i else heap i
  index := 0
  reads := [⟨0, len⟩]

/-! ## Packets of the cloud -/

def c2rCommonFieldLen : ℕ := 35

def rsuNameMaxLen : ℕ := 10

def timestampLen : ℕ := 19

/-- `DEVICE_TYPE_NUMBER`: on-board units, roadside units and the cloud. -/
def deviceTypeNumber : ℕ := 3

structure C2RCommonField where
  packetLen : ℕ
  deviceType : ℕ
  rsuName : List UInt8
  timestamp : List UInt8
  serviceId : ℕ

/-- The payload for the applications with a service id. -/
structure C2RAppSection where
  serviceId : ℕ
  payloadLen : ℕ
  payload : List UInt8

def readCommonField : StateM MsgBuf C2RCommonField := do
  let packetLen ← readUInt32
  let deviceType ← readUInt8
  let rsuName ← readChar rsuNameMaxLen
  let timestamp ← readChar timestampLen
  let serviceId ← readUInt8
  return { packetLen, deviceType, rsuName, timestamp, serviceId }

/-- The checks of a header; names are compared as by `strncmp`. -/
def C2RCommonField.invalid (field : C2RCommonField) (rsuName : List UInt8) :
    Option PacketProcessingErr :=
  if field.packetLen < c2rCommonFieldLen then some .invalidPacketLen
  else if deviceTypeNumber ≤ field.deviceType then some .invalidDeviceType
  else if cString (field.rsuName.take rsuNameMaxLen) ≠ cString (rsuName.take rsuNameMaxLen) then
    some .invalidRsuName
  else if field.serviceId < 1 then some .invalidSeviceId
  else none

/-- `cloud_packet_rx_event_handler`, with the name that is configured. -/
def cloudPacketRxEventHandler (rsuName : List UInt8) (heap : ℕ → UInt8) (msg : MsgObj) :
    Handled C2RAppSection :=
  let (commonField, readBuf) := readCommonField (.copyOf msg c2rCommonFieldLen heap)
  match commonField.invalid rsuName with
  | some err => ⟨.refused err, readBuf.reads⟩
  | none =>
      -- The payload is copied out of the message, not out of the copy.
      let payloadLen := commonField.packetLen - c2rCommonFieldLen
      let payload := (List.range payloadLen).map fun i => msg.msg (readBuf.index.toNat + i)
      ⟨.delivered ⟨commonField.serviceId, payloadLen, payload⟩,
        readBuf.reads ++ [⟨readBuf.index.toNat, payloadLen⟩]⟩

/-! ## Packets of the cameras -/

/-- A handler of packets with a header and a table of records behind it. -/
def tableRxEventHandler {Header Record Packet : Type} (readHeader : StateM MsgBuf Header)
    (count : Header → ℕ) (allocated : Header → Bool) (readRecord : Header → StateM MsgBuf Record)
    (packet : Header → List Record → Packet) (heap : ℕ → UInt8) (msg : MsgObj) : Handled Packet :=
  let (header, readBuf) := readHeader (.copyOf msg msg.msgLen heap)
  if allocated header then
    let (tab, readBuf) :=
      (List.replicate (count header) ()).mapM (fun _ => readRecord header) readBuf
    ⟨.delivered (packet header tab), readBuf.reads⟩
  else ⟨.exits, readBuf.reads⟩

structure PedestrianHeader where
  deviceNum : ℕ
  cameraNo : ℕ
  hour : ℕ
  min : ℕ
  second : ℕ
  count : ℕ

/-- A record of the packet; `calloc` leaves the other fields zero. -/
structure Pedestrian where
  personId : ℕ
  waiting : ℕ
  cx : ℕ
  cy : ℕ
  direction : ℕ

structure PedestrianList where
  tab : List Pedestrian
  count : ℕ
  cameraNo : ℕ
  deviceNum : ℕ

def readPedestrianHeader : StateM MsgBuf PedestrianHeader := do
  let deviceNum ← readUInt32
  let cameraNo ← readUInt32
  let hour ← readUInt32
  let min ← readUInt32
  let second ← readFloat
  let count ← readUInt32
  return { deviceNum, cameraNo, hour, min, second, count }

def readPedestrian : StateM MsgBuf Pedestrian := do
  let personId ← readUInt8
  let cx ← readUInt16
  let cy ← readUInt16
  let direction ← readUInt8
  return { personId, waiting := 0, cx, cy, direction }

def pedestrianPacketRxEventHandler : (ℕ → UInt8) → MsgObj → Handled PedestrianList :=
  tableRxEventHandler readPedestrianHeader PedestrianHeader.count (fun _ => true)
    (fun _ => readPedestrian)
    fun header tab =>
      { tab, count := header.count, cameraNo := header.cameraNo, deviceNum := header.deviceNum }

structure ObstacleHeader where
  deviceNum : ℕ
  dirct : ℕ
  hour : ℕ
  min : ℕ
  second : ℕ
  count : ℕ

structure Obstacle where
  laneID : ℕ
  obstacleID : ℕ
  lat : ℕ
  long : ℕ
  elev : ℕ
  width : ℕ
  length : ℕ
  description : ℕ
  speed : ℕ
  hour : ℕ
  minute : ℕ
  second : ℕ

structure ObstacleList where
  tab : List Obstacle
  dirct : ℕ
  count : ℕ
  deviceNum : ℕ

def readObstacleHeader : StateM MsgBuf ObstacleHeader := do
  let deviceNum ← readUInt32
  let dirct ← readUInt32
  let hour ← readUInt32
  let min ← readUInt32
  let second ← readFloat
  let count ← readUInt32
  return { deviceNum, dirct, hour, min, second, count }

/-- The speed is read twice, and the second one stays. -/
def readObstacle (header : ObstacleHeader) : StateM MsgBuf Obstacle := do
  let lat ← readDouble
  let long ← readDouble
  let elev ← readDouble
  let laneID ← readUInt32
  let obstacleID ← readUInt32
  let description ← readUInt32
  let length ← readFloat
  let width ← readFloat
  skipBytes 16
  let _speed ← readUInt32
  let speed ← readUInt32
  return { laneID, obstacleID, lat, long, elev, width, length, description, speed
           hour := header.hour, minute := header.min, second := header.second }

/-- The count is signed: as the size of a table, a negative one is beyond all memory. -/
def smartAVIPacketRxEventHandler : (ℕ → UInt8) → MsgObj → Handled ObstacleList :=
  tableRxEventHandler readObstacleHeader ObstacleHeader.count
    (fun header => decide (header.count < 2 ^ 31)) readObstacle
    fun header tab =>
      { tab, dirct := header.dirct, count := header.count, deviceNum := header.deviceNum }

end AdaptiveSignal.Network
