import AdaptiveSignal.Activation.HostLists
import AdaptiveSignal.Signal.StatusUpdating

/-! # Packets, commands and timeouts of host vehicles

Every handler runs as one step on the state of the intersection: the middleware
together with the vehicle lists of both applications. The threads that optimize
the green of an activated vehicle are outside; they read the lists only.
-/

namespace AdaptiveSignal.Signal

open Foundation

namespace Middleware

/-- The increment of the bus application. -/
def countBus (s : Middleware) : Middleware :=
  { s with activateAmount := s.activateAmount + 1 }

/-- The increment of the emergency application, which declares the counter as
one byte: the low byte wraps by itself. -/
def countEmergency (s : Middleware) : Middleware :=
  { s with activateAmount := s.activateAmount / 256 * 256 + (s.activateAmount + 1) % 256 }

end Middleware

/-! ## Packets of on-board units -/

inductive VehicleType
  | normal
  | ambulance
  | bus
  | fireTruck
  | policeCar
  deriving DecidableEq, Repr

/-- A signal request may list the intersections it is for. -/
inductive ObuMessage
  | basicSafety
  | signalRequest (requests : Option (List UInt32))
  deriving DecidableEq

/-- What the handler reads of a packet. `strayTouching` is what the update
record holds in `is_touching` before anything is written there. -/
structure EvspObuPacket where
  obuName : HostName
  vehicleType : VehicleType
  message : ObuMessage
  strayTouching : UInt8
  touchingAreas : List UInt32
  terminateAreas : List UInt32
  now : Int

/-- An emergency vehicle, and no request for other intersections only. -/
def EvspObuPacket.admitted (packet : EvspObuPacket) (rsuId : UInt32) : Bool :=
  (packet.vehicleType = .ambulance || packet.vehicleType = .fireTruck ||
      packet.vehicleType = .policeCar) &&
    match packet.message with
    | .basicSafety => true
    | .signalRequest (some requests) => requests.contains rsuId
    | .signalRequest none => false

/-! ## The intersection -/

structure Intersection where
  middleware : Middleware
  rsuId : UInt32
  evspConfig : EvspConfig
  adjustBounds : AdjustBounds
  evspHosts : EvspHostObuList
  cooling : List EvspCoolingInfo
  tspHosts : TspHostObuList

namespace Intersection

/-- Both applications enabled and no vehicle listed. -/
def boot (config : Config) (status : TrafficSignalStatus) (rsuId : UInt32)
    (evspConfig : EvspConfig) (adjustBounds : AdjustBounds) : Intersection where
  middleware := { Middleware.boot config status with tspDontSend2TC := false }
  rsuId := rsuId
  evspConfig := evspConfig
  adjustBounds := adjustBounds
  evspHosts := .empty
  cooling := []
  tspHosts := .empty

/-! ## Emergency vehicles -/

/-- A vehicle leaves: the terminate branch and both timeouts alike. -/
def evspHostLeaves (s : Intersection) (host : EvspHostObu) (now : Int) : Intersection :=
  let s := { s with
    middleware := s.middleware.commandBufDeleteObu host.obuName
    cooling := coolingListInsert host.obuName host.area now
    evspHosts := s.evspHosts.delete host.key }
  -- the phase goes back to its plan only with the last vehicle that asked for it
  if s.evspHosts.resume host.targetPhase then
    { s with middleware :=
        (s.middleware.commandBufResumeControl (some s.middleware.evspDontSend2TC)).2 }
  else s

def evspInsert (s : Intersection) (obuName : HostName) (targetPhase : UInt8)
    (area : EvspTouchingArea) (isActivate : UInt8) : Intersection :=
  { s with evspHosts := s.evspHosts.insertObu obuName targetPhase area ⟨1, isActivate⟩ }

/-- The target phase and the touching area a packet comes from, if the running
plan has one. -/
def evspTouched (s : Intersection) (packet : EvspObuPacket) : Option (UInt8 × EvspTouchingArea) :=
  match s.evspConfig.planTableSearch s.middleware.status.planId with
  | none => none
  | some table => (table.activate packet.touchingAreas).filter fun touched =>
      1 ≤ touched.1 && touched.1 ≤ 8

/-- The touch that activates a vehicle. -/
def evspReaches (s : Intersection) (host : EvspHostObu) : Bool :=
  s.evspConfig.touchingThreshold.toNat ≤ host.touchedAmount.toNat + 1

/-- A listed vehicle outside of its terminate areas. One that is activated
already only has its timer checked. -/
def evspTouchesAgain (s : Intersection) (host : EvspHostObu) (packet : EvspObuPacket) :
    Intersection :=
  if host.isActivate = 1 then
    match s.evspTouched packet with
    | none => s
    | some (targetPhase, area) =>
        if s.evspReaches host then
          let s := s.evspInsert packet.obuName targetPhase area 2
          { s with middleware := s.middleware.countEmergency }
        else s.evspInsert packet.obuName targetPhase area 1
  else s

/-- A vehicle that is not listed. The cooling list is searched before the phase
is checked. -/
def evspTouchesFirst (s : Intersection) (packet : EvspObuPacket) : Intersection :=
  match s.evspConfig.planTableSearch s.middleware.status.planId with
  | none => s
  | some table =>
      match table.activate packet.touchingAreas with
      | none => s
      | some (targetPhase, area) =>
          let cools := coolingListSearch s.cooling s.evspConfig packet.now packet.obuName area
          let s := { s with cooling := coolingListExpire s.cooling s.evspConfig packet.now }
          if !cools && 1 ≤ targetPhase && targetPhase ≤ 8 then
            s.evspInsert packet.obuName targetPhase area 1
          else s

/-- The branches for a listed vehicle and for a new one. -/
def evspSearched (s : Intersection) (packet : EvspObuPacket) : Intersection :=
  match s.evspHosts.search packet.obuName.obuName with
  | some host =>
      match host.area.terminate packet.terminateAreas with
      | some _ => s.evspHostLeaves host packet.now
      | none => s.evspTouchesAgain host packet
  | none => s.evspTouchesFirst packet

/-- The record of a listed vehicle is brought up to date first. -/
def evspSeen (s : Intersection) (packet : EvspObuPacket) : Intersection :=
  { s with evspHosts := s.evspHosts.seen packet.obuName ⟨packet.strayTouching, 0⟩ }

/-- `EVSP_on_OBU_packet_rx`. -/
def evspOnObuPacketRx (s : Intersection) (packet : EvspObuPacket) : Intersection :=
  if packet.admitted s.rsuId then
    let s := s.evspSeen packet
    if s.middleware.status.subPhaseId = 0 then s else s.evspSearched packet
  else s

/-- A timer of a vehicle that is still listed runs out. -/
def evspHostTimeout (s : Intersection) (obuName : HostName) (now : Int) : Intersection :=
  match s.evspHosts.search obuName.obuName with
  | some host => s.evspHostLeaves host now
  | none => s

/-- `EVSP_host_OBU_packet_timeout_timer_handler`. -/
def evspHostObuPacketTimeout (s : Intersection) (obuName : HostName) (now : Int) : Intersection :=
  s.evspHostTimeout obuName now

/-- `EVSP_host_OBU_list_timeout_timer_handler`. -/
def evspHostObuListTimeout (s : Intersection) (obuName : HostName) (now : Int) : Intersection :=
  s.evspHostTimeout obuName now

/-! ## Buses -/

/-- `TSP_host_OBU_obj_insert`. -/
def tspHostObuInsert (s : Intersection) (obuName : HostName) (targetPhase : UInt8) :
    Intersection :=
  let hosts := s.tspHosts.insertObu obuName targetPhase
  match s.tspHosts.search obuName.obuName with
  | some _ => { s with tspHosts := hosts }
  | none =>
      { s with
        tspHosts := hosts
        middleware := s.middleware.tspFirstInsert s.adjustBounds obuName targetPhase }

/-- Cloud command 4. -/
def tspIntersectionControl (s : Intersection) (obuName : HostName) (targetPhase : UInt8) :
    Intersection :=
  let s := s.tspHostObuInsert obuName targetPhase
  if s.middleware.tspDontSend2TC then s else { s with middleware := s.middleware.countBus }

/-- `TSP_host_OBU_obj_delete`. -/
def tspHostObuDelete (s : Intersection) (obuName : HostName) : Intersection :=
  { s with tspHosts := s.tspHosts.delete obuName.obuName }

/-- Cloud command 5. -/
def tspHostDelete (s : Intersection) (obuName : HostName) : Intersection :=
  let s := s.tspHostObuDelete obuName
  let s := { s with middleware := s.middleware.commandBufDeleteObu obuName.obuName }
  { s with middleware :=
      (s.middleware.commandBufResumeControl (some s.middleware.tspDontSend2TC)).2 }

/-- `TSP_host_OBU_list_timeout_timer_handler`. -/
def tspHostObuListTimeout (s : Intersection) (obuName : HostName) : Intersection :=
  s.tspHostObuDelete obuName

end Intersection

end AdaptiveSignal.Signal
