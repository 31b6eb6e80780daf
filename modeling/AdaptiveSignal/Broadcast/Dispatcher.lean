import AdaptiveSignal.Broadcast.Schedule
import AdaptiveSignal.Foundation.Run
import AdaptiveSignal.Network.MessageQueue

/-! # Dispatching broadcast messages

Applications put external messages on the broadcast list and then call back the
dispatcher of the traffic information base, which counts the calls. In every
iteration of its loop the dispatcher fetches as many messages as it has counted,
hands each to the queue of its kind when that kind is due, and then works on its
own three kinds of messages. A transmission loop takes the messages out of the
queues. The callers, the dispatcher and the transmission loop interleave; a
dispatcher that finds a queue full waits.
-/

namespace AdaptiveSignal.Broadcast

open Foundation

def maxTibQueueSize : ℕ := 50

/-- The messages that the dispatcher makes itself. -/
inductive OwnKind
  | map
  | spat
  | tim
  deriving DecidableEq

/-- The messages that other applications make. -/
inductive ExternalKind
  | eva
  | rsa
  | psm
  deriving DecidableEq

/-- The message ids that the dispatcher tells apart. -/
inductive DsrcMsgId
  | mapData
  | spat
  | travelerInformation
  | emergencyVehicleAlert
  | roadSideAlert
  | personalSafetyMessage
  | other (id : ℕ)
  deriving DecidableEq

inductive TibQueue
  | own (kind : OwnKind)
  | external (kind : ExternalKind)
  deriving DecidableEq

def OwnKind.msgId : OwnKind → DsrcMsgId
  | .map => .mapData
  | .spat => .spat
  | .tim => .travelerInformation

def ExternalKind.msgId : ExternalKind → DsrcMsgId
  | .eva => .emergencyVehicleAlert
  | .rsa => .roadSideAlert
  | .psm => .personalSafetyMessage

def OwnKind.period (config : TibConfig) : OwnKind → UInt8
  | .map => config.mapPacketCyclePerTransfer
  | .spat => config.spatPacketCyclePerTransfer
  | .tim => config.timPacketCyclePerTransfer

def ExternalKind.period (config : TibConfig) : ExternalKind → UInt8
  | .eva => config.evaPacketCyclePerTransfer
  | .rsa => config.rsaPacketCyclePerTransfer
  | .psm => config.psmPacketCyclePerTransfer

/-- A message on the broadcast list; the data are a pointer. -/
structure J2735MsgObj (Data : Type*) where
  magId : DsrcMsgId
  data : Option Data

structure TibObj (Data : Type*) where
  data : Option Data
  tibId : DsrcMsgId

/-- Where the dispatcher is in its loop. -/
inductive DispatcherPlace (Data : Type*)
  /-- Before it loads the count of pending messages. -/
  | load
  /-- In the loop over the pending messages, so many still to fetch. -/
  | fetch (remaining : ℕ)
  | subtract (msg : J2735MsgObj Data) (remaining : ℕ)
  | process (msg : J2735MsgObj Data) (remaining : ℕ)
  | enqueue (kind : ExternalKind) (msg : J2735MsgObj Data) (remaining : ℕ)
  /-- After a fetch that found no message. -/
  | reset
  | branch (kind : OwnKind)
  | enqueueOwn (kind : OwnKind)
  | increment

/-- What the dispatcher reads of the signal, and whether its updates succeed. -/
structure Readings where
  planId : ℤ
  subPhaseCount : ℤ
  mapMsgUpdate : ℤ
  stepId : ℤ
  second : ℤ
  spatMsgUpdate : ℤ

structure BroadcastState (Data : Type*) where
  broadcastList : List (J2735MsgObj Data)
  /-- Callers whose message is on the list and whose callback is still to come. -/
  notifying : ℕ
  pendingMsgCount : ℤ
  place : DispatcherPlace Data
  cycles : ℕ
  priorPlanId : ℤ
  priorStepId : ℤ
  priorSecond : ℤ
  queue : TibQueue → List (TibObj Data)
  /-- Everything that was put on the broadcast list, in order. -/
  inserted : List (J2735MsgObj Data)
  /-- The messages that the dispatcher is through with, in order. -/
  handled : List (J2735MsgObj Data)
  /-- Everything that was put in a queue, in order. -/
  enqueued : TibQueue → List (TibObj Data)
  iterations : ℕ

inductive BroadcastAction (Data : Type*)
  /-- A caller of `J2735_BroadcastList_insert` puts its message on the list. -/
  | insert (msg : J2735MsgObj Data)
  /-- It calls `on_j2735_msg_ready`. -/
  | notify
  | dispatch (readings : Readings)
  /-- The transmission loop takes a message out of a queue. -/
  | transmit (q : TibQueue)

variable {Data : Type*}

namespace BroadcastState

def moveTo (s : BroadcastState Data) (p : DispatcherPlace Data) : BroadcastState Data :=
  { s with place := p }

/-- The enqueue functions of the six queues wait until there is space. -/
def HasSpace (s : BroadcastState Data) (q : TibQueue) : Prop :=
  (s.queue q).length < maxTibQueueSize

instance (s : BroadcastState Data) (q : TibQueue) : Decidable (s.HasSpace q) :=
  inferInstanceAs (Decidable (_ < _))

def put (s : BroadcastState Data) (q : TibQueue) (obj : TibObj Data) : BroadcastState Data :=
  { s with
    queue := Function.update s.queue q (s.queue q ++ [obj])
    enqueued := Function.update s.enqueued q (s.enqueued q ++ [obj]) }

@[simp] theorem put_queue_self (s : BroadcastState Data) (q : TibQueue) (obj : TibObj Data) :
    (s.put q obj).queue q = s.queue q ++ [obj] :=
  Function.update_self q _ _

theorem put_queue_of_ne (s : BroadcastState Data) {q other : TibQueue} (hne : other ≠ q)
    (obj : TibObj Data) : (s.put q obj).queue other = s.queue other :=
  Function.update_of_ne hne _ _

@[simp] theorem put_enqueued_self (s : BroadcastState Data) (q : TibQueue) (obj : TibObj Data) :
    (s.put q obj).enqueued q = s.enqueued q ++ [obj] :=
  Function.update_self q _ _

theorem put_enqueued_of_ne (s : BroadcastState Data) {q other : TibQueue} (hne : other ≠ q)
    (obj : TibObj Data) : (s.put q obj).enqueued other = s.enqueued other :=
  Function.update_of_ne hne _ _

/-- The dispatcher before its first iteration, with its callback registered. -/
def initial : BroadcastState Data where
  broadcastList := []
  notifying := 0
  pendingMsgCount := 0
  place := .load
  cycles := 0
  priorPlanId := -1
  priorStepId := -1
  priorSecond := -1
  queue := fun _ => []
  inserted := []
  handled := []
  enqueued := fun _ => []
  iterations := 0

end BroadcastState

/-- The branch of `process_external_message` that a message takes, if any. The ids
of the three branches differ, so it takes at most one. -/
def processTarget (config : TibConfig) (cycles : ℕ) (msg : J2735MsgObj Data) :
    Option ExternalKind :=
  [ExternalKind.eva, .rsa, .psm].find? fun kind =>
    due (kind.period config) cycles ∧ msg.magId = kind.msgId

/-- What follows the three branches of the loop. -/
def afterBranch : OwnKind → DispatcherPlace Data
  | .map => .branch .spat
  | .spat => .branch .tim
  | .tim => .increment

/-- A branch that is due: what it reads, and whether it goes on to its enqueue. -/
def ownBranch (s : BroadcastState Data) (readings : Readings) :
    OwnKind → BroadcastState Data
  | .map =>
      if readings.planId ≠ s.priorPlanId then
        if readings.subPhaseCount < 0 then s.moveTo (afterBranch .map)
        else if readings.mapMsgUpdate < 0 then s.moveTo (afterBranch .map)
        else { s with priorPlanId := readings.planId }.moveTo (.enqueueOwn .map)
      else s.moveTo (.enqueueOwn .map)
  | .spat =>
      if readings.stepId ≠ s.priorStepId ∨ s.priorSecond ≠ readings.second then
        if readings.spatMsgUpdate < 0 then s.moveTo (afterBranch .spat)
        else
          { s with priorStepId := readings.stepId, priorSecond := readings.second }.moveTo
            (.enqueueOwn .spat)
      else s.moveTo (.enqueueOwn .spat)
  | .tim => s.moveTo (.enqueueOwn .tim)

/-- The next operation of `TIB_dispatcher_handler`; `own` are its three messages. -/
def tibDispatcherHandler (config : TibConfig) (own : OwnKind → Data) (s : BroadcastState Data)
    (readings : Readings) : BroadcastState Data :=
  match s.place with
  | .load =>
      if 0 < s.pendingMsgCount then s.moveTo (.fetch s.pendingMsgCount.toNat)
      else s.moveTo (.branch .map)
  | .fetch 0 => s.moveTo (.branch .map)
  | .fetch (remaining + 1) =>
      match s.broadcastList with
      | [] => s.moveTo .reset
      | msg :: rest => { s with broadcastList := rest }.moveTo (.subtract msg remaining)
  | .subtract msg remaining =>
      let s := { s with pendingMsgCount := s.pendingMsgCount - 1 }
      match msg.data with
      | none => { s with handled := s.handled ++ [msg] }.moveTo (.fetch remaining)
      | some _ => s.moveTo (.process msg remaining)
  | .process msg remaining =>
      match processTarget config s.cycles msg with
      | none => { s with handled := s.handled ++ [msg] }.moveTo (.fetch remaining)
      | some kind => s.moveTo (.enqueue kind msg remaining)
  | .enqueue kind msg remaining =>
      if s.HasSpace (.external kind) then
        { s.put (.external kind) ⟨msg.data, kind.msgId⟩ with
          handled := s.handled ++ [msg] }.moveTo (.fetch remaining)
      else s
  | .reset => { s with pendingMsgCount := 0 }.moveTo (.branch .map)
  | .branch kind =>
      if due (kind.period config) s.cycles then ownBranch s readings kind
      else s.moveTo (afterBranch kind)
  | .enqueueOwn kind =>
      if s.HasSpace (.own kind) then
        (s.put (.own kind) ⟨some (own kind), kind.msgId⟩).moveTo (afterBranch kind)
      else s
  | .increment =>
      { s with
        cycles := config.nextCycles s.cycles
        iterations := s.iterations + 1 }.moveTo .load

/-- One step of a caller, the dispatcher or the transmission loop. -/
def broadcastStep (config : TibConfig) (own : OwnKind → Data) (s : BroadcastState Data) :
    BroadcastAction Data → BroadcastState Data
  | .insert msg =>
      -- The caller waits while the list is full.
      if s.broadcastList.length < Network.maxJ2735BroadcastListSize then
        { s with
          broadcastList := s.broadcastList ++ [msg]
          inserted := s.inserted ++ [msg]
          notifying := s.notifying + 1 }
      else s
  | .notify =>
      if s.notifying = 0 then s
      else { s with notifying := s.notifying - 1, pendingMsgCount := s.pendingMsgCount + 1 }
  | .dispatch readings => tibDispatcherHandler config own s readings
  | .transmit q => { s with queue := Function.update s.queue q (s.queue q).tail }

end AdaptiveSignal.Broadcast
