import AdaptiveSignal.Activation.Accounting

/-! # The activation list of the emergency application

Activated emergency vehicles stand in a list of their own. A thread goes through
it once a second, from the first activation until the last vehicle has left, and
asks each vehicle how the green should be adjusted. Packets and timeouts change
the list of host vehicles meanwhile.
-/

namespace AdaptiveSignal.Signal

/-- A node of the activation list. -/
structure EvspActivateObu where
  hostObuName : HostName
  targetPhase : UInt8
  controlSubphaseId : UInt8
  deriving DecidableEq

/-- The thread of the activation timer; `activate_thread` is zero only when there is none.
It keeps whether to optimize anew and the length of the list when it last did. -/
inductive ActivationTimer
  | absent
  | running (optim : Bool) (oldListLen : ℤ)
  /-- Out of its loop, and not yet through the block at the end. -/
  | ending
  deriving DecidableEq

/-- The emergency application with both of its lists. -/
structure EvspService where
  intersection : Intersection
  /-- The nodes from `activate_OBU_head` on, none when it is `NULL`. -/
  activateObuHead : List EvspActivateObu
  listLen : ℤ
  timer : ActivationTimer
  /-- `EVSP_optimization` has been called with `NULL`. -/
  optimizedNull : Bool
  /-- `NULL` has been read through. -/
  crashed : Bool

namespace EvspService

/-- No vehicle has been activated. -/
def initial (intersection : Intersection) : EvspService where
  intersection := intersection
  activateObuHead := []
  listLen := 0
  timer := .absent
  optimizedNull := false
  crashed := false

/-- `EVSP_host_OBU_obj_search` by the name in a node. -/
def hostOf (s : EvspService) (node : EvspActivateObu) : Option EvspHostObu :=
  s.intersection.evspHosts.search node.hostObuName.obuName

/-! ## Joining and leaving the list -/

/-- `search_activate_OBU`. -/
def searchActivateObu (nodes : List EvspActivateObu) (host : EvspHostObu) :
    Option EvspActivateObu :=
  nodes.find? fun node => strncmpEq (idMaxLen + 1) node.hostObuName host.obuName

/-- `add_activate_OBU`: a head without a name is replaced, whatever follows it. -/
def addActivateObu (nodes : List EvspActivateObu) (host : EvspHostObu) : List EvspActivateObu :=
  let new : EvspActivateObu := ⟨host.obuName, host.targetPhase, 0⟩
  match nodes with
  | [] => []
  | first :: rest => if first.hostObuName = .empty then [new] else first :: (rest ++ [new])

/-- `init_activate_OBU_head`. -/
def initActivateObuHead : List EvspActivateObu := [⟨.empty, 0, 0⟩]

/-- `EVSP_OBU_activation_timer_start`, with its answer. -/
def activationTimerStart (s : EvspService) (host : EvspHostObu) : ℤ × EvspService :=
  match s.timer with
  | .absent =>
      (1, { s with
        activateObuHead := addActivateObu initActivateObuHead host
        listLen := s.listLen + 1
        timer := .running true 0 })
  | _ =>
      match s.activateObuHead with
      | [] => (-1, { s with crashed := true })
      | first :: rest =>
          if first.targetPhase ≠ host.targetPhase then (-1, s)
          else if (searchActivateObu (first :: rest) host).isSome then (-1, s)
          else
            (2, { s with
              activateObuHead := addActivateObu (first :: rest) host
              listLen := s.listLen + 1 })

/-- The answer of `EVSP_OBU_activation_time_end`, which reads the head first. -/
def activationTimeEnd (s : EvspService) (obuName : HostName) : Option ℤ :=
  match s.activateObuHead with
  | [] => none
  | first :: rest =>
      let terminateFlag :=
        if strncmpEq (idMaxLen + 1) obuName first.hostObuName then
          if rest = [] then 2 else 1
        else 0
      some (if s.listLen = 0 then 2 else terminateFlag)

/-! ## Packets -/

/-- A vehicle in a terminate area. -/
def evspHostTerminates (s : EvspService) (host : EvspHostObu) (now : Int) : EvspService :=
  match s.activationTimeEnd host.obuName with
  | none => { s with crashed := true }
  | some _ => { s with intersection := s.intersection.evspHostLeaves host now }

/-- A listed vehicle outside of its terminate areas. -/
def evspTouchesAgain (s : EvspService) (host : EvspHostObu) (packet : EvspObuPacket) :
    EvspService :=
  if host.isActivate = 2 then (s.activationTimerStart host).2
  else if host.isActivate = 1 then
    match s.intersection.evspTouched packet with
    | none => s
    | some (targetPhase, area) =>
        if s.intersection.evspReaches host then
          let s := { s with
            intersection := s.intersection.evspInsert packet.obuName targetPhase area 2 }
          -- the insertion returns the listed vehicle, brought up to date
          let s := (s.activationTimerStart (host.update ⟨1, 2⟩)).2
          if s.crashed then s
          else { s with intersection := { s.intersection with
            middleware := s.intersection.middleware.countEmergency } }
        else
          { s with intersection := s.intersection.evspInsert packet.obuName targetPhase area 1 }
  else s

def evspSearched (s : EvspService) (packet : EvspObuPacket) : EvspService :=
  match s.intersection.evspHosts.search packet.obuName.obuName with
  | some host =>
      match host.area.terminate packet.terminateAreas with
      | some _ => s.evspHostTerminates host packet.now
      | none => s.evspTouchesAgain host packet
  | none => { s with intersection := s.intersection.evspTouchesFirst packet }

/-- `EVSP_on_OBU_packet_rx`. -/
def evspOnObuPacketRx (s : EvspService) (packet : EvspObuPacket) : EvspService :=
  if packet.admitted s.intersection.rsuId then
    let s := { s with intersection := s.intersection.evspSeen packet }
    if s.intersection.middleware.status.subPhaseId = 0 then s else s.evspSearched packet
  else s

/-! ## The activation timer -/

/-- `EVSP_optimization`, unless it reads through `NULL`. What a vehicle asks for in
step 1 depends on its distance and speed. -/
def evspOptimization (status : TrafficSignalStatus) (adjust : EvspHostObu → ℤ)
    (host : Option EvspHostObu) : Option ℤ :=
  if status.stepId ≠ 1 then some (-1) else host.map adjust

def maxAdjustTime (rets : List ℤ) : ℤ :=
  rets.foldl (fun longest ret => if longest ≤ ret then ret else longest) (-1)

def minAdjustTime (rets : List ℤ) : ℤ :=
  rets.foldl (fun shortest ret => if ret < shortest ∧ ret ≠ -1 then ret else shortest) 1000

/-- The command for the current phase, in the name of the head. -/
def adjustCommand (status : TrafficSignalStatus) (first : EvspActivateObu) (last : EvspHostObu)
    (rets : List ℤ) : TscCommand where
  appId := evspId
  appPriority := 1
  targetPhase := last.targetPhase
  cycle := 0
  phase := status.subPhaseId
  effectTime := Int16.ofInt
    (if maxAdjustTime rets ≤ (status.plan status.subPhaseId).preGreen.toNat
      then minAdjustTime rets else maxAdjustTime rets)
  hostObuName := first.hostObuName

/-- Every vehicle from the head on is asked, and the longest or the shortest of their
greens is inserted. -/
def optimizeAll (s : EvspService) (adjust : EvspHostObu → ℤ) (first : EvspActivateObu) :
    EvspService :=
  let status := s.intersection.middleware.status
  let hosts := s.activateObuHead.map s.hostOf
  let s := { s with optimizedNull := s.optimizedNull || hosts.any Option.isNone }
  match hosts.mapM (evspOptimization status adjust) with
  | none => { s with crashed := true }
  | some rets =>
      if maxAdjustTime rets ≠ -1 ∧ minAdjustTime rets ≠ -1 then
        match hosts.getLast?.join with
        | none => { s with crashed := true }
        | some last =>
            let (err, middleware) := s.intersection.middleware.commandBufInsertEffectTime
              (adjustCommand status first last rets)
            { s with
              intersection := { s.intersection with middleware := middleware }
              activateObuHead :=
                -- only this error is −1
                if err ≠ .invalidAppId then
                  s.activateObuHead.map fun node =>
                    { node with controlSubphaseId := status.subPhaseId }
                else s.activateObuHead }
      else s

/-- The nodes from the first one on whose vehicle is still a host. -/
def remaining (s : EvspService) : List EvspActivateObu :=
  s.activateObuHead.dropWhile fun node => (s.hostOf node).isNone

/-- `list_len` when the nodes before them are gone. -/
def remainingLen (s : EvspService) : ℤ :=
  s.listLen - (s.activateObuHead.length - s.remaining.length : ℤ)

/-- A vehicle has joined or left at the head, or the phase has changed. -/
def optimizes (s : EvspService) (optim : Bool) (oldListLen : ℤ) (first : EvspActivateObu) : Bool :=
  optim || s.remaining.length < s.activateObuHead.length || s.remainingLen ≠ oldListLen ||
    s.intersection.middleware.status.subPhaseId ≠ first.controlSubphaseId

/-- One turn of the loop of `EVSP_OBU_activation_timer`. -/
def activationTurn (s : EvspService) (adjust : EvspHostObu → ℤ) (optim : Bool)
    (oldListLen : ℤ) : EvspService :=
  match s.intersection.evspConfig.planTableSearch s.intersection.middleware.status.planId with
  | none => { s with timer := .ending }
  | some _ =>
      if s.activateObuHead = [] then { s with crashed := true }
      else
        let s' := { s with activateObuHead := s.remaining, listLen := s.remainingLen }
        match s.remaining with
        | [] => { s' with timer := .ending }
        | first :: _ =>
            if s.optimizes optim oldListLen first then
              { s'.optimizeAll adjust first with timer := .running false s'.listLen }
            else { s' with timer := .running false oldListLen }

def activationTimer (s : EvspService) (adjust : EvspHostObu → ℤ) : EvspService :=
  match s.timer with
  | .running optim oldListLen => s.activationTurn adjust optim oldListLen
  | _ => s

/-- The block at the end of the thread. It leaves the nodes. -/
def threadEnd (s : EvspService) : EvspService :=
  match s.timer with
  | .ending => { s with timer := .absent, listLen := 0 }
  | _ => s

/-! ## Steps -/

end EvspService

/-- What happens in one step. The middleware changes in between as it may. -/
inductive EvspEvent
  | obuPacket (packet : EvspObuPacket)
  | packetTimeout (obuName : HostName) (now : Int)
  | listTimeout (obuName : HostName) (now : Int)
  | activationTimer (adjust : EvspHostObu → ℤ)
  | threadEnd
  | middleware (middleware : Middleware)

namespace EvspService

/-- A step of the program, unless it has crashed. -/
def step (s : EvspService) (event : EvspEvent) : EvspService :=
  if s.crashed then s
  else
    match event with
    | .obuPacket packet => s.evspOnObuPacketRx packet
    | .packetTimeout obuName now =>
        { s with intersection := s.intersection.evspHostObuPacketTimeout obuName now }
    | .listTimeout obuName now =>
        { s with intersection := s.intersection.evspHostObuListTimeout obuName now }
    | .activationTimer adjust => s.activationTimer adjust
    | .threadEnd => s.threadEnd
    | .middleware middleware =>
        { s with intersection := { s.intersection with middleware := middleware } }

end EvspService

end AdaptiveSignal.Signal
