import AdaptiveSignal.Activation.RefusedCommands
import AdaptiveSignal.ExternalApps.Registration

/-! # Heartbeats of external applications

A timer lets the proxy look from time to time at the applications that have sockets, and
close those of an application that has sent no heartbeat for some rounds. They are closed
as well when the proxy finds, while it handles a packet, that the other end is gone. The
rounds are counted in eight bits.
-/

namespace AdaptiveSignal.ExternalApps

open Foundation Registration
open Signal (CommandBufErr)

variable {Handler : Type}

/-! ## Closing the sockets of an application -/

section Unlink

variable (close : ℕ → SyscallResult)

def innerCloseBothChannelsOfAnExternalApp (info : EaInfo) : ℤ × EaInfo :=
  if info.interactFd ≠ 0 ∧ (close info.interactFd).ret = -1 then (-1, info)
  else
    let ret := if info.interactFd ≠ 0 then (close info.interactFd).ret else 0
    let info := { info with interactFd := 0 }
    if info.notifyFd = 0 then (ret, info)
    else if (close info.notifyFd).ret = -1 then (-1, info)
    else ((close info.notifyFd).ret, { info with notifyFd := 0 })

def unlinkAnExternalApp (info : EaInfo) : EaInfo :=
  let (ret, info) := innerCloseBothChannelsOfAnExternalApp close info
  if ret ≠ 0 then { info with interactFd := 0, notifyFd := 0 } else info

/-- The record without its sockets. -/
def EaInfo.unlinked (info : EaInfo) : EaInfo :=
  { info with interactFd := 0, notifyFd := 0 }

/-- The sockets are given up even where they cannot be closed. -/
theorem unlinkAnExternalApp_eq (info : EaInfo) :
    unlinkAnExternalApp close info = info.unlinked := by
  obtain ⟨pid, notifyFd, interactFd, heartbeatRc⟩ := info
  unfold unlinkAnExternalApp innerCloseBothChannelsOfAnExternalApp EaInfo.unlinked
  by_cases hclosed : interactFd ≠ 0 ∧ (close interactFd).ret = -1
  · simp [hclosed]
  · by_cases hnotify : notifyFd = 0
    · simp [hclosed, hnotify]
    · by_cases hfailed : (close notifyFd).ret = -1
      · simp [hclosed, hnotify, hfailed]
      · simp [hclosed, hnotify, hfailed]

end Unlink

/-! ## A round of the timer -/

/-- `HEARTBEAT_MONITOR_ALLOWED_THERSHHOLD`. -/
def heartbeatMonitorAllowedThershhold : UInt8 := 3

namespace Proxy

variable (close : ℕ → SyscallResult)

/-- The walk of `check_all_external_app_heartbeats` at one application. -/
def checkHeartbeat (s : Proxy Handler) (app : AppObj Handler) : Proxy Handler :=
  match s.eaInfo app.id with
  | none => s
  | some info =>
      if info.interactFd = 0 ∧ info.notifyFd = 0 then s
      else if s.proxyCurHeartbeat - info.heartbeatRc > heartbeatMonitorAllowedThershhold then
        s.setEaInfo app.id (unlinkAnExternalApp close info)
      else s

def checkAllExternalAppHeartbeats (s : Proxy Handler) : Option (ℤ × Proxy Handler) :=
  if s.locked then none
  else
    let s' : Proxy Handler :=
      match s.registry.appList with
      -- the jump passes over `pthread_mutex_unlock`
      | [] => { s with locked := true }
      | apps => apps.foldl (checkHeartbeat close) s
    some (0, { s' with proxyCurHeartbeat := s'.proxyCurHeartbeat + 1 })

end Proxy

/-! ## Requests -/

inductive SocketCall
  | recv
  | send
  deriving DecidableEq

def SocketCall.code : SocketCall → SyscallResult → ℤ
  | recv => eapRecvPacketFromUnixSk
  | send => eapSendPacketToUnixSk

/-- The system calls of a packet, in order, with their results. -/
abbrev SocketCalls := List (SocketCall × SyscallResult)

/-- Calls one after the other up to the first that fails: its code, and those that were
made. The results are counted from `i` on. -/
def callAll (result : ℕ → SyscallResult) : ℕ → List SocketCall → ℤ × SocketCalls
  | _, [] => (ealErrOk, [])
  | i, call :: rest =>
      let ret := call.code (result i)
      if ret ≠ ealErrOk then (ret, [(call, result i)])
      else
        let (ret, calls) := callAll result (i + 1) rest
        (ret, (call, result i) :: calls)

def numOfApiIdDefinition : ℕ := 40

def ealErrInMiddlewareHeartbeatUpdateForApp : ℤ := 1050

/-- What the wrapper of a call receives and sends, with `USING_NON_ACK_CONFIG`. -/
def apiWrapperCalls (apiId : ℕ) : List SocketCall :=
  -- `event_callback_msg_id_insert`, `remote_com_send` and its like
  if apiId = 3 then [.recv, .send]
  else if apiId = 4 then [.recv, .recv]
  else if apiId ≤ 7 then [.recv, .recv, .send]
  -- the configuration is never asked for
  else if apiId ≤ 13 then []
  -- the command buffer
  else if apiId = 15 then [.recv, .send]
  else if apiId ≤ 17 then [.recv]
  else if apiId = 18 then [.recv, .send, .send]
  -- the message signs
  else if apiId ≤ 22 then [.recv]
  -- the traffic signal
  else if apiId = 33 ∨ apiId = 34 then [.recv, .send, .send]
  else if apiId = 36 then [.recv, .send]
  else [.send, .send]

/-- A request to be called back for one kind of messages. -/
structure MsgIdPayload where
  eventType : EventType
  name : AppName
  priority : ℤ
  msgId : ℕ

/-- A packet on a connection, with the results of the system calls for it. -/
structure PacketRound where
  clientFd : ℕ
  read : PacketHeader
  headerResult : SyscallResult
  ackResult : SyscallResult
  /-- Of the calls that the wrapper makes, in order. -/
  result : ℕ → SyscallResult
  msgIdPayload : MsgIdPayload
  /-- The answer of the command buffer. -/
  commandBufErr : CommandBufErr
  close : ℕ → SyscallResult

/-- What the handling of a packet returns, the system calls that it made and the proxy
after it. -/
structure Handling (Handler : Type) where
  ret : ℤ
  calls : SocketCalls
  proxy : Proxy Handler

namespace Proxy

variable (forward : EventType → Handler)

/-- The wrapper of a call, of which the proxy sees the system calls and, of
`event_callback_msg_id_insert`, the callback lists. -/
def apiWrapper (s : Proxy Handler) (round : PacketRound) (apiId : ℕ) :
    Option (Handling Handler) :=
  if apiId = 3 then
    let (ret, calls) := callAll round.result 0 [.recv]
    if ret ≠ ealErrOk then some ⟨ret, calls, s⟩
    else
      let payload := round.msgIdPayload
      let registry := s.registry.eventCallbackMsgIdInsert payload.eventType payload.name
        payload.priority payload.msgId (forward payload.eventType)
      -- the process may have ended
      if registry.exited then some ⟨0, calls, { s with registry }⟩
      else
        let (ret, later) := callAll round.result 1 [.send]
        some ⟨ret, calls ++ later, { s with registry }⟩
  else
    let (ret, calls) := callAll round.result 0 (apiWrapperCalls apiId)
    if ret ≠ ealErrOk then some ⟨ret, calls, s⟩
    -- `command_buf_insert_effect_time`
    else if apiId = 14 then some ⟨round.commandBufErr.code, calls, s⟩
    -- `command_buf_resume_control`, which looks for the application
    else if apiId = 17 then s.withAppList ⟨round.commandBufErr.code, calls, s⟩
    else some ⟨ret, calls, s⟩

def innerHandleRequestByApiId (s : Proxy Handler) (round : PacketRound) (apiId : ℕ) :
    Option (Handling Handler) :=
  if round.clientFd = 0 then some ⟨-1, [], s⟩
  else if apiId ≤ apiIdAppRemoteRegister ∨ numOfApiIdDefinition ≤ apiId then some ⟨-2, [], s⟩
  else s.apiWrapper forward round apiId

def updateExternalAppHeartbeatByAppId (s : Proxy Handler) (appId : UInt8) :
    Option (ℤ × Proxy Handler) :=
  s.withAppList <|
    match s.appWithId appId with
    | none => (-1, s)
    | some app =>
        match s.eaInfo app.id with
        | none => (-1, s)
        | some info => (0, s.setEaInfo app.id { info with heartbeatRc := s.proxyCurHeartbeat })

def innerHandleHeartbeatFromApp (s : Proxy Handler) (header : PacketHeader) :
    Option (Handling Handler) := do
  -- the parameter is a `uint8_t`
  let (ret, s) ← s.updateExternalAppHeartbeatByAppId (UInt8.ofNat header.appId)
  some ⟨if ret ≠ 0 then -ealErrInMiddlewareHeartbeatUpdateForApp else ret, [], s⟩

def appWithFd (s : Proxy Handler) (fd : ℕ) : Option (AppObj Handler) :=
  s.registry.appList.find? fun app => (s.eaInfo app.id).any fun info => info.Uses fd

def getAppObjByUnixSocketFd (s : Proxy Handler) (fd : ℕ) :
    Option (Option (AppObj Handler)) :=
  s.withAppList (s.appWithFd fd)

/-- `handle_registered_client_packet` up to the label `err_handling`. -/
def handlePacket (s : Proxy Handler) (round : PacketRound) : Option (Handling Handler) :=
  let header := round.read
  let calls : SocketCalls := [(.recv, round.headerResult)]
  let ret := eapRecvPacketFromUnixSk round.headerResult
  if ret ≠ ealErrOk then some ⟨ret, calls, s⟩
  else if header.packetType ≠ eaPacketTypeReq ∧ header.packetType ≠ eaPacketTypeReport then
    some ⟨eapSimpleSendAck round.ackResult 1, calls ++ [(.send, round.ackResult)], s⟩
  else
    (if header.packetType = eaPacketTypeReport then s.innerHandleHeartbeatFromApp header
      else s.innerHandleRequestByApiId forward round header.apiId).map fun handling =>
        { handling with calls := calls ++ handling.calls }

def handleRegisteredClientPacket (s : Proxy Handler) (round : PacketRound) :
    Option (Handling Handler) := do
  let handling ← s.handlePacket forward round
  if handling.ret = -ealErrSocketDisconnect then
    let s := handling.proxy
    match ← s.getAppObjByUnixSocketFd round.clientFd with
    | none => some handling
    | some app =>
        let info ← s.eaInfo app.id
        let s ← s.withAppList (s.setEaInfo app.id (unlinkAnExternalApp round.close info))
        some { handling with proxy := s }
  else some handling

end Proxy

/-! ## Calls that find the end of the stream -/

/-- A `recv` among the calls has found the end of the stream. -/
def EndsStream (calls : SocketCalls) : Prop :=
  ∃ result : SyscallResult, (.recv, result) ∈ calls ∧ result.ret = 0

/-- A code tells whether the calls have found the end of the stream. -/
def Tells (ret : ℤ) (calls : SocketCalls) : Prop :=
  ret = -ealErrSocketDisconnect ↔ EndsStream calls

section Calls

variable {ret : ℤ} {calls later : SocketCalls} {result : SyscallResult}

theorem endsStream_append : EndsStream (calls ++ later) ↔ EndsStream calls ∨ EndsStream later := by
  unfold EndsStream
  simp only [List.mem_append, or_and_right, exists_or]

theorem endsStream_singleton (call : SocketCall) (result : SyscallResult) :
    EndsStream [(call, result)] ↔ call = .recv ∧ result.ret = 0 := by
  unfold EndsStream
  simp only [List.mem_singleton, Prod.mk.injEq]
  constructor
  · rintro ⟨result', ⟨rfl, rfl⟩, hret⟩
    exact ⟨rfl, hret⟩
  · rintro ⟨rfl, hret⟩
    exact ⟨result, ⟨rfl, rfl⟩, hret⟩

theorem ok_ne_disconnect : ealErrOk ≠ -ealErrSocketDisconnect := by
  decide

theorem tells_nil (hne : ret ≠ -ealErrSocketDisconnect) : Tells ret [] :=
  iff_of_false hne fun ⟨_, hmem, _⟩ => absurd hmem List.not_mem_nil

/-- The code of a call tells what it found. -/
theorem tells_code (call : SocketCall) (result : SyscallResult) :
    Tells (call.code result) [(call, result)] := by
  rw [Tells, endsStream_singleton]
  cases call with
  | recv => exact eapRecv_eq_disconnect_iff.trans (and_iff_right rfl).symm
  | send => exact iff_of_false eapSend_ne_disconnect fun h => absurd h.1 (by decide)

theorem not_endsStream_ok {call : SocketCall} (hok : call.code result = ealErrOk) :
    ¬ EndsStream [(call, result)] := by
  intro hends
  have hret := (tells_code call result).mpr hends
  exact ok_ne_disconnect (hok.symm.trans hret)

/-- After calls that found nothing, a code tells what the later ones found. -/
theorem Tells.append (htells : Tells ret later) (hnot : ¬ EndsStream calls) :
    Tells ret (calls ++ later) := by
  rw [Tells, endsStream_append, or_iff_right hnot]
  exact htells

theorem callAll_cons_failed {results : ℕ → SyscallResult} {i : ℕ} {call : SocketCall}
    (hfailed : call.code (results i) ≠ ealErrOk) (rest : List SocketCall) :
    callAll results i (call :: rest) = (call.code (results i), [(call, results i)]) := by
  rw [callAll, if_pos hfailed]

theorem callAll_cons_ok {results : ℕ → SyscallResult} {i : ℕ} {call : SocketCall}
    (hok : call.code (results i) = ealErrOk) (rest : List SocketCall) :
    callAll results i (call :: rest) = ((callAll results (i + 1) rest).1,
      (call, results i) :: (callAll results (i + 1) rest).2) := by
  rw [callAll, if_neg (not_not.mpr hok)]

theorem callAll_spec (results : ℕ → SyscallResult) (i : ℕ) (script : List SocketCall) :
    Tells (callAll results i script).1 (callAll results i script).2 := by
  induction script generalizing i with
  | nil => exact tells_nil ok_ne_disconnect
  | cons call rest ih =>
      by_cases hok : call.code (results i) = ealErrOk
      · rw [callAll_cons_ok hok]
        exact (ih (i + 1)).append (not_endsStream_ok hok)
      · rw [callAll_cons_failed hok]
        exact tells_code call (results i)

/-- Where all calls succeed, none has found the end of the stream. -/
theorem callAll_ok {results : ℕ → SyscallResult} {i : ℕ} {script : List SocketCall}
    (hok : (callAll results i script).1 = ealErrOk) :
    ¬ EndsStream (callAll results i script).2 := by
  intro hends
  have hret := (callAll_spec results i script).mpr hends
  exact ok_ne_disconnect (hok.symm.trans hret)

theorem commandBufErr_ne_disconnect (err : CommandBufErr) : err.code ≠ -ealErrSocketDisconnect := by
  cases err <;> decide

end Calls

/-! ## A packet -/

namespace Proxy

variable (forward : EventType → Handler) {s : Proxy Handler} (round : PacketRound)

theorem apiWrapper_spec (hfree : s.locked = false) (apiId : ℕ) :
    ∃ ret calls, ∃ registry : Registry Handler, registry.appList = s.registry.appList ∧
      Tells ret calls ∧
        s.apiWrapper forward round apiId = some ⟨ret, calls, { s with registry }⟩ := by
  unfold apiWrapper
  dsimp only
  split_ifs with hinsert hfailed hexited hfailed heffect hresume
  · exact ⟨_, _, s.registry, rfl, callAll_spec .., rfl⟩
  · exact ⟨_, _, _, Registry.appList_eventCallbackMsgIdInsert .., iff_of_false ok_ne_disconnect
      (callAll_ok (not_not.mp hfailed)), rfl⟩
  · exact ⟨_, _, _, Registry.appList_eventCallbackMsgIdInsert ..,
      (callAll_spec ..).append (callAll_ok (not_not.mp hfailed)), rfl⟩
  · exact ⟨_, _, s.registry, rfl, callAll_spec .., rfl⟩
  · exact ⟨_, _, s.registry, rfl, iff_of_false (commandBufErr_ne_disconnect _)
      (callAll_ok (not_not.mp hfailed)), rfl⟩
  · exact ⟨_, _, s.registry, rfl, iff_of_false (commandBufErr_ne_disconnect _)
      (callAll_ok (not_not.mp hfailed)), withAppList_free hfree _⟩
  · exact ⟨_, _, s.registry, rfl, callAll_spec .., rfl⟩

theorem innerHandleRequestByApiId_spec (hfree : s.locked = false) (apiId : ℕ) :
    ∃ ret calls, ∃ registry : Registry Handler, registry.appList = s.registry.appList ∧
      Tells ret calls ∧ s.innerHandleRequestByApiId forward round apiId =
        some ⟨ret, calls, { s with registry }⟩ := by
  unfold innerHandleRequestByApiId
  split_ifs
  · exact ⟨_, _, s.registry, rfl, tells_nil (by decide), rfl⟩
  · exact ⟨_, _, s.registry, rfl, tells_nil (by decide), rfl⟩
  · exact apiWrapper_spec forward round hfree apiId

/-- A whole header of a heartbeat is received. -/
def ReportReceived (round : PacketRound) : Prop :=
  0 < round.headerResult.ret ∧ round.read.packetType = eaPacketTypeReport

/-- What the handler can do with a packet before it looks for a closed peer. -/
inductive PacketMove (s : Proxy Handler) (round : PacketRound) : Handling Handler → Prop
  | quiet (ret : ℤ) (calls : SocketCalls) (registry : Registry Handler)
      (hlist : registry.appList = s.registry.appList) (htells : Tells ret calls)
      (hreport : ¬ ReportReceived round) : PacketMove s round ⟨ret, calls, { s with registry }⟩
  | heartbeat (info : EaInfo) (calls : SocketCalls) (hnot : ¬ EndsStream calls)
      (hreport : ReportReceived round)
      (hinfo : s.externalInfo (UInt8.ofNat round.read.appId) = some info) :
      PacketMove s round ⟨0, calls, s.setEaInfo (UInt8.ofNat round.read.appId)
        { info with heartbeatRc := s.proxyCurHeartbeat }⟩
  | unheard (calls : SocketCalls) (hnot : ¬ EndsStream calls) (hreport : ReportReceived round)
      (hnone : s.externalInfo (UInt8.ofNat round.read.appId) = none) :
      PacketMove s round ⟨-ealErrInMiddlewareHeartbeatUpdateForApp, calls, s⟩

theorem innerHandleHeartbeatFromApp_eq (hfree : s.locked = false) (header : PacketHeader) :
    s.innerHandleHeartbeatFromApp header =
      match s.externalInfo (UInt8.ofNat header.appId) with
      | none => some ⟨-ealErrInMiddlewareHeartbeatUpdateForApp, [], s⟩
      | some info => some ⟨0, [], s.setEaInfo (UInt8.ofNat header.appId)
          { info with heartbeatRc := s.proxyCurHeartbeat }⟩ := by
  unfold innerHandleHeartbeatFromApp updateExternalAppHeartbeatByAppId
  rw [withAppList_free hfree, Option.bind_eq_bind, Option.bind_some, externalInfo]
  cases hfind : s.appWithId (UInt8.ofNat header.appId) with
  | none => rfl
  | some app =>
      dsimp only
      rw [id_of_appWithId hfind]
      cases s.eaInfo (UInt8.ofNat header.appId) with
      | none => rfl
      | some info => rfl

theorem packetMove (hfree : s.locked = false) :
    ∃ handling, s.handlePacket forward round = some handling ∧ PacketMove s round handling := by
  unfold handlePacket
  dsimp only
  split_ifs with hheader htype hreport
  · refine ⟨_, rfl, .quiet _ _ s.registry rfl (tells_code .recv _) fun hreport => ?_⟩
    exact hheader (eapRecv_eq_ok_iff.mpr hreport.1)
  · have hok : ¬ EndsStream [(.recv, round.headerResult)] :=
      not_endsStream_ok (not_not.mp hheader)
    refine ⟨_, rfl, .quiet _ _ s.registry rfl (Tells.append ?_ hok) fun hreport =>
      htype.2 hreport.2⟩
    rw [Tells, endsStream_singleton, eapSimpleSendAck_eq]
    refine iff_of_false ?_ fun h => absurd h.1 (by decide)
    split_ifs <;> decide
  · have hok : ¬ EndsStream [(.recv, round.headerResult)] :=
      not_endsStream_ok (not_not.mp hheader)
    have hreceived : ReportReceived round := ⟨eapRecv_eq_ok_iff.mp (not_not.mp hheader), hreport⟩
    rw [innerHandleHeartbeatFromApp_eq hfree]
    cases hinfo : s.externalInfo (UInt8.ofNat round.read.appId) with
    | none => exact ⟨_, rfl, .unheard _ hok hreceived hinfo⟩
    | some info => exact ⟨_, rfl, .heartbeat info _ hok hreceived hinfo⟩
  · have hok : ¬ EndsStream [(.recv, round.headerResult)] :=
      not_endsStream_ok (not_not.mp hheader)
    obtain ⟨ret, calls, registry, hlist, htells, heq⟩ :=
      innerHandleRequestByApiId_spec forward round hfree round.read.apiId
    rw [heq]
    exact ⟨_, rfl, .quiet _ _ registry hlist (htells.append hok) fun h => hreport h.2⟩

theorem exists_of_appWithFd {fd : ℕ} {app : AppObj Handler} (hfind : s.appWithFd fd = some app) :
    ∃ info, s.eaInfo app.id = some info ∧ s.externalInfo app.id = some info ∧ info.Uses fd := by
  have huses := List.find?_some hfind
  obtain ⟨info, hinfo, huses⟩ := (Option.any_eq_true _ _).mp huses
  have hsome := isSome_appWithId (List.mem_of_find?_eq_some hfind)
  exact ⟨info, hinfo, externalInfo_eq_some_iff.mpr ⟨hsome, hinfo⟩, of_decide_eq_true huses⟩

theorem not_uses_of_appWithFd {fd : ℕ} (hfind : s.appWithFd fd = none) {id : UInt8}
    {info : EaInfo} (hinfo : s.externalInfo id = some info) : ¬ info.Uses fd := by
  intro huses
  obtain ⟨hsome, hinfo⟩ := externalInfo_eq_some_iff.mp hinfo
  obtain ⟨app, hmem, rfl⟩ := exists_mem_of_appWithId hsome
  have hno := List.find?_eq_none.mp hfind app hmem
  rw [hinfo] at hno
  exact hno (by simpa using huses)

/-- What the handler can do with a packet. -/
inductive RoundMove (s : Proxy Handler) (round : PacketRound) : Handling Handler → Prop
  | quiet (ret : ℤ) (calls : SocketCalls) (registry : Registry Handler)
      (hlist : registry.appList = s.registry.appList) (hnot : ¬ EndsStream calls)
      (hreport : ¬ ReportReceived round) : RoundMove s round ⟨ret, calls, { s with registry }⟩
  | heartbeat (info : EaInfo) (calls : SocketCalls) (hnot : ¬ EndsStream calls)
      (hreport : ReportReceived round)
      (hinfo : s.externalInfo (UInt8.ofNat round.read.appId) = some info) :
      RoundMove s round ⟨0, calls, s.setEaInfo (UInt8.ofNat round.read.appId)
        { info with heartbeatRc := s.proxyCurHeartbeat }⟩
  | unheard (calls : SocketCalls) (hnot : ¬ EndsStream calls) (hreport : ReportReceived round)
      (hnone : s.externalInfo (UInt8.ofNat round.read.appId) = none) :
      RoundMove s round ⟨-ealErrInMiddlewareHeartbeatUpdateForApp, calls, s⟩
  /-- No application has the connection that has ended. -/
  | unknown (calls : SocketCalls) (registry : Registry Handler)
      (hlist : registry.appList = s.registry.appList) (hends : EndsStream calls)
      (hreport : ¬ ReportReceived round)
      (hnone : ∀ id info, s.externalInfo id = some info → ¬ info.Uses round.clientFd) :
      RoundMove s round ⟨-ealErrSocketDisconnect, calls, { s with registry }⟩
  | unlinks (calls : SocketCalls) (registry : Registry Handler)
      (hlist : registry.appList = s.registry.appList) (hends : EndsStream calls)
      (hreport : ¬ ReportReceived round) (id : UInt8) (info : EaInfo)
      (hinfo : s.externalInfo id = some info) (huses : info.Uses round.clientFd) :
      RoundMove s round ⟨-ealErrSocketDisconnect, calls,
        { s with registry }.setEaInfo id info.unlinked⟩

theorem roundMove (hfree : s.locked = false) :
    ∃ handling, s.handleRegisteredClientPacket forward round = some handling ∧
      RoundMove s round handling := by
  obtain ⟨handling, hpacket, hmove⟩ := packetMove forward round hfree
  unfold handleRegisteredClientPacket
  simp only [hpacket, Option.bind_eq_bind, Option.bind_some]
  cases hmove with
  | heartbeat info calls hnot hreport hinfo =>
      exact ⟨_, rfl, .heartbeat info calls hnot hreport hinfo⟩
  | unheard calls hnot hreport hnone =>
      exact ⟨_, rfl, .unheard calls hnot hreport hnone⟩
  | quiet ret calls registry hlist htells hreport =>
      by_cases hdisconnect : ret = -ealErrSocketDisconnect
      · have hends := htells.mp hdisconnect
        have hsame (id : UInt8) := externalInfo_registry hlist id
        subst hdisconnect
        rw [if_pos rfl]
        -- the proxy with the callback lists that the request has left
        generalize hproxy : ({ s with registry } : Proxy Handler) = s' at hsame ⊢
        have hfree' : s'.locked = false := hproxy ▸ hfree
        rw [getAppObjByUnixSocketFd, withAppList_free hfree', Option.bind_some]
        cases hfind : s'.appWithFd round.clientFd with
        | none =>
            subst hproxy
            refine ⟨_, rfl, .unknown calls registry hlist hends hreport fun id info hinfo => ?_⟩
            exact not_uses_of_appWithFd hfind ((hsame id).trans hinfo)
        | some app =>
            obtain ⟨info, heaInfo, hinfo, huses⟩ := exists_of_appWithFd hfind
            simp only [heaInfo, Option.bind_some, withAppList_free hfree', unlinkAnExternalApp_eq]
            subst hproxy
            exact ⟨_, rfl, .unlinks calls registry hlist hends hreport app.id info
              ((hsame app.id).symm.trans hinfo) huses⟩
      · rw [if_neg hdisconnect]
        exact ⟨_, rfl, .quiet ret calls registry hlist (fun hends => hdisconnect (htells.mpr hends))
          hreport⟩

end Proxy

/-! ## A round of the timer, for all applications -/

/-- The record after a round: without its sockets if the last heartbeat is too long ago. -/
def EaInfo.checked (round : UInt8) (info : EaInfo) : EaInfo :=
  if info.Linked ∧ round - info.heartbeatRc > heartbeatMonitorAllowedThershhold then info.unlinked
  else info

theorem EaInfo.not_linked_unlinked (info : EaInfo) : ¬ info.unlinked.Linked := by
  simp [EaInfo.Linked, EaInfo.unlinked]

@[simp] theorem EaInfo.checked_checked (round : UInt8) (info : EaInfo) :
    (info.checked round).checked round = info.checked round := by
  by_cases hcloses : info.Linked ∧ round - info.heartbeatRc > heartbeatMonitorAllowedThershhold
  · rw [EaInfo.checked, EaInfo.checked, if_pos hcloses,
      if_neg fun h => info.not_linked_unlinked h.1]
  · rw [EaInfo.checked, EaInfo.checked, if_neg hcloses, if_neg hcloses]

namespace Proxy

variable {s : Proxy Handler} {close : ℕ → SyscallResult}

theorem checkHeartbeat_eq (s : Proxy Handler) (app : AppObj Handler) :
    s.checkHeartbeat close app =
      { s with
        eaInfo := Function.update s.eaInfo app.id
          ((s.eaInfo app.id).map (·.checked s.proxyCurHeartbeat)) } := by
  have hsame := Function.update_eq_self app.id s.eaInfo
  unfold checkHeartbeat
  cases hinfo : s.eaInfo app.id with
  | none =>
      rw [hinfo] at hsame
      rw [Option.map_none, hsame]
  | some info =>
      rw [hinfo] at hsame
      dsimp only
      rw [unlinkAnExternalApp_eq, Option.map_some, EaInfo.checked]
      by_cases hlinked : info.interactFd = 0 ∧ info.notifyFd = 0
      · have hnot : ¬ info.Linked := by simpa [EaInfo.Linked] using hlinked
        rw [if_pos hlinked, if_neg fun h => hnot h.1, hsame]
      · have hyes : info.Linked := by simpa [EaInfo.Linked, or_iff_not_imp_left] using hlinked
        rw [if_neg hlinked]
        split_ifs with hlate hboth hboth
        · rfl
        · exact absurd ⟨hyes, hlate⟩ hboth
        · exact absurd hboth.2 hlate
        · rw [hsame]

/-- The walk reaches every application on the list. -/
theorem foldl_checkHeartbeat (s : Proxy Handler) (apps : List (AppObj Handler)) :
    apps.foldl (checkHeartbeat close) s =
      { s with
        eaInfo := fun id =>
          if ∃ app ∈ apps, app.id = id then (s.eaInfo id).map (·.checked s.proxyCurHeartbeat)
          else s.eaInfo id } := by
  induction apps generalizing s with
  | nil => simp
  | cons app rest ih =>
      rw [List.foldl_cons, ih, checkHeartbeat_eq]
      congr 1
      funext id
      by_cases hid : app.id = id
      · subst hid
        simp [Option.map_map, Function.comp_def]
      · simp [hid, Function.update_of_ne (Ne.symm hid)]

/-- A round of the timer with any application on the list. -/
theorem checkAllExternalAppHeartbeats_spec (close : ℕ → SyscallResult) (hfree : s.locked = false)
    (hne : s.registry.appList ≠ []) :
    ∃ eaInfo, s.checkAllExternalAppHeartbeats close =
        some (0, { s with eaInfo, proxyCurHeartbeat := s.proxyCurHeartbeat + 1 }) ∧
      ∀ id, { s with eaInfo, proxyCurHeartbeat := s.proxyCurHeartbeat + 1 }.externalInfo id =
        (s.externalInfo id).map (·.checked s.proxyCurHeartbeat) := by
  unfold checkAllExternalAppHeartbeats
  rw [if_neg (by simp [hfree])]
  cases happs : s.registry.appList with
  | nil => exact absurd happs hne
  | cons app rest =>
      dsimp only
      rw [foldl_checkHeartbeat, ← happs]
      refine ⟨_, rfl, fun id => ?_⟩
      change (if (s.appWithId id).isSome then
        (if ∃ app ∈ s.registry.appList, app.id = id then
          (s.eaInfo id).map (·.checked s.proxyCurHeartbeat) else s.eaInfo id) else none) = _
      rw [externalInfo]
      by_cases hsome : (s.appWithId id).isSome
      · rw [if_pos hsome, if_pos hsome, if_pos (exists_mem_of_appWithId hsome)]
      · rw [if_neg hsome, if_neg hsome, Option.map_none]

end Proxy

end AdaptiveSignal.ExternalApps
