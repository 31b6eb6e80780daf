import AdaptiveSignal.ExternalApps.Proxy
import AdaptiveSignal.ExternalApps.Requests

/-! # Registration of external applications

An external application connects twice. The first connection registers it, or finds it on
the list from an earlier time, and becomes the socket for its requests; the second one
becomes the socket for its notifications. A refusal of the first is a return code, one of
the second stands in the acknowledgement only.
-/

namespace AdaptiveSignal.ExternalApps

open Foundation Registration

variable {Handler : Type}

/-! ## Packets -/

def eaPacketTypeRegisterTop : ℕ := 1
def eaPacketTypeRegisterBot : ℕ := 2

/-- `API_ID_OF(app_remote_register)`. -/
def apiIdAppRemoteRegister : ℕ := 2

def ealErrBadPacketTypeBeforeRegister : ℤ := 1042
def ealErrBadApiIdBeforeRegister : ℤ := 1044
def ealErrInMiddlewareRegisterReject : ℤ := 1045
def ealErrLibSendWrongPacketType : ℤ := 1046

/-- `packet_header_to_proxy_t`. -/
structure PacketHeader where
  packetType : ℕ
  apiId : ℕ
  appId : ℕ
  deriving DecidableEq

structure PayloadTop where
  name : AppName
  id : UInt8
  priority : UInt8
  callbackRegisterMask : UInt64
  pid : ℤ
  deriving DecidableEq

structure PayloadBot where
  appId : UInt8
  pid : ℤ
  deriving DecidableEq

/-- `sizeof(payload_top)` and `sizeof(payload_bot)`. -/
def payloadTopSize : ℕ := 32
def payloadBotSize : ℕ := 8

/-- What a client says on a new connection. It sends one of the payloads. -/
structure Contents where
  header : PacketHeader
  payloadTop : PayloadTop
  payloadBot : PayloadBot

/-- A new connection, with the results of the system calls for it. -/
structure Attempt where
  clientFd : ℕ
  sent : Contents
  /-- What is in the structures after the calls of `recv`. -/
  read : Contents
  headerResult : SyscallResult
  payloadResult : SyscallResult
  ackResult : SyscallResult
  successAckPayloadResult : SyscallResult
  /-- What lies in the variable of `app_obj_insert`. -/
  ret : ℤ
  wholeHeader : headerResult.ret = headerSize → read.header = sent.header
  wholePayloadTop : headerResult.ret = headerSize → payloadResult.ret = payloadTopSize →
    read.payloadTop = sent.payloadTop
  wholePayloadBot : headerResult.ret = headerSize → payloadResult.ret = payloadBotSize →
    read.payloadBot = sent.payloadBot

/-! ## The application that a payload describes -/

/-- The values of `event_type_t`. -/
def eventNumber : EventType → ℕ
  | .obuPacketRx => 0
  | .obuPacketTx => 1
  | .rsuPacketRx => 2
  | .rsuPacketTx => 3
  | .cloudPacketRx => 4
  | .cloudPacketTx => 5
  | .trafficSignalCommandTx => 6
  | .cameraPacketRx => 7
  | .registration => 8
  | .pedestrianPacketRx => 9
  | .middlewareRestart => 10

/-- The events whose callbacks are forwarded. A registration is reported by the library of
the client itself. -/
def maskEvents : List EventType :=
  [.obuPacketRx, .obuPacketTx, .rsuPacketRx, .rsuPacketTx, .cloudPacketRx, .cloudPacketTx,
    .trafficSignalCommandTx, .cameraPacketRx, .middlewareRestart]

section Handle

-- `cbmsg_forward_fp_arr`
variable (forward : EventType → Handler)

def innerSetExternalAppCallbackByMask (mask : UInt64) (event : EventType) : Option Handler :=
  if event ∈ maskEvents ∧ mask.toNat.testBit (eventNumber event) then some (forward event)
  else none

def PayloadTop.appObj (payload : PayloadTop) : AppObj Handler where
  name := payload.name.take appNameMaxLen
  id := payload.id
  priority := payload.priority
  handler := innerSetExternalAppCallbackByMask forward payload.callbackRegisterMask

/-! ## The handler -/

/-- What `handle_new_client_registration` returns, the `ret_val` of the acknowledgement
that it tries to send, and the proxy after it. -/
structure Answer (Handler : Type) where
  ret : ℤ
  ackRetVal : Option ℤ
  proxy : Proxy Handler

/-- The end of a registration of the first connection. -/
def linkTop (s : Proxy Handler) (attempt : Attempt) (app : AppObj Handler) :
    Option (Answer Handler) := do
  let s ← s.resetExternalAppTwoNewSkFds app attempt.clientFd
  -- an internal application has a null pointer here
  let info ← s.eaInfo app.id
  some {
    ret := eapSimpleSendAck attempt.ackResult 0
    ackRetVal := some ealErrOk
    proxy := s.setEaInfo app.id
      { info with heartbeatRc := s.proxyCurHeartbeat, pid := attempt.read.payloadTop.pid } }

def registerTop (s : Proxy Handler) (attempt : Attempt) : Option (Answer Handler) :=
  let ret := eapRecvPacketFromUnixSk attempt.payloadResult
  if ret ≠ ealErrOk then some ⟨ret, none, s⟩
  else do
    let payload := attempt.read.payloadTop
    match ← s.getAppObjByAppId payload.id with
    | some app => linkTop s attempt app
    | none =>
        let app := payload.appObj forward
        let (ret, s) := s.appRegister attempt.ret app
        -- `event_callback_new` may have ended the process
        if s.registry.exited then none
        else if ret ≠ appRegisterAccept then
          some ⟨eapSimpleSendAck attempt.ackResult 3, some (-ealErrInMiddlewareRegisterReject), s⟩
        else linkTop s attempt app

def registerBot (s : Proxy Handler) (attempt : Attempt) : Option (Answer Handler) :=
  let ret := eapRecvPacketFromUnixSk attempt.payloadResult
  if ret ≠ ealErrOk then some ⟨ret, none, s⟩
  else do
    let payload := attempt.read.payloadBot
    let refusal : Answer Handler :=
      ⟨eapSimpleSendAck attempt.ackResult 0, some (-ealErrLibSendWrongPacketType), s⟩
    match ← s.getAppObjByAppId payload.appId with
    | none => some refusal
    | some app =>
        let info ← s.eaInfo app.id
        if info.pid ≠ payload.pid then some refusal
        else
          let s ← s.updateExternalAppNotifyFd app attempt.clientFd
          let info ← s.eaInfo app.id
          let s := s.setEaInfo app.id { info with heartbeatRc := s.proxyCurHeartbeat }
          let ret := eapSimpleSendAck attempt.ackResult 0
          if ret ≠ 0 then some ⟨ret, some ealErrOk, s⟩
          else
            some ⟨eapSendPacketToUnixSk attempt.successAckPayloadResult, some ealErrOk, s⟩

def handleNewClientRegistration (s : Proxy Handler) (attempt : Attempt) :
    Option (Answer Handler) :=
  let ret := eapRecvPacketFromUnixSk attempt.headerResult
  let header := attempt.read.header
  if ret ≠ ealErrOk then some ⟨ret, none, s⟩
  else if header.packetType ≠ eaPacketTypeRegisterTop ∧
      header.packetType ≠ eaPacketTypeRegisterBot then
    some ⟨eapSimpleSendAck attempt.ackResult 1, some (-ealErrBadPacketTypeBeforeRegister), s⟩
  else if header.apiId ≠ apiIdAppRemoteRegister then
    some ⟨eapSimpleSendAck attempt.ackResult 2, some (-ealErrBadApiIdBeforeRegister), s⟩
  else if header.packetType = eaPacketTypeRegisterTop then registerTop forward s attempt
  else registerBot s attempt

/-- The proxy and the connections that its main loop has added to the polled set. -/
structure Server (Handler : Type) where
  proxy : Proxy Handler
  polled : List ℕ

/-- A new connection in `external_app_proxy_main_handler`, which closes it where it was not
registered. -/
def Server.connect (s : Server Handler) (attempt : Attempt) : Server Handler :=
  match handleNewClientRegistration forward s.proxy attempt with
  | none => s
  | some answer =>
      { proxy := answer.proxy
        polled := if answer.ret = 0 then s.polled ++ [attempt.clientFd] else s.polled }

/-! ## What is asked of a registration -/

/-- The server receives a payload with a header of this kind. -/
def Attempt.Presents (attempt : Attempt) (contents : Contents) (packetType : ℕ) : Prop :=
  0 < attempt.headerResult.ret ∧ contents.header.packetType = packetType ∧
    contents.header.apiId = apiIdAppRemoteRegister ∧ 0 < attempt.payloadResult.ret

/-- A new application that `app_register` has nothing against. -/
def Registrable (s : Proxy Handler) (payload : PayloadTop) : Prop :=
  Valid (payload.appObj forward) ∧
    ∀ other ∈ s.registry.appList, Compatible other (payload.appObj forward)

/-- The application is known, or can be registered. -/
def AcceptsTop (s : Proxy Handler) (payload : PayloadTop) : Prop :=
  (∃ info, s.externalInfo payload.id = some info) ∨ Registrable forward s payload

/-- The first connection came from the same process. -/
def AcceptsBot (s : Proxy Handler) (payload : PayloadBot) : Prop :=
  ∃ info, s.externalInfo payload.appId = some info ∧ info.pid = payload.pid

/-- The registration is accepted with these contents. -/
def Accepts (s : Proxy Handler) (attempt : Attempt) (contents : Contents) : Prop :=
  attempt.Presents contents eaPacketTypeRegisterTop ∧ AcceptsTop forward s contents.payloadTop ∨
    attempt.Presents contents eaPacketTypeRegisterBot ∧ AcceptsBot s contents.payloadBot

/-- The acknowledgement is sent, and after that of a second connection what belongs to it. -/
def Attempt.RepliesSent (attempt : Attempt) : Prop :=
  attempt.ackResult.ret ≠ -1 ∧
    (attempt.sent.header.packetType = eaPacketTypeRegisterBot →
      attempt.successAckPayloadResult.ret ≠ -1)

/-- What a registration is to be answered with, and what it is to leave. -/
structure Answered (s : Proxy Handler) (attempt : Attempt) (answer : Answer Handler) : Prop where
  ret_eq_zero_iff : answer.ret = 0 ↔ Accepts forward s attempt attempt.sent ∧ attempt.RepliesSent
  acknowledges_iff : answer.ackRetVal = some ealErrOk ↔ Accepts forward s attempt attempt.sent
  unchanged : ¬ Accepts forward s attempt attempt.sent → answer.proxy = s
  interact : attempt.Presents attempt.sent eaPacketTypeRegisterTop →
    Accepts forward s attempt attempt.sent →
      ∃ info, answer.proxy.externalInfo attempt.sent.payloadTop.id = some info ∧
        info.interactFd = attempt.clientFd
  notify : attempt.Presents attempt.sent eaPacketTypeRegisterBot →
    Accepts forward s attempt attempt.sent →
      ∃ info, answer.proxy.externalInfo attempt.sent.payloadBot.appId = some info ∧
        info.notifyFd = attempt.clientFd

/-- The handler returns, with the right answer, and the connection is polled if it is
registered. -/
structure Registers (s : Server Handler) (attempt : Attempt) : Prop where
  answered : ∃ answer, handleNewClientRegistration forward s.proxy attempt = some answer ∧
    Answered forward s.proxy attempt answer
  polled_iff : (s.connect forward attempt).polled = s.polled ++ [attempt.clientFd] ↔
    Accepts forward s.proxy attempt attempt.sent ∧ attempt.RepliesSent

/-- What the server receives is what the client sent. -/
structure Attempt.Intact (attempt : Attempt) : Prop where
  header : 0 < attempt.headerResult.ret → attempt.read.header = attempt.sent.header
  payloadTop : attempt.Presents attempt.read eaPacketTypeRegisterTop →
    attempt.read.payloadTop = attempt.sent.payloadTop
  payloadBot : attempt.Presents attempt.read eaPacketTypeRegisterBot →
    attempt.read.payloadBot = attempt.sent.payloadBot

/-- A registration that meets none of the defects of the handler. -/
structure Regular (s : Proxy Handler) (attempt : Attempt) : Prop where
  intact : attempt.Intact
  externalTop : attempt.Presents attempt.sent eaPacketTypeRegisterTop →
    ¬ s.Internal attempt.sent.payloadTop.id
  externalBot : attempt.Presents attempt.sent eaPacketTypeRegisterBot →
    ¬ s.Internal attempt.sent.payloadBot.appId
  /-- The refusal of a second connection does not reach the client. -/
  refusedBot : attempt.Presents attempt.sent eaPacketTypeRegisterBot →
    ¬ AcceptsBot s attempt.sent.payloadBot → attempt.ackResult.ret = -1
  /-- The variable does not read as an error when the first application is inserted. -/
  retSet : attempt.Presents attempt.sent eaPacketTypeRegisterTop → s.registry.appList = [] →
    Registrable forward s attempt.sent.payloadTop → 0 ≤ attempt.ret
  fd : Accepts forward s attempt attempt.sent → attempt.clientFd ≠ 0

end Handle

/-- Parts that are received in one piece are received as they were sent. -/
theorem Attempt.intact_of_whole {attempt : Attempt}
    (hheader : 0 < attempt.headerResult.ret → attempt.headerResult.ret = headerSize)
    (htop : attempt.Presents attempt.read eaPacketTypeRegisterTop →
      attempt.payloadResult.ret = payloadTopSize)
    (hbot : attempt.Presents attempt.read eaPacketTypeRegisterBot →
      attempt.payloadResult.ret = payloadBotSize) : attempt.Intact where
  header hreceived := attempt.wholeHeader (hheader hreceived)
  payloadTop hpresents := attempt.wholePayloadTop (hheader hpresents.1) (htop hpresents)
  payloadBot hpresents := attempt.wholePayloadBot (hheader hpresents.1) (hbot hpresents)

/-! ## The first connection -/

/-- The record of an application after its first connection. -/
def EaInfo.top (info : EaInfo) (fd : ℕ) (round : UInt8) (pid : ℤ) : EaInfo where
  pid := pid
  notifyFd := if fd = 0 then info.notifyFd else 0
  interactFd := if fd = 0 then info.interactFd else fd
  heartbeatRc := round

/-- The record of an application after its second connection. -/
def EaInfo.bot (info : EaInfo) (fd : ℕ) (round : UInt8) : EaInfo :=
  { info with
    notifyFd := if fd = 0 then info.notifyFd else fd
    heartbeatRc := round }

section Moves

variable {forward : EventType → Handler} {s : Proxy Handler} {attempt : Attempt}
  {app : AppObj Handler}

theorem linkTop_none (hfree : s.locked = false) (hinfo : s.eaInfo app.id = none) :
    linkTop s attempt app = none := by
  have hreset : s.resetExternalAppTwoNewSkFds app attempt.clientFd = some s := by
    unfold Proxy.resetExternalAppTwoNewSkFds
    split_ifs
    · rfl
    · rw [Proxy.withAppList_free hfree, hinfo]
  simp [linkTop, hreset, hinfo]

theorem linkTop_some (hfree : s.locked = false) {info : EaInfo}
    (hinfo : s.eaInfo app.id = some info) :
    linkTop s attempt app = some {
      ret := eapSimpleSendAck attempt.ackResult 0
      ackRetVal := some ealErrOk
      proxy := s.setEaInfo app.id
        (info.top attempt.clientFd s.proxyCurHeartbeat attempt.read.payloadTop.pid) } := by
  unfold linkTop Proxy.resetExternalAppTwoNewSkFds
  split_ifs with hfd
  · simp [hinfo, EaInfo.top, hfd]
  · simp [Proxy.withAppList_free hfree, hinfo, EaInfo.top, hfd]

/-- What a call of `app_register` can do with an application of the proxy. -/
inductive RegisterMove (s : Proxy Handler) (ret : ℤ) (app : AppObj Handler) :
    ℤ × Proxy Handler → Prop
  | refuses (code : ℤ) (hcode : code < 0)
      (hwhy : ¬ (Valid app ∧ ∀ other ∈ s.registry.appList, Compatible other app)) :
      RegisterMove s ret app (code, s)
  /-- The first application is inserted and reported as refused. -/
  | unset (hvalid : Valid app) (hempty : s.registry.appList = []) (hret : ret < 0) :
      RegisterMove s ret app
        (ret, { s with registry := { s.registry with appList := [app] } }.setEaInfo app.id
          .cleared)
  | accepts (registry : Registry Handler) (hvalid : Valid app)
      (hfresh : ∀ other ∈ s.registry.appList, Compatible other app)
      (hret : s.registry.appList = [] → 0 ≤ ret)
      (hlist : registry.appList = s.registry.appList ++ [app])
      (hexited : registry.exited = s.registry.exited) :
      RegisterMove s ret app (appRegisterAccept, { s with registry }.setEaInfo app.id .cleared)

theorem registerMove (s : Proxy Handler) (ret : ℤ) (app : AppObj Handler) :
    RegisterMove s ret app (s.appRegister ret app) := by
  unfold Proxy.appRegister Registry.appRegister
  split_ifs with hname hid hpriority
  · simpa using .refuses _ (by decide) fun hright => hright.1.name hname
  · simpa using .refuses _ (by decide) fun hright => hright.1.id hid
  · simpa using .refuses _ (by decide) fun hright => hright.1.priority hpriority
  · have hvalid : Valid app := ⟨hname, hid, hpriority⟩
    have haccepts (ret' : ℤ) (apps : List (AppObj Handler))
        (happs : apps = s.registry.appList ++ [app])
        (hfresh : ∀ other ∈ s.registry.appList, Compatible other app)
        (hret : s.registry.appList = [] → 0 ≤ ret) :
        RegisterMove s ret app (appRegisterAccept,
          { s with
            registry := registeredEvents.foldl (Registry.eventCallbackInsert app)
              { s.registry with
                appList := apps
                appNum := Registry.toUInt8 (ret' + 1)
                accepted := s.registry.accepted ++ [app] } }.setEaInfo app.id .cleared) := by
      have hfind : Registry.getAppObjByAppName apps app.name = some app :=
        happs ▸ Registry.getAppObjByAppName_self hname hfresh
      refine .accepts _ hvalid hfresh hret ?_ ?_
      · rw [Registry.appList_foldl_eventCallbackInsert]
        exact happs
      · exact Registry.exited_foldl_eventCallbackInsert _ hfind
    have hmove := Registry.insertMove ret app s.registry.appList
    generalize Registry.appObjInsert ret app s.registry.appList = result at hmove ⊢
    cases hmove with
    | refuses code hcode hclash =>
        have hwhy : ¬ (Valid app ∧ ∀ other ∈ s.registry.appList, Compatible other app) := by
          rintro ⟨-, hfresh⟩
          obtain ⟨other, hother, hincompatible⟩ := hclash
          exact hincompatible (hfresh other hother)
        simpa [if_pos hcode] using .refuses code hcode hwhy
    | first hempty =>
        by_cases hret : ret < 0
        · simpa [hret, hempty] using .unset hvalid hempty hret
        · have hgoes := haccepts ret [app] (by rw [hempty]; rfl)
            (fun other hother => absurd (hempty ▸ hother) List.not_mem_nil)
            fun _ => Int.not_lt.mp hret
          simpa [hret, hempty, Registry.appList_foldl_eventCallbackInsert] using hgoes
    | appends num hnum hfresh hne =>
        have hgoes := haccepts num _ rfl hfresh fun hempty => absurd hempty hne
        simpa [Int.not_lt.mpr hnum, Registry.appList_foldl_eventCallbackInsert] using hgoes

/-- What the handler can do with the payload of a first connection. -/
inductive TopMove (forward : EventType → Handler) (s : Proxy Handler) (attempt : Attempt) :
    Option (Answer Handler) → Prop
  | internal (hinternal : s.Internal attempt.read.payloadTop.id) : TopMove forward s attempt none
  | known (info : EaInfo) (hinfo : s.externalInfo attempt.read.payloadTop.id = some info) :
      TopMove forward s attempt (some {
        ret := eapSimpleSendAck attempt.ackResult 0
        ackRetVal := some ealErrOk
        proxy := s.setEaInfo attempt.read.payloadTop.id
          (info.top attempt.clientFd s.proxyCurHeartbeat attempt.read.payloadTop.pid) })
  | registers (registry : Registry Handler)
      (hunknown : s.appWithId attempt.read.payloadTop.id = none)
      (hright : Registrable forward s attempt.read.payloadTop)
      (hlist : registry.appList =
        s.registry.appList ++ [attempt.read.payloadTop.appObj forward])
      (hexited : registry.exited = s.registry.exited) :
      TopMove forward s attempt (some {
        ret := eapSimpleSendAck attempt.ackResult 0
        ackRetVal := some ealErrOk
        proxy := { s with registry }.setEaInfo attempt.read.payloadTop.id
          (EaInfo.cleared.top attempt.clientFd s.proxyCurHeartbeat
            attempt.read.payloadTop.pid) })
  | unset (hempty : s.registry.appList = [])
      (hright : Registrable forward s attempt.read.payloadTop) (hret : attempt.ret < 0) :
      TopMove forward s attempt (some {
        ret := eapSimpleSendAck attempt.ackResult 3
        ackRetVal := some (-ealErrInMiddlewareRegisterReject)
        proxy := { s with
          registry := { s.registry with
            appList := [attempt.read.payloadTop.appObj forward] } }.setEaInfo
          attempt.read.payloadTop.id .cleared })
  | refuses (hnot : ¬ AcceptsTop forward s attempt.read.payloadTop) :
      TopMove forward s attempt (some {
        ret := eapSimpleSendAck attempt.ackResult 3
        ackRetVal := some (-ealErrInMiddlewareRegisterReject)
        proxy := s })

theorem topMove (hrunning : s.Running) (hreceived : 0 < attempt.payloadResult.ret) :
    TopMove forward s attempt (registerTop forward s attempt) := by
  unfold registerTop Proxy.getAppObjByAppId
  dsimp only
  rw [eapRecv_eq_ok_iff.mpr hreceived, if_neg (not_not.mpr rfl),
    Proxy.withAppList_free hrunning.free, Option.bind_eq_bind, Option.bind_some]
  cases hfind : s.appWithId attempt.read.payloadTop.id with
  | some app =>
      have hid := Proxy.id_of_appWithId hfind
      have hsome : (s.appWithId attempt.read.payloadTop.id).isSome := by rw [hfind]; rfl
      cases hinfo : s.eaInfo attempt.read.payloadTop.id with
      | none =>
          simp only [linkTop_none hrunning.free (hid ▸ hinfo)]
          exact .internal ⟨hsome, hinfo⟩
      | some info =>
          simp only [linkTop_some hrunning.free (hid ▸ hinfo), hid]
          exact .known info (Proxy.externalInfo_eq_some_iff.mpr ⟨hsome, hinfo⟩)
  | none =>
      have hmove := registerMove s attempt.ret (attempt.read.payloadTop.appObj forward)
      generalize s.appRegister attempt.ret (attempt.read.payloadTop.appObj forward) = result
        at hmove ⊢
      dsimp only
      cases hmove with
      | refuses code hcode hwhy =>
          have hne : code ≠ appRegisterAccept := Int.ne_of_lt hcode
          rw [if_neg (by simp [hrunning.alive]), if_pos hne]
          refine .refuses fun haccepts => ?_
          rcases haccepts with ⟨info, hinfo⟩ | hright
          · rw [Proxy.externalInfo_of_unknown hfind] at hinfo
            cases hinfo
          · exact hwhy hright
      | unset hvalid hempty hret =>
          have hne : attempt.ret ≠ appRegisterAccept := Int.ne_of_lt hret
          rw [if_neg (by simp [hrunning.alive]), if_pos hne]
          refine .unset hempty ⟨hvalid, fun other hother => ?_⟩ hret
          exact absurd (hempty ▸ hother) List.not_mem_nil
      | accepts registry hvalid hfresh hret hlist hexited =>
          rw [if_neg (by simp [hrunning.alive, hexited]), if_neg (not_not.mpr rfl)]
          rw [linkTop_some (by exact hrunning.free) (Proxy.eaInfo_setEaInfo_self ..),
            Proxy.setEaInfo_setEaInfo]
          exact .registers registry hfind ⟨hvalid, hfresh⟩ hlist hexited

/-! ## The second connection -/

/-- What the handler can do with the payload of a second connection. -/
inductive BotMove (s : Proxy Handler) (attempt : Attempt) : Option (Answer Handler) → Prop
  | internal (hinternal : s.Internal attempt.read.payloadBot.appId) : BotMove s attempt none
  | links (info : EaInfo) (hinfo : s.externalInfo attempt.read.payloadBot.appId = some info)
      (hpid : info.pid = attempt.read.payloadBot.pid) :
      BotMove s attempt (some {
        ret := if attempt.ackResult.ret = -1 then -ealErrSocketSyscall
          else eapSendPacketToUnixSk attempt.successAckPayloadResult
        ackRetVal := some ealErrOk
        proxy := s.setEaInfo attempt.read.payloadBot.appId
          (info.bot attempt.clientFd s.proxyCurHeartbeat) })
  | refuses (hnot : ¬ AcceptsBot s attempt.read.payloadBot) :
      BotMove s attempt (some {
        ret := eapSimpleSendAck attempt.ackResult 0
        ackRetVal := some (-ealErrLibSendWrongPacketType)
        proxy := s })

theorem updateExternalAppNotifyFd_eq (hfree : s.locked = false) {info : EaInfo}
    (hinfo : s.eaInfo app.id = some info) (fd : ℕ) :
    s.updateExternalAppNotifyFd app fd = some (s.setEaInfo app.id
      { info with notifyFd := if fd = 0 then info.notifyFd else fd }) := by
  unfold Proxy.updateExternalAppNotifyFd
  split_ifs with hfd
  · have hsame : s.setEaInfo app.id info = s := by
      rw [Proxy.setEaInfo, ← hinfo, Function.update_eq_self]
    exact congrArg some hsame.symm
  · rw [Proxy.withAppList_free hfree, hinfo]

theorem botMove (hrunning : s.Running) (hreceived : 0 < attempt.payloadResult.ret) :
    BotMove s attempt (registerBot s attempt) := by
  unfold registerBot Proxy.getAppObjByAppId
  dsimp only
  rw [eapRecv_eq_ok_iff.mpr hreceived, if_neg (not_not.mpr rfl),
    Proxy.withAppList_free hrunning.free, Option.bind_eq_bind, Option.bind_some]
  cases hfind : s.appWithId attempt.read.payloadBot.appId with
  | none =>
      refine .refuses ?_
      rintro ⟨info, hinfo, -⟩
      rw [Proxy.externalInfo_of_unknown hfind] at hinfo
      cases hinfo
  | some app =>
      have hid := Proxy.id_of_appWithId hfind
      have hsome : (s.appWithId attempt.read.payloadBot.appId).isSome := by rw [hfind]; rfl
      dsimp only
      rw [hid]
      cases hinfo : s.eaInfo attempt.read.payloadBot.appId with
      | none => exact .internal ⟨hsome, hinfo⟩
      | some info =>
          have hexternal := Proxy.externalInfo_eq_some_iff.mpr ⟨hsome, hinfo⟩
          simp only [Option.bind_eq_bind, Option.bind_some]
          by_cases hpid : info.pid = attempt.read.payloadBot.pid
          · rw [if_neg (not_not.mpr hpid), updateExternalAppNotifyFd_eq hrunning.free (hid ▸ hinfo),
              hid]
            simp only [Option.bind_some, Proxy.eaInfo_setEaInfo_self, Proxy.setEaInfo_setEaInfo,
              eapSimpleSendAck_eq]
            have hmove := BotMove.links info hexternal hpid
            by_cases hack : attempt.ackResult.ret = -1
            · simpa [hack, ealErrSocketSyscall, EaInfo.bot] using hmove
            · simpa [hack, EaInfo.bot] using hmove
          · rw [if_pos hpid]
            refine .refuses ?_
            rintro ⟨other, hother, hsame⟩
            rw [hexternal] at hother
            exact hpid (Option.some.inj hother ▸ hsame)

/-! ## A connection -/

theorem Attempt.Presents.not_bot {contents : Contents}
    (htop : attempt.Presents contents eaPacketTypeRegisterTop) :
    ¬ attempt.Presents contents eaPacketTypeRegisterBot :=
  fun hbot => absurd (htop.2.1.symm.trans hbot.2.1) (by decide)

theorem accepts_top_iff (forward : EventType → Handler) (s : Proxy Handler) {contents : Contents}
    (htop : attempt.Presents contents eaPacketTypeRegisterTop) :
    Accepts forward s attempt contents ↔ AcceptsTop forward s contents.payloadTop := by
  unfold Accepts
  simp [htop, htop.not_bot]

theorem accepts_bot_iff (forward : EventType → Handler) (s : Proxy Handler) {contents : Contents}
    (hbot : attempt.Presents contents eaPacketTypeRegisterBot) :
    Accepts forward s attempt contents ↔ AcceptsBot s contents.payloadBot := by
  have htop : ¬ attempt.Presents contents eaPacketTypeRegisterTop := fun htop => htop.not_bot hbot
  unfold Accepts
  simp [hbot, htop]

/-- What the handler can do with a new connection. -/
inductive HandleMove (forward : EventType → Handler) (s : Proxy Handler) (attempt : Attempt) :
    Option (Answer Handler) → Prop
  /-- No payload is received, or not with a header of a registration. -/
  | nothing (ret : ℤ) (ackRetVal : Option ℤ) (hret : ret ≠ 0) (hack : ackRetVal ≠ some ealErrOk)
      (htop : ¬ attempt.Presents attempt.read eaPacketTypeRegisterTop)
      (hbot : ¬ attempt.Presents attempt.read eaPacketTypeRegisterBot) :
      HandleMove forward s attempt (some ⟨ret, ackRetVal, s⟩)
  | top (htop : attempt.Presents attempt.read eaPacketTypeRegisterTop)
      {outcome : Option (Answer Handler)} (hmove : TopMove forward s attempt outcome) :
      HandleMove forward s attempt outcome
  | bot (hbot : attempt.Presents attempt.read eaPacketTypeRegisterBot)
      {outcome : Option (Answer Handler)} (hmove : BotMove s attempt outcome) :
      HandleMove forward s attempt outcome

theorem eapSimpleSendAck_ne_zero {retIfSuc : ℤ} (hne : retIfSuc ≠ 0) (result : SyscallResult) :
    eapSimpleSendAck result retIfSuc ≠ 0 := by
  rw [eapSimpleSendAck_eq]
  split_ifs
  · decide
  · exact hne

/-- A payload that is not received. -/
theorem HandleMove.of_payload (hpayload : ¬ 0 < attempt.payloadResult.ret) :
    eapRecvPacketFromUnixSk attempt.payloadResult ≠ ealErrOk ∧
      HandleMove forward s attempt
        (some ⟨eapRecvPacketFromUnixSk attempt.payloadResult, none, s⟩) := by
  have hfailed : eapRecvPacketFromUnixSk attempt.payloadResult ≠ ealErrOk :=
    fun hok => hpayload (eapRecv_eq_ok_iff.mp hok)
  exact ⟨hfailed, .nothing _ _ hfailed (by simp) (fun h => hpayload h.2.2.2)
    fun h => hpayload h.2.2.2⟩

theorem handleMove (forward : EventType → Handler) (attempt : Attempt) (hrunning : s.Running) :
    HandleMove forward s attempt (handleNewClientRegistration forward s attempt) := by
  unfold handleNewClientRegistration
  dsimp only
  split_ifs with hheader htype hapi htop
  · have hnone : ¬ 0 < attempt.headerResult.ret := fun hpos => hheader (eapRecv_eq_ok_iff.mpr hpos)
    exact .nothing _ _ hheader (by simp) (fun h => hnone h.1) fun h => hnone h.1
  · exact .nothing _ _ (eapSimpleSendAck_ne_zero (by decide) _) (by decide)
      (fun h => htype.1 h.2.1) fun h => htype.2 h.2.1
  · exact .nothing _ _ (eapSimpleSendAck_ne_zero (by decide) _) (by decide)
      (fun h => hapi h.2.2.1) fun h => hapi h.2.2.1
  · have hreceived := eapRecv_eq_ok_iff.mp (not_not.mp hheader)
    by_cases hpayload : 0 < attempt.payloadResult.ret
    · exact .top ⟨hreceived, htop, not_not.mp hapi, hpayload⟩ (topMove hrunning hpayload)
    · obtain ⟨hfailed, hmove⟩ := HandleMove.of_payload hpayload
      rw [registerTop, if_pos hfailed]
      exact hmove
  · have hreceived := eapRecv_eq_ok_iff.mp (not_not.mp hheader)
    have hbot : attempt.read.header.packetType = eaPacketTypeRegisterBot := by
      by_contra hne
      exact htype ⟨htop, hne⟩
    by_cases hpayload : 0 < attempt.payloadResult.ret
    · exact .bot ⟨hreceived, hbot, not_not.mp hapi, hpayload⟩ (botMove hrunning hpayload)
    · obtain ⟨hfailed, hmove⟩ := HandleMove.of_payload hpayload
      rw [registerBot, if_pos hfailed]
      exact hmove

/-- The list can take the application. -/
theorem Proxy.Running.register (hrunning : s.Running) {registry : Registry Handler}
    (hfresh : ∀ other ∈ s.registry.appList, Compatible other app)
    (hlist : registry.appList = s.registry.appList ++ [app])
    (hexited : registry.exited = s.registry.exited) : { s with registry }.Running where
  compatible := by
    rw [hlist]
    refine List.pairwise_append.mpr ⟨hrunning.compatible, List.pairwise_singleton _ _, ?_⟩
    intro other hother last hlast
    rw [List.mem_singleton.mp hlast]
    exact hfresh other hother
  alive := hexited.trans hrunning.alive
  free := hrunning.free

/-- A handler that returns leaves the mutex free and the list in order. -/
theorem HandleMove.running (hrunning : s.Running) {answer : Answer Handler}
    (hmove : HandleMove forward s attempt (some answer)) : answer.proxy.Running := by
  cases hmove with
  | nothing => exact hrunning
  | top _ hmove =>
      cases hmove with
      | known info hinfo => exact hrunning.setEaInfo _ _
      | registers registry hunknown hright hlist hexited =>
          exact (hrunning.register hright.2 hlist hexited).setEaInfo _ _
      | unset hempty hright hret =>
          exact ⟨List.pairwise_singleton _ _, hrunning.alive, hrunning.free⟩
      | refuses hnot => exact hrunning
  | bot _ hmove =>
      cases hmove with
      | links info hinfo hpid => exact hrunning.setEaInfo _ _
      | refuses hnot => exact hrunning

theorem Attempt.Intact.presents_iff (hintact : attempt.Intact) (packetType : ℕ) :
    attempt.Presents attempt.read packetType ↔ attempt.Presents attempt.sent packetType := by
  unfold Attempt.Presents
  refine and_congr_right fun hreceived => ?_
  rw [hintact.header hreceived]

/-- A refusal that is a return code, or does not reach the client. -/
theorem Answered.of_refused {ret : ℤ} {ackRetVal : Option ℤ} (hret : ret ≠ 0)
    (hack : ackRetVal ≠ some ealErrOk) (hnot : ¬ Accepts forward s attempt attempt.sent) :
    Answered forward s attempt ⟨ret, ackRetVal, s⟩ where
  ret_eq_zero_iff := iff_of_false hret fun h => hnot h.1
  acknowledges_iff := iff_of_false hack hnot
  unchanged _ := rfl
  interact _ haccepts := absurd haccepts hnot
  notify _ haccepts := absurd haccepts hnot

/-- An accepted first connection. -/
theorem Answered.of_top {proxy : Proxy Handler} {info : EaInfo}
    (htop : attempt.Presents attempt.sent eaPacketTypeRegisterTop)
    (haccepts : Accepts forward s attempt attempt.sent)
    (hinfo : proxy.externalInfo attempt.sent.payloadTop.id = some info)
    (hfd : info.interactFd = attempt.clientFd) :
    Answered forward s attempt
      ⟨eapSimpleSendAck attempt.ackResult 0, some ealErrOk, proxy⟩ where
  ret_eq_zero_iff := by
    have htype : attempt.sent.header.packetType ≠ eaPacketTypeRegisterBot := by
      rw [htop.2.1]
      decide
    rw [eapSimpleSendAck_eq, and_iff_right haccepts]
    unfold Attempt.RepliesSent
    simp [htype, ealErrSocketSyscall]
  acknowledges_iff := iff_of_true rfl haccepts
  unchanged hnot := absurd haccepts hnot
  interact _ _ := ⟨info, hinfo, hfd⟩
  notify hbot _ := absurd hbot htop.not_bot

/-- An accepted second connection. -/
theorem Answered.of_bot {proxy : Proxy Handler} {info : EaInfo}
    (hbot : attempt.Presents attempt.sent eaPacketTypeRegisterBot)
    (haccepts : Accepts forward s attempt attempt.sent)
    (hinfo : proxy.externalInfo attempt.sent.payloadBot.appId = some info)
    (hfd : info.notifyFd = attempt.clientFd) :
    Answered forward s attempt
      ⟨if attempt.ackResult.ret = -1 then -ealErrSocketSyscall
        else eapSendPacketToUnixSk attempt.successAckPayloadResult, some ealErrOk, proxy⟩ where
  ret_eq_zero_iff := by
    rw [and_iff_right haccepts]
    unfold Attempt.RepliesSent
    split_ifs with hfailed
    · have hne : -ealErrSocketSyscall ≠ 0 := by decide
      exact iff_of_false hne fun h => h.1 hfailed
    · rw [and_iff_right hfailed, forall_prop_of_true hbot.2.1]
      exact eapSend_eq_ok_iff
  acknowledges_iff := iff_of_true rfl haccepts
  unchanged hnot := absurd haccepts hnot
  interact htop _ := absurd hbot htop.not_bot
  notify _ _ := ⟨info, hinfo, hfd⟩

theorem Regular.answered_top (hregular : Regular forward s attempt)
    (htop : attempt.Presents attempt.read eaPacketTypeRegisterTop)
    {outcome : Option (Answer Handler)} (hmove : TopMove forward s attempt outcome) :
    ∃ answer, outcome = some answer ∧ Answered forward s attempt answer := by
  have hsent := (hregular.intact.presents_iff _).mp htop
  have hpayload := hregular.intact.payloadTop htop
  have hiff := accepts_top_iff forward s hsent
  cases hmove with
  | internal hinternal =>
      rw [hpayload] at hinternal
      exact absurd hinternal (hregular.externalTop hsent)
  | known info hinfo =>
      rw [hpayload] at hinfo ⊢
      have haccepts := hiff.mpr (Or.inl ⟨info, hinfo⟩)
      have hfind := (Proxy.externalInfo_eq_some_iff.mp hinfo).1
      refine ⟨_, rfl, .of_top hsent haccepts (Proxy.externalInfo_setEaInfo_self hfind _) ?_⟩
      simp [EaInfo.top, hregular.fd haccepts]
  | registers registry hunknown hright hlist hexited =>
      rw [hpayload] at hright hlist ⊢
      have haccepts := hiff.mpr (Or.inr hright)
      refine ⟨_, rfl, .of_top hsent haccepts (Proxy.externalInfo_setEaInfo_self ?_ _) ?_⟩
      · have hmem : attempt.sent.payloadTop.appObj forward ∈ registry.appList := by
          rw [hlist]
          exact List.mem_append_right _ List.mem_cons_self
        exact Proxy.isSome_appWithId (s := { s with registry }) hmem
      · simp [EaInfo.top, hregular.fd haccepts]
  | unset hempty hright hret =>
      rw [hpayload] at hright
      exact absurd hret (Int.not_lt.mpr (hregular.retSet hsent hempty hright))
  | refuses hnot =>
      rw [hpayload] at hnot
      refine ⟨_, rfl, .of_refused ?_ (by decide) fun haccepts => hnot (hiff.mp haccepts)⟩
      exact eapSimpleSendAck_ne_zero (by decide) _

theorem Regular.answered_bot (hregular : Regular forward s attempt)
    (hbot : attempt.Presents attempt.read eaPacketTypeRegisterBot)
    {outcome : Option (Answer Handler)} (hmove : BotMove s attempt outcome) :
    ∃ answer, outcome = some answer ∧ Answered forward s attempt answer := by
  have hsent := (hregular.intact.presents_iff _).mp hbot
  have hpayload := hregular.intact.payloadBot hbot
  have hiff := accepts_bot_iff forward s hsent
  cases hmove with
  | internal hinternal =>
      rw [hpayload] at hinternal
      exact absurd hinternal (hregular.externalBot hsent)
  | links info hinfo hpid =>
      rw [hpayload] at hinfo hpid ⊢
      have haccepts := hiff.mpr ⟨info, hinfo, hpid⟩
      have hfind := (Proxy.externalInfo_eq_some_iff.mp hinfo).1
      refine ⟨_, rfl, .of_bot hsent haccepts (Proxy.externalInfo_setEaInfo_self hfind _) ?_⟩
      simp [EaInfo.bot, hregular.fd haccepts]
  | refuses hnot =>
      rw [hpayload] at hnot
      have hfailed := hregular.refusedBot hsent hnot
      refine ⟨_, rfl, .of_refused ?_ (by decide) fun haccepts => hnot (hiff.mp haccepts)⟩
      rw [eapSimpleSendAck_eq, if_pos hfailed]
      decide

theorem Regular.answered (hrunning : s.Running) (hregular : Regular forward s attempt) :
    ∃ answer, handleNewClientRegistration forward s attempt = some answer ∧
      Answered forward s attempt answer := by
  have hmove := handleMove forward attempt hrunning
  generalize handleNewClientRegistration forward s attempt = outcome at hmove ⊢
  cases hmove with
  | nothing ret ackRetVal hret hack htop hbot =>
      refine ⟨_, rfl, .of_refused hret hack fun haccepts => ?_⟩
      rcases haccepts with ⟨hsent, -⟩ | ⟨hsent, -⟩
      · exact htop ((hregular.intact.presents_iff _).mpr hsent)
      · exact hbot ((hregular.intact.presents_iff _).mpr hsent)
  | top htop hmove => exact hregular.answered_top htop hmove
  | bot hbot hmove => exact hregular.answered_bot hbot hmove

/-! ## Sequences of connections -/

theorem connect_eq {s : Server Handler} {answer : Answer Handler}
    (hanswer : handleNewClientRegistration forward s.proxy attempt = some answer) :
    s.connect forward attempt =
      { proxy := answer.proxy
        polled := if answer.ret = 0 then s.polled ++ [attempt.clientFd] else s.polled } := by
  rw [Server.connect, hanswer]

theorem Regular.registers {s : Server Handler} (hrunning : s.proxy.Running)
    (hregular : Regular forward s.proxy attempt) : Registers forward s attempt := by
  obtain ⟨answer, hanswer, hanswered⟩ := hregular.answered hrunning
  refine ⟨⟨answer, hanswer, hanswered⟩, ?_⟩
  rw [connect_eq hanswer, ← hanswered.ret_eq_zero_iff]
  dsimp only
  split_ifs with hret
  · exact iff_of_true rfl hret
  · exact iff_of_false (by simp) hret

theorem Proxy.Running.connect {s : Server Handler} (hrunning : s.proxy.Running)
    (attempt : Attempt) : (s.connect forward attempt).proxy.Running := by
  have hmove := handleMove forward attempt hrunning
  unfold Server.connect
  generalize handleNewClientRegistration forward s.proxy attempt = outcome at hmove ⊢
  cases outcome with
  | none => exact hrunning
  | some answer => exact hmove.running hrunning

end Moves

/-- In a sequence of connections that meets none of the defects, from any list of
applications on, every connection is answered rightly and polled if it is registered. -/
theorem registers_run (forward : EventType → Handler) {start : Server Handler}
    (hstart : start.proxy.Running) (attempts : List Attempt)
    (hregular : Guarded (Server.connect forward)
      (fun s attempt => Regular forward s.proxy attempt) start attempts) :
    ∀ first last, first ++ [last] <+: attempts →
      Registers forward (run (Server.connect forward) start first) last := by
  intro first last hfirst
  have hrunning : (run (Server.connect forward) start first).proxy.Running :=
    run_invariant_of_mem _ (fun s : Server Handler => s.proxy.Running) first hstart
      fun s attempt _ hs => hs.connect attempt
  exact ((guarded_iff_steps attempts).mp hregular first last hfirst).registers hrunning

/-- An application of the middleware. -/
def internalApp : AppObj Unit where
  name := ['A', 'T', 'S', 'C']
  id := 3
  priority := 30
  handler _ := none

/-- A server with an internal application only. -/
def Server.started : Server Unit where
  proxy :=
    { registry := { Registry.initial with appList := [internalApp], appNum := 1 }
      eaInfo := fun _ => none
      proxyCurHeartbeat := 0
      locked := false }
  polled := []

theorem running_started : Server.started.proxy.Running where
  compatible := List.pairwise_singleton _ _
  alive := rfl
  free := rfl

/-- A connection for which every system call succeeds and everything arrives whole. -/
def Attempt.smooth (clientFd : ℕ) (contents : Contents) (payloadSize : ℕ) : Attempt where
  clientFd := clientFd
  sent := contents
  read := contents
  headerResult := ⟨headerSize, 0⟩
  payloadResult := ⟨payloadSize, 0⟩
  ackResult := ⟨8, 0⟩
  successAckPayloadResult := ⟨56, 0⟩
  ret := 0
  wholeHeader _ := rfl
  wholePayloadTop _ _ := rfl
  wholePayloadBot _ _ := rfl

/-- The first connection of an application in the process 100. -/
def firstConnection : Attempt :=
  .smooth 7
    { header := ⟨eaPacketTypeRegisterTop, apiIdAppRemoteRegister, 0⟩
      payloadTop := ⟨['E', 'X', 'T'], 20, 5, 0, 100⟩
      payloadBot := ⟨0, 0⟩ }
    payloadTopSize

/-- The second one of the same process. -/
def secondConnection : Attempt :=
  .smooth 8
    { header := ⟨eaPacketTypeRegisterBot, apiIdAppRemoteRegister, 0⟩
      payloadTop := ⟨[], 0, 0, 0, 0⟩
      payloadBot := ⟨20, 100⟩ }
    payloadBotSize

theorem regular_firstConnection :
    Regular (fun _ => ()) Server.started.proxy firstConnection where
  intact := Attempt.intact_of_whole (fun _ => rfl) (fun _ => rfl)
    fun hbot => absurd hbot.2.1 (by decide)
  externalTop _ hinternal := absurd hinternal.1 (by decide)
  externalBot hbot := absurd hbot.2.1 (by decide)
  refusedBot hbot := absurd hbot.2.1 (by decide)
  retSet _ hempty := absurd hempty (by decide)
  fd _ := by decide

theorem regular_secondConnection :
    Regular (fun _ => ()) (Server.started.connect (fun _ => ()) firstConnection).proxy
      secondConnection where
  intact := Attempt.intact_of_whole (fun _ => rfl) (fun htop => absurd htop.2.1 (by decide))
    fun _ => rfl
  externalTop htop := absurd htop.2.1 (by decide)
  externalBot _ hinternal := absurd hinternal.2 (by decide)
  refusedBot _ hnot := absurd ⟨⟨100, 0, 7, 0⟩, by decide, rfl⟩ hnot
  retSet htop := absurd htop.2.1 (by decide)
  fd _ := by decide

/-- The second connection of an application after its first one. -/
theorem registers_run_two :
    Registers (fun _ => ())
      (run (Server.connect fun _ => ()) Server.started [firstConnection]) secondConnection :=
  registers_run (fun _ => ()) running_started [firstConnection, secondConnection]
    ⟨regular_firstConnection, regular_secondConnection, trivial⟩ [firstConnection]
    secondConnection List.prefix_rfl

/-- A second connection of an application that was never registered. -/
def unknownConnection : Attempt :=
  .smooth 8
    { header := ⟨eaPacketTypeRegisterBot, apiIdAppRemoteRegister, 0⟩
      payloadTop := ⟨[], 0, 0, 0, 0⟩
      payloadBot := ⟨21, 100⟩ }
    payloadBotSize

/-- A second connection that is refused is polled all the same. -/
theorem refused_connection_polled :
    (Server.started.connect (fun _ => ()) unknownConnection).polled = [8] ∧
      ¬ Accepts (fun _ => ()) Server.started.proxy unknownConnection unknownConnection.sent ∧
      ¬ Registers (fun _ => ()) Server.started unknownConnection := by
  have hpolled : (Server.started.connect (fun _ => ()) unknownConnection).polled = [8] := by
    decide
  have hnot : ¬ Accepts (fun _ => ()) Server.started.proxy unknownConnection
      unknownConnection.sent := by
    rintro (⟨htop, -⟩ | ⟨-, info, hinfo, -⟩)
    · exact absurd htop.2.1 (by decide)
    · have hnone : Server.started.proxy.externalInfo unknownConnection.sent.payloadBot.appId =
          none := by
        decide
      rw [hnone] at hinfo
      cases hinfo
  exact ⟨hpolled, hnot, fun hregisters => hnot (hregisters.polled_iff.mp hpolled).1⟩

end AdaptiveSignal.ExternalApps
