import AdaptiveSignal.Registration.CallbackLists

/-! # The proxy of the external applications

An external application runs in a process of its own and is served over two sockets.
The proxy records them with the application, beside its process and its last heartbeat;
an internal application has no such record. The list of all applications is guarded by
a mutex, for which every function waits that looks at the list.
-/

namespace AdaptiveSignal.ExternalApps

open Registration

/-! ## Sockets -/

/-- What a system call returns, and `errno` after it. -/
structure SyscallResult where
  ret : ℤ
  errno : ℕ
  deriving DecidableEq

def epipe : ℕ := 32

def ealErrOk : ℤ := 0
def ealErrSocketSyscall : ℤ := 1025
def ealErrSocketDisconnect : ℤ := 1028

def eapRecvPacketFromUnixSk (result : SyscallResult) : ℤ :=
  if result.ret = 0 then -ealErrSocketDisconnect
  else if result.ret < 0 then -ealErrSocketSyscall
  else ealErrOk

def eapSendPacketToUnixSk (result : SyscallResult) : ℤ :=
  if result.ret = -1 then
    -- the comparison is with `-EPIPE`
    if (result.errno : ℤ) = -epipe then -ealErrSocketDisconnect else -ealErrSocketSyscall
  else ealErrOk

def eapSimpleSendAck (result : SyscallResult) (retIfSuc : ℤ) : ℤ :=
  let ret := eapSendPacketToUnixSk result
  if ret ≠ 0 then ret else retIfSuc

section Sockets

variable {result : SyscallResult}

theorem eapRecv_eq_ok_iff : eapRecvPacketFromUnixSk result = ealErrOk ↔ 0 < result.ret := by
  unfold eapRecvPacketFromUnixSk ealErrOk ealErrSocketDisconnect ealErrSocketSyscall
  split_ifs <;> simp <;> omega

/-- A `recv` that returns 0 has found the end of the stream. -/
theorem eapRecv_eq_disconnect_iff :
    eapRecvPacketFromUnixSk result = -ealErrSocketDisconnect ↔ result.ret = 0 := by
  unfold eapRecvPacketFromUnixSk ealErrOk ealErrSocketDisconnect ealErrSocketSyscall
  split_ifs <;> simp <;> omega

/-- Whatever `errno` is, a failed `send` is reported as an error of the system. -/
theorem eapSend_eq (result : SyscallResult) :
    eapSendPacketToUnixSk result = if result.ret = -1 then -ealErrSocketSyscall else ealErrOk := by
  have hne : (result.errno : ℤ) ≠ -epipe := by
    unfold epipe
    omega
  rw [eapSendPacketToUnixSk, if_neg hne]

theorem eapSend_eq_ok_iff : eapSendPacketToUnixSk result = ealErrOk ↔ result.ret ≠ -1 := by
  rw [eapSend_eq]
  split_ifs with hfailed
  · exact iff_of_false (by decide) (not_not.mpr hfailed)
  · exact iff_of_true rfl hfailed

theorem eapSend_ne_disconnect : eapSendPacketToUnixSk result ≠ -ealErrSocketDisconnect := by
  rw [eapSend_eq]
  split_ifs <;> decide

theorem eapSimpleSendAck_eq (result : SyscallResult) (retIfSuc : ℤ) :
    eapSimpleSendAck result retIfSuc =
      if result.ret = -1 then -ealErrSocketSyscall else retIfSuc := by
  unfold eapSimpleSendAck
  rw [eapSend_eq]
  by_cases hsent : result.ret = -1
  · rw [if_pos hsent, if_pos (by decide), if_pos hsent]
  · rw [if_neg hsent, if_neg (by decide), if_neg hsent]

end Sockets

/-! ## Applications -/

/-- `ea_info_t`. A descriptor of 0 stands for no socket. -/
structure EaInfo where
  pid : ℤ
  notifyFd : ℕ
  interactFd : ℕ
  heartbeatRc : UInt8
  deriving DecidableEq

namespace EaInfo

/-- As it is allocated. -/
def cleared : EaInfo where
  pid := 0
  notifyFd := 0
  interactFd := 0
  heartbeatRc := 0

/-- The application has a socket. -/
def Linked (info : EaInfo) : Prop :=
  info.interactFd ≠ 0 ∨ info.notifyFd ≠ 0

instance (info : EaInfo) : Decidable info.Linked :=
  inferInstanceAs (Decidable (info.interactFd ≠ 0 ∨ info.notifyFd ≠ 0))

/-- One of its sockets is this one. -/
def Uses (info : EaInfo) (fd : ℕ) : Prop :=
  info.notifyFd = fd ∨ info.interactFd = fd

instance (info : EaInfo) (fd : ℕ) : Decidable (info.Uses fd) :=
  inferInstanceAs (Decidable (info.notifyFd = fd ∨ info.interactFd = fd))

end EaInfo

variable {Handler : Type*}

structure Proxy (Handler : Type*) where
  registry : Registry Handler
  /-- `ea_info_p` of the application with an id, `none` for an internal one. -/
  eaInfo : UInt8 → Option EaInfo
  proxyCurHeartbeat : UInt8
  /-- `mutex_app_list` is held. -/
  locked : Bool

namespace Proxy

/-- The value of a function that takes `mutex_app_list` and gives it back, for which it
waits forever where nobody else gives it back. -/
def withAppList {Value : Type*} (s : Proxy Handler) (value : Value) : Option Value :=
  if s.locked then none else some value

def setEaInfo (s : Proxy Handler) (id : UInt8) (info : EaInfo) : Proxy Handler :=
  { s with eaInfo := Function.update s.eaInfo id (some info) }

/-- The application with an id. No two have the same. -/
def appWithId (s : Proxy Handler) (id : UInt8) : Option (AppObj Handler) :=
  s.registry.appList.find? fun app => app.id = id

def getAppObjByAppId (s : Proxy Handler) (id : UInt8) : Option (Option (AppObj Handler)) :=
  s.withAppList (s.appWithId id)

/-- The caller does not use what it returns. -/
def resetExternalAppTwoNewSkFds (s : Proxy Handler) (app : AppObj Handler)
    (newInteractFd : ℕ) : Option (Proxy Handler) :=
  if newInteractFd = 0 then some s
  else
    s.withAppList <|
      match s.eaInfo app.id with
      | none => s
      | some info =>
          s.setEaInfo app.id { info with notifyFd := 0, interactFd := newInteractFd }

def updateExternalAppNotifyFd (s : Proxy Handler) (app : AppObj Handler) (socketFd : ℕ) :
    Option (Proxy Handler) :=
  if socketFd = 0 then some s
  else
    s.withAppList <|
      match s.eaInfo app.id with
      | none => s
      | some info => s.setEaInfo app.id { info with notifyFd := socketFd }

/-- `app_register` of an application with a new record; `ret` is what lies in a variable of
`app_obj_insert` that may not be set. -/
def appRegister (s : Proxy Handler) (ret : ℤ) (app : AppObj Handler) : ℤ × Proxy Handler :=
  let (ret, registry) := s.registry.appRegister ret app
  -- The record is on the list where the application is.
  if s.registry.appList.length < registry.appList.length then
    (ret, { s with registry }.setEaInfo app.id .cleared)
  else (ret, { s with registry })

/-- The record of the application with an id, if it is an external one. -/
def externalInfo (s : Proxy Handler) (id : UInt8) : Option EaInfo :=
  if (s.appWithId id).isSome then s.eaInfo id else none

/-- The application with an id is a part of the middleware. -/
def Internal (s : Proxy Handler) (id : UInt8) : Prop :=
  (s.appWithId id).isSome ∧ s.eaInfo id = none

/-- The process runs, with any applications that could be registered side by side, and
nobody holds the mutex. -/
structure Running (s : Proxy Handler) : Prop where
  compatible : s.registry.appList.Pairwise Compatible
  alive : s.registry.exited = false
  free : s.locked = false

/-! ### What the operations leave -/

section Fields

variable (s : Proxy Handler) (id : UInt8) (info : EaInfo)

@[simp] theorem registry_setEaInfo : (s.setEaInfo id info).registry = s.registry := rfl

@[simp] theorem locked_setEaInfo : (s.setEaInfo id info).locked = s.locked := rfl

@[simp] theorem proxyCurHeartbeat_setEaInfo :
    (s.setEaInfo id info).proxyCurHeartbeat = s.proxyCurHeartbeat := rfl

@[simp] theorem appWithId_setEaInfo (other : UInt8) :
    (s.setEaInfo id info).appWithId other = s.appWithId other := rfl

@[simp] theorem eaInfo_setEaInfo_self : (s.setEaInfo id info).eaInfo id = some info :=
  Function.update_self ..

theorem eaInfo_setEaInfo_of_ne {other : UInt8} (hne : other ≠ id) :
    (s.setEaInfo id info).eaInfo other = s.eaInfo other :=
  Function.update_of_ne hne ..

@[simp] theorem setEaInfo_setEaInfo (later : EaInfo) :
    (s.setEaInfo id info).setEaInfo id later = s.setEaInfo id later := by
  simp [setEaInfo]

end Fields

section List

variable {s : Proxy Handler} {id : UInt8} {app : AppObj Handler}

theorem id_of_appWithId (hfind : s.appWithId id = some app) : app.id = id := by
  simpa using List.find?_some hfind

theorem exists_mem_of_appWithId (hfind : (s.appWithId id).isSome) :
    ∃ app ∈ s.registry.appList, app.id = id := by
  obtain ⟨app, happ⟩ := Option.isSome_iff_exists.mp hfind
  exact ⟨app, List.mem_of_find?_eq_some happ, id_of_appWithId happ⟩

theorem isSome_appWithId (hmem : app ∈ s.registry.appList) : (s.appWithId app.id).isSome :=
  List.find?_isSome.mpr ⟨app, hmem, by simp⟩

theorem externalInfo_eq_some_iff {info : EaInfo} :
    s.externalInfo id = some info ↔ (s.appWithId id).isSome ∧ s.eaInfo id = some info := by
  unfold externalInfo
  split_ifs with hfind
  · exact (and_iff_right hfind).symm
  · exact iff_of_false (by simp) fun h => hfind h.1

theorem externalInfo_of_unknown (hunknown : s.appWithId id = none) : s.externalInfo id = none := by
  rw [externalInfo, hunknown]
  rfl

theorem externalInfo_setEaInfo_self (hfind : (s.appWithId id).isSome) (info : EaInfo) :
    (s.setEaInfo id info).externalInfo id = some info :=
  externalInfo_eq_some_iff.mpr ⟨hfind, s.eaInfo_setEaInfo_self id info⟩

theorem externalInfo_setEaInfo_of_ne {other : UInt8} (hne : other ≠ id) (info : EaInfo) :
    (s.setEaInfo id info).externalInfo other = s.externalInfo other := by
  rw [externalInfo, externalInfo, appWithId_setEaInfo, s.eaInfo_setEaInfo_of_ne id info hne]

/-- The callback lists do not matter. -/
theorem externalInfo_registry {registry : Registry Handler}
    (hlist : registry.appList = s.registry.appList) (id : UInt8) :
    { s with registry }.externalInfo id = s.externalInfo id := by
  rw [externalInfo, externalInfo, appWithId, appWithId, hlist]

/-- Nor does an application with another id at the end of the list. -/
theorem externalInfo_append {registry : Registry Handler}
    (hlist : registry.appList = s.registry.appList ++ [app]) (hne : id ≠ app.id) :
    { s with registry }.externalInfo id = s.externalInfo id := by
  have hfind : { s with registry }.appWithId id = s.appWithId id := by
    rw [appWithId, appWithId, hlist, List.find?_append]
    simp [Ne.symm hne]
  rw [externalInfo, externalInfo, hfind]

theorem withAppList_free {Value : Type*} (hfree : s.locked = false) (value : Value) :
    s.withAppList value = some value := by
  rw [withAppList, hfree, if_neg Bool.false_ne_true]

theorem Running.setEaInfo (h : s.Running) (id : UInt8) (info : EaInfo) :
    (s.setEaInfo id info).Running :=
  ⟨h.compatible, h.alive, h.free⟩

end List

end Proxy

end AdaptiveSignal.ExternalApps
