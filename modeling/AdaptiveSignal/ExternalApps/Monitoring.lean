import AdaptiveSignal.ExternalApps.Heartbeats

/-! # Monitoring of external applications

Beside the proxy the number of rounds is kept that passed since an application was last
heard of. The distance of the round counter from the mark of the application is this number
as long as the application has a socket, since its sockets are closed before the counter
comes round again.
-/

namespace AdaptiveSignal.ExternalApps

open Foundation Registration

variable {Handler : Type}

/-! ## What happens to the proxy -/

/-- What the main loop handles. -/
inductive ProxyEvent
  | register (attempt : Attempt)
  | packet (round : PacketRound)
  | check (close : ℕ → SyscallResult)

/-- A system call has found that the other end of the connection is closed. -/
def PeerClosed : SocketCall × SyscallResult → Prop
  | (.recv, result) => result.ret = 0
  | (.send, result) => result.ret = -1 ∧ result.errno = epipe

namespace Proxy

variable (forward : EventType → Handler)

/-- The proxy after an event whose handler returns. -/
def handle (s : Proxy Handler) : ProxyEvent → Option (Proxy Handler)
  | .register attempt => (handleNewClientRegistration forward s attempt).map Answer.proxy
  | .packet round => (s.handleRegisteredClientPacket forward round).map Handling.proxy
  | .check close => (s.checkAllExternalAppHeartbeats close).map Prod.snd

/-- A registration of the application with an id is accepted. -/
def RegistersAs (s : Proxy Handler) (id : UInt8) : ProxyEvent → Prop
  | .register attempt =>
      Accepts forward s attempt attempt.read ∧
        (attempt.read.header.packetType = eaPacketTypeRegisterTop ∧
            attempt.read.payloadTop.id = id ∨
          attempt.read.header.packetType = eaPacketTypeRegisterBot ∧
            attempt.read.payloadBot.appId = id)
  | _ => False

/-- A heartbeat of the application with an id is received. -/
def Reports (id : UInt8) : ProxyEvent → Prop
  | .packet round =>
      0 < round.headerResult.ret ∧ round.read.packetType = eaPacketTypeReport ∧
        round.read.appId = id.toNat
  | _ => False

/-- A call for a packet finds the peer closed. -/
def FindsPeerClosed (s : Proxy Handler) (round : PacketRound) : Prop :=
  ∃ handling, s.handleRegisteredClientPacket forward round = some handling ∧
    ∃ call ∈ handling.calls, PeerClosed call

end Proxy

/-- The proxy with the rounds of the timer since each application was last heard of. -/
structure Monitored (Handler : Type) where
  proxy : Proxy Handler
  age : UInt8 → ℕ

section Monitored

variable (forward : EventType → Handler)

/-- What is to close the sockets of an application. -/
def Due (s : Monitored Handler) (id : UInt8) (info : EaInfo) : ProxyEvent → Prop
  | .register _ => False
  | .packet round =>
      round.clientFd ≠ 0 ∧ info.Uses round.clientFd ∧ s.proxy.FindsPeerClosed forward round
  | .check _ => heartbeatMonitorAllowedThershhold.toNat < s.age id

open Classical in
/-- The number of rounds is counted by those who look on. -/
noncomputable def Monitored.ageAfter (s : Monitored Handler) (event : ProxyEvent) (id : UInt8) :
    ℕ :=
  if s.proxy.RegistersAs forward id event ∨ Proxy.Reports id event then 0
  else
    match event with
    | .check _ => s.age id + 1
    | _ => s.age id

/-- Nothing happens after the process has ended. -/
noncomputable def Monitored.step (s : Monitored Handler) (event : ProxyEvent) :
    Monitored Handler :=
  if s.proxy.registry.exited then s
  else
    { proxy := (s.proxy.handle forward event).getD s.proxy
      age := s.ageAfter forward event }

/-- What an event is to do to the records of the applications. -/
structure Tended (s : Monitored Handler) (event : ProxyEvent) : Prop where
  returns : (s.proxy.handle forward event).isSome
  free : (s.step forward event).proxy.locked = false
  /-- An application loses its sockets exactly if it is due. -/
  unlinked_iff : ∀ id info, s.proxy.externalInfo id = some info → info.Linked →
    ((∃ info', (s.step forward event).proxy.externalInfo id = some info' ∧ ¬ info'.Linked) ↔
      Due forward s id info event)
  /-- All others keep theirs. -/
  others : ∀ id info, s.proxy.externalInfo id = some info →
    ¬ (info.Linked ∧ Due forward s id info event) → ¬ s.proxy.RegistersAs forward id event →
      ∃ info', (s.step forward event).proxy.externalInfo id = some info' ∧
        info'.interactFd = info.interactFd ∧ info'.notifyFd = info.notifyFd

/-- The distance of the round counter from the mark of an application with a socket is the
number of rounds that it has not been heard of. -/
def Stamped (s : Monitored Handler) : Prop :=
  ∀ id info, s.proxy.externalInfo id = some info → info.Linked →
    (s.proxy.proxyCurHeartbeat - info.heartbeatRc).toNat = s.age id

/-! ## The conditions -/

/-- The system calls that a packet calls for, up to the first that fails. -/
def PacketRound.calls (round : PacketRound) : SocketCalls :=
  (.recv, round.headerResult) ::
    if eapRecvPacketFromUnixSk round.headerResult ≠ ealErrOk then []
    else if round.read.packetType = eaPacketTypeReport then []
    else if round.read.packetType ≠ eaPacketTypeReq then [(.send, round.ackResult)]
    else if round.clientFd = 0 ∨ round.read.apiId ≤ apiIdAppRemoteRegister ∨
        numOfApiIdDefinition ≤ round.read.apiId then []
    else (callAll round.result 0 (apiWrapperCalls round.read.apiId)).2

/-- One of them finds the peer closed. -/
def PacketRound.MeetsClosedPeer (round : PacketRound) : Prop :=
  ∃ call ∈ round.calls, PeerClosed call

/-- A packet that meets none of the defects of its handler. -/
structure SoundPacket (s : Proxy Handler) (round : PacketRound) : Prop where
  /-- A `send` does not find the peer of an application gone. -/
  sends : ∀ result, (.send, result) ∈ round.calls → PeerClosed (.send, result) →
    ∀ id info, s.externalInfo id = some info → ¬ info.Uses round.clientFd
  /-- One application at most records the connection. -/
  alone : round.MeetsClosedPeer →
    ∀ id info other info', s.externalInfo id = some info → info.Uses round.clientFd →
      s.externalInfo other = some info' → info'.Uses round.clientFd → id = other
  fd : round.MeetsClosedPeer → round.clientFd ≠ 0
  /-- The id of a heartbeat fits its type, or is then that of no application with a socket. -/
  report : 0 < round.headerResult.ret → round.read.packetType = eaPacketTypeReport →
    ∀ info, s.externalInfo (UInt8.ofNat round.read.appId) = some info → info.Linked →
      round.read.appId < 256

/-- An event that meets none of the defects of the proxy. -/
def Sound (s : Proxy Handler) : ProxyEvent → Prop
  | .register attempt =>
      (attempt.Presents attempt.read eaPacketTypeRegisterTop →
          ¬ s.Internal attempt.read.payloadTop.id) ∧
        (attempt.Presents attempt.read eaPacketTypeRegisterBot →
          ¬ s.Internal attempt.read.payloadBot.appId)
  | .packet round => SoundPacket s round
  | .check _ => s.registry.appList ≠ []

/-! ## One event -/

/-- What an event makes of a record that was there before. -/
structure Keeps (s : Monitored Handler) (event : ProxyEvent) (id : UInt8) (info info' : EaInfo) :
    Prop where
  unlinks : info.Linked → Due forward s id info event → ¬ info'.Linked
  stays : info.Linked → ¬ Due forward s id info event → info'.Linked
  sockets : ¬ (info.Linked ∧ Due forward s id info event) →
    ¬ s.proxy.RegistersAs forward id event →
      info'.interactFd = info.interactFd ∧ info'.notifyFd = info.notifyFd

/-- What an event makes of all records. -/
structure Records (s : Monitored Handler) (event : ProxyEvent) (proxy : Proxy Handler) :
    Prop where
  keeps : ∀ id info, s.proxy.externalInfo id = some info →
    ∃ info', proxy.externalInfo id = some info' ∧ Keeps forward s event id info info'
  stamped : ∀ id info', proxy.externalInfo id = some info' → info'.Linked →
    (proxy.proxyCurHeartbeat - info'.heartbeatRc).toNat = s.ageAfter forward event id

/-- What an event leaves. -/
structure Leaves (s : Monitored Handler) (event : ProxyEvent) (proxy : Proxy Handler) : Prop
    extends Records forward s event proxy where
  handles : s.proxy.handle forward event = some proxy
  running : proxy.registry.exited = false → proxy.Running
  free : proxy.locked = false

end Monitored

section Events

variable {forward : EventType → Handler} {s : Monitored Handler} {event : ProxyEvent}
  {proxy : Proxy Handler} {id : UInt8} {info info' : EaInfo}

/-- A record with the same sockets. -/
theorem Keeps.of_sockets (hnot : ¬ (info.Linked ∧ Due forward s id info event))
    (hinteract : info'.interactFd = info.interactFd) (hnotify : info'.notifyFd = info.notifyFd) :
    Keeps forward s event id info info' where
  unlinks hlinked hdue := absurd ⟨hlinked, hdue⟩ hnot
  stays hlinked _ := by
    unfold EaInfo.Linked
    rwa [hinteract, hnotify]
  sockets _ _ := ⟨hinteract, hnotify⟩

theorem Leaves.step_eq (halive : s.proxy.registry.exited = false)
    (hleaves : Leaves forward s event proxy) :
    s.step forward event = { proxy, age := s.ageAfter forward event } := by
  rw [Monitored.step, if_neg (by simp [halive]), hleaves.handles, Option.getD_some]

theorem Leaves.tended (halive : s.proxy.registry.exited = false)
    (hleaves : Leaves forward s event proxy) : Tended forward s event where
  returns := by rw [hleaves.handles]; rfl
  free := by
    rw [hleaves.step_eq halive]
    exact hleaves.free
  unlinked_iff id info hinfo hlinked := by
    rw [hleaves.step_eq halive]
    obtain ⟨info', hinfo', hkeeps⟩ := hleaves.keeps id info hinfo
    constructor
    · rintro ⟨later, hlater, hunlinked⟩
      by_contra hnot
      cases hinfo'.symm.trans hlater
      exact hunlinked (hkeeps.stays hlinked hnot)
    · intro hdue
      exact ⟨info', hinfo', hkeeps.unlinks hlinked hdue⟩
  others id info hinfo hnot hother := by
    rw [hleaves.step_eq halive]
    obtain ⟨info', hinfo', hkeeps⟩ := hleaves.keeps id info hinfo
    exact ⟨info', hinfo', hkeeps.sockets hnot hother⟩

theorem Leaves.stamped_step (halive : s.proxy.registry.exited = false)
    (hleaves : Leaves forward s event proxy) : Stamped (s.step forward event) := by
  rw [hleaves.step_eq halive]
  exact hleaves.stamped

/-- The event is not about the application. -/
structure Untouched (forward : EventType → Handler) (s : Monitored Handler) (event : ProxyEvent)
    (id : UInt8) (info : EaInfo) : Prop where
  notDue : ¬ (info.Linked ∧ Due forward s id info event)
  sameAge : s.ageAfter forward event id = s.age id

/-- Records that are as they were. -/
theorem Records.of_same (hsame : ∀ id, proxy.externalInfo id = s.proxy.externalInfo id)
    (hcounter : proxy.proxyCurHeartbeat = s.proxy.proxyCurHeartbeat) (hstamped : Stamped s)
    (huntouched : ∀ id info, s.proxy.externalInfo id = some info →
      Untouched forward s event id info) : Records forward s event proxy where
  keeps id info hinfo :=
    ⟨info, (hsame id).trans hinfo, .of_sockets (huntouched id info hinfo).notDue rfl rfl⟩
  stamped id info hinfo hlinked := by
    rw [hsame] at hinfo
    rw [hcounter, (huntouched id info hinfo).sameAge]
    exact hstamped id info hinfo hlinked

/-- Records of which one is another. -/
theorem Records.of_setEaInfo (hinfo : s.proxy.externalInfo id = some info)
    (hsame : ∀ id, proxy.externalInfo id = s.proxy.externalInfo id)
    (hcounter : proxy.proxyCurHeartbeat = s.proxy.proxyCurHeartbeat) (hstamped : Stamped s)
    (hkeeps : Keeps forward s event id info info')
    (hstamp : info'.Linked →
      (s.proxy.proxyCurHeartbeat - info'.heartbeatRc).toNat = s.ageAfter forward event id)
    (huntouched : ∀ other before, other ≠ id → s.proxy.externalInfo other = some before →
      Untouched forward s event other before) :
    Records forward s event (proxy.setEaInfo id info') := by
  have hself := Proxy.externalInfo_setEaInfo_self
    (Proxy.externalInfo_eq_some_iff.mp ((hsame id).trans hinfo)).1 info'
  refine ⟨fun other before hbefore => ?_, fun other after hafter hlinked => ?_⟩
  · by_cases hother : other = id
    · subst hother
      cases hinfo.symm.trans hbefore
      exact ⟨info', hself, hkeeps⟩
    · refine ⟨before, ?_, .of_sockets (huntouched other before hother hbefore).notDue rfl rfl⟩
      rw [Proxy.externalInfo_setEaInfo_of_ne hother, hsame, hbefore]
  · rw [Proxy.proxyCurHeartbeat_setEaInfo, hcounter]
    by_cases hother : other = id
    · subst hother
      cases hself.symm.trans hafter
      exact hstamp hlinked
    · rw [Proxy.externalInfo_setEaInfo_of_ne hother, hsame] at hafter
      rw [(huntouched other after hother hafter).sameAge]
      exact hstamped other after hafter hlinked

/-! ### A registration -/

/-- What a registration makes of the proxy. -/
inductive RegistrationEffect (forward : EventType → Handler) (s : Proxy Handler)
    (attempt : Attempt) : Proxy Handler → Prop
  | none (hnot : ∀ id, ¬ s.RegistersAs forward id (.register attempt)) :
      RegistrationEffect forward s attempt s
  | known (id : UInt8) (info info' : EaInfo) (hinfo : s.externalInfo id = some info)
      (hregisters : ∀ other, s.RegistersAs forward other (.register attempt) ↔ other = id)
      (hlinked : info.Linked → info'.Linked)
      (hstamp : info'.heartbeatRc = s.proxyCurHeartbeat) :
      RegistrationEffect forward s attempt (s.setEaInfo id info')
  | adds (registry : Registry Handler) (app : AppObj Handler) (info' : EaInfo)
      (hlist : registry.appList = s.registry.appList ++ [app])
      (hunknown : s.appWithId app.id = none)
      (hregisters : ∀ other, s.RegistersAs forward other (.register attempt) ↔ other = app.id)
      (hstamp : info'.Linked → info'.heartbeatRc = s.proxyCurHeartbeat) :
      RegistrationEffect forward s attempt ({ s with registry }.setEaInfo app.id info')

theorem registersAs_top {s : Proxy Handler} {attempt : Attempt}
    (htop : attempt.Presents attempt.read eaPacketTypeRegisterTop)
    (haccepts : AcceptsTop forward s attempt.read.payloadTop) (other : UInt8) :
    s.RegistersAs forward other (.register attempt) ↔ other = attempt.read.payloadTop.id := by
  have hnot : eaPacketTypeRegisterTop ≠ eaPacketTypeRegisterBot := by decide
  simp [Proxy.RegistersAs, (accepts_top_iff forward s htop).mpr haccepts, htop.2.1, hnot, eq_comm]

theorem registersAs_bot {s : Proxy Handler} {attempt : Attempt}
    (hbot : attempt.Presents attempt.read eaPacketTypeRegisterBot)
    (haccepts : AcceptsBot s attempt.read.payloadBot) (other : UInt8) :
    s.RegistersAs forward other (.register attempt) ↔ other = attempt.read.payloadBot.appId := by
  have hnot : eaPacketTypeRegisterBot ≠ eaPacketTypeRegisterTop := by decide
  simp [Proxy.RegistersAs, (accepts_bot_iff forward s hbot).mpr haccepts, hbot.2.1, hnot, eq_comm]

theorem EaInfo.linked_top (fd : ℕ) (round : UInt8) (pid : ℤ) (hlinked : info.Linked) :
    (info.top fd round pid).Linked := by
  by_cases hfd : fd = 0
  · simpa [EaInfo.Linked, EaInfo.top, hfd] using hlinked
  · simp [EaInfo.Linked, EaInfo.top, hfd]

theorem EaInfo.linked_bot (fd : ℕ) (round : UInt8) (hlinked : info.Linked) :
    (info.bot fd round).Linked := by
  by_cases hfd : fd = 0
  · simpa [EaInfo.Linked, EaInfo.bot, hfd] using hlinked
  · simp [EaInfo.Linked, EaInfo.bot, hfd]

theorem registrationEffect {s : Proxy Handler} {attempt : Attempt} (hrunning : s.Running)
    (hsound : Sound s (.register attempt)) :
    ∃ answer, handleNewClientRegistration forward s attempt = some answer ∧
      answer.proxy.Running ∧ RegistrationEffect forward s attempt answer.proxy := by
  have hmove := handleMove forward attempt hrunning
  generalize handleNewClientRegistration forward s attempt = outcome at hmove ⊢
  obtain ⟨answer, rfl, heffect⟩ : ∃ answer, outcome = some answer ∧
      RegistrationEffect forward s attempt answer.proxy := by
    cases hmove with
    | nothing ret ackRetVal hret hack htop hbot =>
        refine ⟨_, rfl, .none fun id hregisters => ?_⟩
        rcases hregisters.1 with ⟨hpresents, -⟩ | ⟨hpresents, -⟩
        · exact htop hpresents
        · exact hbot hpresents
    | top htop hmove =>
        cases hmove with
        | internal hinternal => exact absurd hinternal (hsound.1 htop)
        | known info hinfo =>
            exact ⟨_, rfl, .known _ info _ hinfo (registersAs_top htop (Or.inl ⟨info, hinfo⟩))
              (EaInfo.linked_top _ _ _) rfl⟩
        | registers registry hunknown hright hlist hexited =>
            exact ⟨_, rfl, .adds registry (attempt.read.payloadTop.appObj forward) _ hlist hunknown
              (registersAs_top htop (Or.inr hright)) fun _ => rfl⟩
        | unset hempty hright hret =>
            have hunknown : s.appWithId attempt.read.payloadTop.id = none := by
              rw [Proxy.appWithId, hempty]
              rfl
            have hlist : [attempt.read.payloadTop.appObj forward] =
                s.registry.appList ++ [attempt.read.payloadTop.appObj forward] := by
              rw [hempty]
              rfl
            exact ⟨_, rfl, .adds _ (attempt.read.payloadTop.appObj forward) _ hlist hunknown
              (registersAs_top htop (Or.inr hright))
              fun hlinked => absurd hlinked (by simp [EaInfo.Linked, EaInfo.cleared])⟩
        | refuses hnot =>
            refine ⟨_, rfl, .none fun id hregisters => hnot ?_⟩
            exact (accepts_top_iff forward s htop).mp hregisters.1
    | bot hbot hmove =>
        cases hmove with
        | internal hinternal => exact absurd hinternal (hsound.2 hbot)
        | links info hinfo hpid =>
            exact ⟨_, rfl, .known _ info _ hinfo (registersAs_bot hbot ⟨info, hinfo, hpid⟩)
              (EaInfo.linked_bot _ _) rfl⟩
        | refuses hnot =>
            refine ⟨_, rfl, .none fun id hregisters => hnot ?_⟩
            exact (accepts_bot_iff forward s hbot).mp hregisters.1
  exact ⟨answer, rfl, hmove.running hrunning, heffect⟩

theorem ageAfter_heard (hheard : s.proxy.RegistersAs forward id event ∨ Proxy.Reports id event) :
    s.ageAfter forward event id = 0 :=
  if_pos hheard

theorem ageAfter_register {attempt : Attempt}
    (hnot : ¬ s.proxy.RegistersAs forward id (.register attempt)) :
    s.ageAfter forward (.register attempt) id = s.age id :=
  if_neg (not_or.mpr ⟨hnot, not_false⟩)

theorem ageAfter_packet {round : PacketRound} (hnot : ¬ Proxy.Reports id (.packet round)) :
    s.ageAfter forward (.packet round) id = s.age id :=
  if_neg (not_or.mpr ⟨not_false, hnot⟩)

theorem ageAfter_check (close : ℕ → SyscallResult) :
    s.ageAfter forward (.check close) id = s.age id + 1 :=
  if_neg (not_or.mpr ⟨not_false, not_false⟩)

theorem toNat_sub_self {mark counter : UInt8} (hmark : mark = counter) :
    (counter - mark).toNat = 0 := by
  rw [hmark, UInt8.sub_self]
  rfl

theorem RegistrationEffect.records {attempt : Attempt} (hstamped : Stamped s)
    (heffect : RegistrationEffect forward s.proxy attempt proxy) :
    Records forward s (.register attempt) proxy := by
  cases heffect with
  | none hnot =>
      exact .of_same (fun _ => rfl) rfl hstamped fun id info _ =>
        ⟨fun h => h.2, ageAfter_register (hnot id)⟩
  | known id info info' hinfo hregisters hlinked hstamp =>
      refine .of_setEaInfo hinfo (fun _ => rfl) rfl hstamped ?_ (fun _ => ?_) ?_
      · refine ⟨fun _ hdue => hdue.elim, fun h _ => hlinked h, fun _ hnot => ?_⟩
        exact absurd ((hregisters id).mpr rfl) hnot
      · rw [ageAfter_heard (Or.inl ((hregisters id).mpr rfl))]
        exact toNat_sub_self hstamp
      · exact fun other _ hother _ =>
          ⟨fun h => h.2, ageAfter_register fun h => hother ((hregisters other).mp h)⟩
  | adds registry app info' hlist hunknown hregisters hstamp =>
      have hself (after : EaInfo)
          (hafter : ({ s.proxy with registry }.setEaInfo app.id info').externalInfo app.id =
            some after) : after = info' := by
        have hinfo := (Proxy.externalInfo_eq_some_iff.mp hafter).2
        rw [Proxy.eaInfo_setEaInfo_self] at hinfo
        exact (Option.some.inj hinfo).symm
      refine ⟨fun other before hbefore => ?_, fun other after hafter hafterLinked => ?_⟩
      · have hother : other ≠ app.id := by
          rintro rfl
          rw [Proxy.externalInfo_of_unknown hunknown] at hbefore
          cases hbefore
        refine ⟨before, ?_, .of_sockets (fun h => h.2) rfl rfl⟩
        rw [Proxy.externalInfo_setEaInfo_of_ne hother, Proxy.externalInfo_append hlist hother,
          hbefore]
      · by_cases hother : other = app.id
        · subst hother
          cases hself after hafter
          rw [ageAfter_heard (Or.inl ((hregisters _).mpr rfl))]
          exact toNat_sub_self (hstamp hafterLinked)
        · rw [Proxy.externalInfo_setEaInfo_of_ne hother,
            Proxy.externalInfo_append hlist hother] at hafter
          rw [ageAfter_register fun h => hother ((hregisters other).mp h)]
          exact hstamped other after hafter hafterLinked

theorem leaves_register {attempt : Attempt} (hrunning : s.proxy.Running) (hstamped : Stamped s)
    (hsound : Sound s.proxy (.register attempt)) :
    ∃ proxy, Leaves forward s (.register attempt) proxy := by
  obtain ⟨answer, hanswer, hafter, heffect⟩ := registrationEffect hrunning hsound
  refine ⟨answer.proxy, heffect.records hstamped, ?_, fun _ => hafter, hafter.free⟩
  rw [Proxy.handle, hanswer, Option.map_some]

/-! ### A round of the timer -/

/-- A distance within the threshold grows by one. -/
theorem toNat_sub_succ {counter mark : UInt8}
    (hle : ¬ counter - mark > heartbeatMonitorAllowedThershhold) :
    (counter + 1 - mark).toNat = (counter - mark).toNat + 1 := by
  have hsmall : (counter - mark).toNat ≤ 3 := UInt8.le_iff_toNat_le.mp (UInt8.not_lt.mp hle)
  have hmark := mark.toNat_lt
  rw [UInt8.toNat_sub] at hsmall ⊢
  rw [UInt8.toNat_sub, UInt8.toNat_add, UInt8.toNat_one]
  omega

theorem leaves_check {close : ℕ → SyscallResult} (hrunning : s.proxy.Running)
    (hstamped : Stamped s) (hsound : Sound s.proxy (.check close)) :
    ∃ proxy, Leaves forward s (.check close) proxy := by
  obtain ⟨eaInfo, hcheck, hinfos⟩ :=
    Proxy.checkAllExternalAppHeartbeats_spec close hrunning.free hsound
  have hhandles : s.proxy.handle forward (.check close) = some
      { s.proxy with eaInfo, proxyCurHeartbeat := s.proxy.proxyCurHeartbeat + 1 } := by
    rw [Proxy.handle, hcheck, Option.map_some]
  -- the distance of an application with a socket says whether it is due
  have hdue (id : UInt8) (info : EaInfo) (hinfo : s.proxy.externalInfo id = some info)
      (hlinked : info.Linked) : Due forward s id info (.check close) ↔
        s.proxy.proxyCurHeartbeat - info.heartbeatRc > heartbeatMonitorAllowedThershhold := by
    rw [Due, ← hstamped id info hinfo hlinked, gt_iff_lt, UInt8.lt_iff_toNat_lt]
  refine ⟨_, ⟨fun id info hinfo => ?_, fun id info' hinfo' hlinked => ?_⟩, hhandles,
    fun _ => ⟨hrunning.compatible, hrunning.alive, hrunning.free⟩, hrunning.free⟩
  · refine ⟨info.checked s.proxy.proxyCurHeartbeat, by rw [hinfos, hinfo, Option.map_some], ?_⟩
    by_cases hcloses : info.Linked ∧
        s.proxy.proxyCurHeartbeat - info.heartbeatRc > heartbeatMonitorAllowedThershhold
    · have hnow := (hdue id info hinfo hcloses.1).mpr hcloses.2
      rw [EaInfo.checked, if_pos hcloses]
      exact ⟨fun _ _ => info.not_linked_unlinked, fun _ hnot => absurd hnow hnot,
        fun hnot _ => absurd ⟨hcloses.1, hnow⟩ hnot⟩
    · rw [EaInfo.checked, if_neg hcloses]
      exact .of_sockets (fun h => hcloses ⟨h.1, (hdue id info hinfo h.1).mp h.2⟩) rfl rfl
  · rw [hinfos] at hinfo'
    obtain ⟨info, hinfo, rfl⟩ := Option.map_eq_some_iff.mp hinfo'
    by_cases hcloses : info.Linked ∧
        s.proxy.proxyCurHeartbeat - info.heartbeatRc > heartbeatMonitorAllowedThershhold
    · rw [EaInfo.checked, if_pos hcloses] at hlinked
      exact absurd hlinked info.not_linked_unlinked
    · rw [EaInfo.checked, if_neg hcloses] at hlinked ⊢
      rw [ageAfter_check, ← hstamped id info hinfo hlinked]
      exact toNat_sub_succ fun hlate => hcloses ⟨hlinked, hlate⟩

/-! ### A packet -/

theorem toNat_ofNat_eq {appId : ℕ} (hsmall : appId < 256) : (UInt8.ofNat appId).toNat = appId := by
  rw [UInt8.toNat_ofNat']
  omega

theorem linked_of_uses {fd : ℕ} (hfd : fd ≠ 0) (huses : info.Uses fd) : info.Linked := by
  rcases huses with rfl | rfl
  · exact Or.inr hfd
  · exact Or.inl hfd

section Packet

variable {round : PacketRound} {handling : Handling Handler}

theorem reports_iff : Proxy.Reports id (.packet round) ↔
    Proxy.ReportReceived round ∧ round.read.appId = id.toNat := by
  unfold Proxy.Reports Proxy.ReportReceived
  exact and_assoc.symm

/-- A heartbeat is that of the application whose mark is set. -/
theorem eq_of_reports (hreports : Proxy.Reports id (.packet round)) :
    id = UInt8.ofNat round.read.appId := by
  rw [(reports_iff.mp hreports).2, UInt8.ofNat_toNat]

theorem apiWrapper_calls {s : Proxy Handler} {apiId : ℕ}
    (hhandling : s.apiWrapper forward round apiId = some handling) :
    handling.calls ⊆ (callAll round.result 0 (apiWrapperCalls apiId)).2 := by
  unfold Proxy.apiWrapper at hhandling
  by_cases hinsert : apiId = 3
  · subst hinsert
    change _ ⊆ (callAll round.result 0 [.recv, .send]).2
    rw [if_pos rfl] at hhandling
    by_cases hok : SocketCall.recv.code (round.result 0) = ealErrOk
    · rw [callAll_cons_ok hok] at hhandling ⊢
      dsimp only at hhandling
      split_ifs at hhandling with hfailed hexited
      · cases hhandling
        simp [callAll]
      · cases hhandling
        simp [callAll]
      · cases hhandling
        exact List.Subset.refl _
    · rw [callAll_cons_failed hok] at hhandling ⊢
      dsimp only at hhandling
      rw [if_pos hok] at hhandling
      cases hhandling
      exact List.Subset.refl _
  · rw [if_neg hinsert] at hhandling
    dsimp only at hhandling
    split_ifs at hhandling
    · cases hhandling
      exact List.Subset.refl _
    · cases hhandling
      exact List.Subset.refl _
    · unfold Proxy.withAppList at hhandling
      split_ifs at hhandling
      cases hhandling
      exact List.Subset.refl _
    · cases hhandling
      exact List.Subset.refl _

theorem innerHandleHeartbeatFromApp_calls {s : Proxy Handler} {header : PacketHeader}
    (hhandling : s.innerHandleHeartbeatFromApp header = some handling) : handling.calls = [] := by
  obtain ⟨updated, -, hupdated⟩ := Option.bind_eq_some_iff.mp hhandling
  cases hupdated
  rfl

/-- The handler makes no other calls than those that the packet calls for. -/
theorem handlePacket_calls {s : Proxy Handler}
    (hhandling : s.handlePacket forward round = some handling) :
    handling.calls ⊆ round.calls := by
  unfold Proxy.handlePacket at hhandling
  unfold PacketRound.calls
  dsimp only at hhandling
  by_cases hheader : eapRecvPacketFromUnixSk round.headerResult ≠ ealErrOk
  · rw [if_pos hheader] at hhandling
    cases hhandling
    exact List.cons_subset_cons _ (List.nil_subset _)
  rw [if_neg hheader] at hhandling ⊢
  by_cases hreport : round.read.packetType = eaPacketTypeReport
  · rw [if_neg fun h => h.2 hreport, if_pos hreport] at hhandling
    obtain ⟨inner, hinner, rfl⟩ := Option.map_eq_some_iff.mp hhandling
    rw [innerHandleHeartbeatFromApp_calls hinner]
    exact List.cons_subset_cons _ (List.nil_subset _)
  rw [if_neg hreport]
  by_cases hreq : round.read.packetType = eaPacketTypeReq
  · rw [if_neg fun h => h.1 hreq, if_neg hreport] at hhandling
    rw [if_neg (not_not.mpr hreq)]
    obtain ⟨inner, hinner, rfl⟩ := Option.map_eq_some_iff.mp hhandling
    refine List.cons_subset_cons _ ?_
    unfold Proxy.innerHandleRequestByApiId at hinner
    split_ifs at hinner with hfd hapi
    · cases hinner
      exact List.nil_subset _
    · cases hinner
      exact List.nil_subset _
    · rw [if_neg (not_or.mpr ⟨hfd, hapi⟩)]
      exact apiWrapper_calls hinner
  · rw [if_pos ⟨hreq, hreport⟩] at hhandling
    rw [if_pos hreq]
    cases hhandling
    exact List.Subset.refl _

theorem handleRegisteredClientPacket_calls {s : Proxy Handler}
    (hhandling : s.handleRegisteredClientPacket forward round = some handling) :
    handling.calls ⊆ round.calls := by
  obtain ⟨before, hpacket, hafter⟩ := Option.bind_eq_some_iff.mp hhandling
  have hcalls := handlePacket_calls hpacket
  split_ifs at hafter with hdisconnect
  · obtain ⟨found, -, hfound⟩ := Option.bind_eq_some_iff.mp hafter
    cases found with
    | none =>
        cases hfound
        exact hcalls
    | some app =>
        obtain ⟨info, -, hinfo⟩ := Option.bind_eq_some_iff.mp hfound
        obtain ⟨s', -, hlast⟩ := Option.bind_eq_some_iff.mp hinfo
        cases hlast
        exact hcalls
  · cases hafter
    exact hcalls

theorem findsPeerClosed_of_endsStream
    (hhandling : s.proxy.handleRegisteredClientPacket forward round = some handling)
    (hends : EndsStream handling.calls) : s.proxy.FindsPeerClosed forward round := by
  obtain ⟨result, hmem, hret⟩ := hends
  exact ⟨handling, hhandling, _, hmem, hret⟩

theorem Proxy.FindsPeerClosed.meets {s : Proxy Handler}
    (hfinds : s.FindsPeerClosed forward round) : round.MeetsClosedPeer := by
  obtain ⟨handling, hhandling, call, hmem, hclosed⟩ := hfinds
  exact ⟨call, handleRegisteredClientPacket_calls hhandling hmem, hclosed⟩

/-- For an application, it is a `recv` that finds its peer closed. -/
theorem endsStream_of_due (hsound : SoundPacket s.proxy round)
    (hhandling : s.proxy.handleRegisteredClientPacket forward round = some handling)
    (hinfo : s.proxy.externalInfo id = some info)
    (hdue : Due forward s id info (.packet round)) : EndsStream handling.calls := by
  obtain ⟨-, huses, found, hfound, ⟨call, result⟩, hmem, hclosed⟩ := hdue
  cases hhandling.symm.trans hfound
  cases call with
  | recv => exact ⟨result, hmem, hclosed⟩
  | send =>
      have hcalled := handleRegisteredClientPacket_calls hhandling hmem
      exact absurd huses (hsound.sends result hcalled hclosed id info hinfo)

theorem Proxy.Running.registry {s : Proxy Handler} (hrunning : s.Running)
    {registry : Registry Handler} (hlist : registry.appList = s.registry.appList)
    (halive : registry.exited = false) : { s with registry }.Running :=
  ⟨by rw [hlist]; exact hrunning.compatible, halive, hrunning.free⟩

theorem Proxy.RoundMove.records (hstamped : Stamped s) (hsound : SoundPacket s.proxy round)
    (hhandling : s.proxy.handleRegisteredClientPacket forward round = some handling)
    (hmove : Proxy.RoundMove s.proxy round handling) :
    Records forward s (.packet round) handling.proxy := by
  have hdue (id : UInt8) (info : EaInfo) (hinfo : s.proxy.externalInfo id = some info)
      (hnow : Due forward s id info (.packet round)) : EndsStream handling.calls :=
    endsStream_of_due hsound hhandling hinfo hnow
  -- an event that is not the heartbeat of an application leaves its age
  have hunreported (hreport : ¬ Proxy.ReportReceived round) (id : UInt8) :
      s.ageAfter forward (.packet round) id = s.age id :=
    ageAfter_packet fun h => hreport (reports_iff.mp h).1
  cases hmove with
  | quiet ret calls registry hlist hnot hreport =>
      exact .of_same (Proxy.externalInfo_registry hlist) rfl hstamped fun id info hinfo =>
        ⟨fun h => hnot (hdue id info hinfo h.2), hunreported hreport id⟩
  | unknown calls registry hlist hends hreport hnone =>
      exact .of_same (Proxy.externalInfo_registry hlist) rfl hstamped fun id info hinfo =>
        ⟨fun h => hnone id info hinfo h.2.2.1, hunreported hreport id⟩
  | unheard calls hnot hreport hnone =>
      refine .of_same (fun _ => rfl) rfl hstamped fun id info hinfo => ?_
      refine ⟨fun h => hnot (hdue id info hinfo h.2), ageAfter_packet fun h => ?_⟩
      rw [← eq_of_reports h, hinfo] at hnone
      cases hnone
  | heartbeat info calls hnot hreport hinfo =>
      refine .of_setEaInfo hinfo (fun _ => rfl) rfl hstamped ?_ (fun hlinked => ?_) ?_
      · exact .of_sockets (fun h => hnot (hdue _ info hinfo h.2)) rfl rfl
      · have hsmall := hsound.report hreport.1 hreport.2 info hinfo hlinked
        rw [ageAfter_heard (Or.inr (reports_iff.mpr ⟨hreport, (toNat_ofNat_eq hsmall).symm⟩))]
        exact toNat_sub_self rfl
      · exact fun other before hother hbefore =>
          ⟨fun h => hnot (hdue other before hbefore h.2),
            ageAfter_packet fun h => hother (eq_of_reports h)⟩
  | unlinks calls registry hlist hends hreport id info hinfo huses =>
      have hclosed := findsPeerClosed_of_endsStream hhandling hends
      have hfd := hsound.fd hclosed.meets
      have hnow : Due forward s id info (.packet round) := ⟨hfd, huses, hclosed⟩
      refine .of_setEaInfo hinfo (Proxy.externalInfo_registry hlist) rfl hstamped ?_
        (fun hlinked => absurd hlinked info.not_linked_unlinked) ?_
      · exact ⟨fun _ _ => info.not_linked_unlinked, fun _ hnot => absurd hnow hnot,
          fun hnot _ => absurd ⟨linked_of_uses hfd huses, hnow⟩ hnot⟩
      · refine fun other before hother hbefore => ⟨fun h => hother ?_, hunreported hreport other⟩
        exact hsound.alone hclosed.meets other before id info hbefore h.2.2.1 hinfo huses

theorem leaves_packet (hrunning : s.proxy.Running) (hstamped : Stamped s)
    (hsound : Sound s.proxy (.packet round)) :
    ∃ proxy, Leaves forward s (.packet round) proxy := by
  obtain ⟨handling, hhandling, hmove⟩ := Proxy.roundMove forward round hrunning.free
  refine ⟨handling.proxy, hmove.records hstamped hsound hhandling, ?_, ?_, ?_⟩
  · rw [Proxy.handle, hhandling, Option.map_some]
  · cases hmove with
    | quiet ret calls registry hlist hnot hreport => exact hrunning.registry hlist
    | heartbeat info calls hnot hreport hinfo => exact fun _ => hrunning.setEaInfo _ _
    | unheard calls hnot hreport hnone => exact fun _ => hrunning
    | unknown calls registry hlist hends hreport hnone => exact hrunning.registry hlist
    | unlinks calls registry hlist hends hreport id info hinfo huses =>
        exact fun halive => (hrunning.registry hlist halive).setEaInfo _ _
  · cases hmove <;> exact hrunning.free

end Packet

/-! ## Sequences of events -/

theorem exists_leaves (hrunning : s.proxy.Running) (hstamped : Stamped s)
    (hsound : Sound s.proxy event) : ∃ proxy, Leaves forward s event proxy := by
  cases event with
  | register attempt => exact leaves_register hrunning hstamped hsound
  | packet round => exact leaves_packet hrunning hstamped hsound
  | check close => exact leaves_check hrunning hstamped hsound

/-- While the process runs, the proxy is in order and the marks tell the time. -/
def InOrder (s : Monitored Handler) : Prop :=
  s.proxy.registry.exited = false → s.proxy.Running ∧ Stamped s

theorem InOrder.step (horder : InOrder s) (hsound : Sound s.proxy event) :
    InOrder (s.step forward event) := by
  intro halive
  cases hexited : s.proxy.registry.exited with
  | true =>
      rw [Monitored.step, if_pos hexited, hexited] at halive
      cases halive
  | false =>
      obtain ⟨hrunning, hstamped⟩ := horder hexited
      obtain ⟨proxy, hleaves⟩ := exists_leaves hrunning hstamped hsound
      refine ⟨?_, hleaves.stamped_step hexited⟩
      rw [hleaves.step_eq hexited] at halive ⊢
      exact hleaves.running halive

end Events

/-- In a sequence of events that meets none of the defects, from any list of applications
on, every handler gives the mutex back, and takes the sockets of the applications that are
due and of no others. -/
theorem tended_run (forward : EventType → Handler) {start : Monitored Handler}
    (hstart : start.proxy.Running) (hstamped : Stamped start) (events : List ProxyEvent)
    (hsound : Guarded (Monitored.step forward) (fun s event => Sound s.proxy event) start
      events) :
    ∀ first last, first ++ [last] <+: events →
      (run (Monitored.step forward) start first).proxy.registry.exited = false →
        Tended forward (run (Monitored.step forward) start first) last := by
  intro first last hfirst halive
  have hbefore := hsound.of_prefix ((List.prefix_append first [last]).trans hfirst)
  have horder : InOrder (run (Monitored.step forward) start first) :=
    hbefore.invariant InOrder (fun _ => ⟨hstart, hstamped⟩)
      fun s event hs hevent => hs.step hevent
  obtain ⟨hrunning, hstamps⟩ := horder halive
  have hnow := (guarded_iff_steps events).mp hsound first last hfirst
  obtain ⟨proxy, hleaves⟩ := exists_leaves hrunning hstamps hnow
  exact hleaves.tended halive

/-- An application with two sockets that has not been heard of for three rounds, over which
the counter came round, beside an internal one. -/
def linkedProxy : Proxy Unit where
  registry :=
    { Registry.initial with
      appList := [internalApp, firstConnection.read.payloadTop.appObj fun _ => ()]
      appNum := 2 }
  eaInfo := Function.update (fun _ => none) 20 (some ⟨100, 8, 7, 254⟩)
  proxyCurHeartbeat := 1
  locked := false

theorem running_linkedProxy : linkedProxy.Running where
  compatible := by
    refine List.pairwise_pair.mpr ⟨?_, ?_⟩
    · decide
    · decide
  alive := rfl
  free := rfl

theorem stamped_linkedProxy : Stamped ⟨linkedProxy, fun _ => 3⟩ := by
  intro id info hinfo _
  have hrecord : Function.update (fun _ => none) 20 (some ⟨100, 8, 7, 254⟩) id = some info :=
    (Proxy.externalInfo_eq_some_iff.mp hinfo).2
  by_cases hid : id = 20
  · rw [hid, Function.update_self] at hrecord
    cases hrecord
    rfl
  · rw [Function.update_of_ne hid] at hrecord
    cases hrecord

/-- Two rounds, in the second of which the sockets are closed. -/
theorem tended_run_two :
    Tended (fun _ => ())
      (run (Monitored.step fun _ => ()) ⟨linkedProxy, fun _ => 3⟩ [.check fun _ => ⟨0, 0⟩])
      (.check fun _ => ⟨0, 0⟩) :=
  tended_run (fun _ => ()) running_linkedProxy stamped_linkedProxy
    [.check fun _ => ⟨0, 0⟩, .check fun _ => ⟨0, 0⟩]
    ⟨List.cons_ne_nil _ _, List.cons_ne_nil _ _, trivial⟩ [.check fun _ => ⟨0, 0⟩]
    (.check fun _ => ⟨0, 0⟩) List.prefix_rfl rfl

/-- A proxy without any application. -/
def emptyProxy : Proxy Unit where
  registry := Registry.initial
  eaInfo := fun _ => none
  proxyCurHeartbeat := 0
  locked := false

/-- The first round without any application keeps the mutex, and the second one waits for
it. -/
theorem empty_round_keeps_mutex :
    let s : Monitored Unit := ⟨emptyProxy, fun _ => 0⟩
    let check : ProxyEvent := .check fun _ => ⟨0, 0⟩
    (s.step (fun _ => ()) check).proxy.locked = true ∧
      (s.step (fun _ => ()) check).proxy.handle (fun _ => ()) check = none ∧
      ¬ Tended (fun _ => ()) s check := by
  refine ⟨rfl, rfl, fun htended => ?_⟩
  cases htended.free

end AdaptiveSignal.ExternalApps
