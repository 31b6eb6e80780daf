import AdaptiveSignal.Serial.Receive
import AdaptiveSignal.Signal.InterpretedInfo

/-! # What a frame leaves for the next one

The packet of the receive thread is never cleared, so that a frame is dispatched
over the INFO bytes of the frames before it. Two histories that agree on the
signal status can disagree on these bytes: a refused frame leaves any it likes.
A frame decides its own outcome when it has all bytes that are interpreted.
-/

namespace AdaptiveSignal.Serial

open Foundation Signal

/-- The packets handed to the handlers. -/
def dispatched (events : List SerialEvent) : List TrafficSignalPacket :=
  events.filterMap fun
    | .dispatch packet => some packet
    | _ => none

@[simp] theorem dispatched_append (events events' : List SerialEvent) :
    dispatched (events ++ events') = dispatched events ++ dispatched events' :=
  List.filterMap_append

@[simp] theorem dispatched_store (positions : List ℕ) :
    dispatched (positions.map .store) = [] := by
  simp [dispatched, List.filterMap_map]

@[simp] theorem dispatched_sum (positions : List ℕ) : dispatched (positions.map .sum) = [] := by
  simp [dispatched, List.filterMap_map]

/-! ## Accepted and refused frames -/

section Packets

variable {p : SerialPacket} {f : Frame}

/-- With its checksum the frame is dispatched over the INFO bytes of the packet. -/
theorem run_recvInfo_intact (hstart : p.dle1 = dleVal) (htype : p.type = stxVal)
    (hkind : f.kind = .info) (hintact : f.Intact) :
    ∃ events p', dispatched events = [.over f.info p.info] ∧ ∀ rest,
      (recvInfo p).run (f.seq :: f.addr0 :: f.addr1 :: f.len0 :: f.len1 ::
          (f.info ++ dleVal :: etxVal :: f.cks :: rest)) = (events, some (p', rest)) := by
  obtain ⟨full, hfull⟩ : ∃ q, q = { f.receivedInto p with
      dle2 := dleVal, etx := etxVal, cks := f.cks } := ⟨_, rfl⟩
  have hholds : Holds full f := by
    rw [hfull]
    exact holds_received hstart (by rw [htype, hkind]; rfl) (by rw [hkind]; rfl)
  have hcks : full.errorCks f.info.length = false := by
    rw [← Bool.not_eq_true, hholds.errorCks]
    exact not_not_intro hintact
  have hinfo : (⟨full.info⟩ : TrafficSignalPacket) = .over f.info p.info := by
    rw [hfull]
    rfl
  obtain ⟨answer, hanswer⟩ : ∃ events, events = [SerialEvent.accept (full.contents f.info.length),
    .write full.sendAck, .dispatch (.over f.info p.info)] := ⟨_, rfl⟩
  refine ⟨[.header (wordOf f.len0 f.len1)] ++ ((List.range' 0 f.info.length).map .store ++
    ((List.range f.info.length).map .sum ++ answer)), full.acknowledged, ?_, fun rest => ?_⟩
  · rw [dispatched_append, dispatched_append, dispatched_append, dispatched_store,
      dispatched_sum, hanswer]
    rfl
  have hfinish : (finishInfo f.info.length (f.receivedInto p)).run
      (dleVal :: etxVal :: f.cks :: rest) =
        ((List.range f.info.length).map .sum ++ answer, some (full.acknowledged, rest)) := by
    unfold finishInfo
    rw [Reader.run_bind_some _ (run_readTrailer _ _ dleVal etxVal), List.nil_append, if_neg]
    · rw [Reader.run_bind_some _ (run_readCks _ _ f.cks), List.nil_append, ← hfull, answerInfo,
        Reader.run_say_bind, hcks, if_neg Bool.false_ne_true, hanswer, ← hinfo]
      rfl
    · simp [SerialPacket.errorLength]
  rw [run_recvInfo_start hkind, hfinish]

/-- A frame without its trailer is stored, however long it is, and refused. -/
theorem run_recvInfo_stored {len0 len1 : UInt8} {info : List UInt8}
    (hlength : (wordOf len0 len1 - 10).toNat = info.length) :
    ∃ events p', dispatched events = [] ∧ p'.dle1 = p.dle1 ∧
      p'.info = Function.update (p.storeInfo 0 info).info 0 errLength ∧ ∀ rest,
        (recvInfo p).run (0 :: 0 :: 0 :: len0 :: len1 :: (info ++ 0 :: 0 :: rest)) =
          (events, some (p', rest)) := by
  obtain ⟨headed, hheaded⟩ : ∃ q, q = { p.clean with
      seq := 0, addr0 := 0, addr1 := 0, len0 := len0, len1 := len1 } := ⟨_, rfl⟩
  obtain ⟨full, hfull⟩ : ∃ q, q = { headed.storeInfo 0 info with dle2 := 0, etx := 0 } := ⟨_, rfl⟩
  have hfinish : ∀ rest, (finishInfo info.length (headed.storeInfo 0 info)).run (0 :: 0 :: rest) =
      ([.refuse .info, .write (full.sendNak errLength)], some (full.refused errLength, rest)) := by
    intro rest
    unfold finishInfo
    rw [Reader.run_bind_some _ (run_readTrailer _ _ 0 0), List.nil_append, ← hfull, if_pos]
    · rfl
    · rw [hfull]
      rfl
  refine ⟨[.header (wordOf len0 len1)] ++ ((List.range' 0 info.length).map .store ++
    [.refuse .info, .write (full.sendNak errLength)]), full.refused errLength, ?_, ?_, ?_,
    fun rest => ?_⟩
  · rw [dispatched_append, dispatched_append, dispatched_store]
    rfl
  · rw [hfull, hheaded]
    rfl
  · rw [hfull, hheaded]
    rfl
  · have hpacketLen : headed.packetLen = wordOf len0 len1 := by
      rw [hheaded]
      rfl
    unfold recvInfo
    rw [Reader.run_bind_some _ (run_readHeader p _ _ _ _ _ _), List.nil_append,
      Reader.run_say_bind, ← hheaded, hpacketLen, hlength,
      Reader.run_bind_some _ (run_readInfo _ _ (Nat.zero_add _) (Nat.le_refl _)), hfinish rest]

/-- The INFO byte of a NAK is stored before its checksum is looked at. -/
theorem run_recvNak_stored (byte : UInt8) :
    ∃ events p', dispatched events = [] ∧ p'.dle1 = p.dle1 ∧
      p'.info = Function.update p.info 0 byte ∧ ∀ rest,
        (recvNak p).run (0 :: 0 :: 0 :: 0 :: 0 :: byte :: 0 :: rest) =
          (events, some (p', rest)) := by
  obtain ⟨full, hfull⟩ : ∃ q, q = { { p.clean with
      seq := 0, addr0 := 0, addr1 := 0, len0 := 0, len1 := 0 }.storeInfo 0 [byte] with
        cks := 0 } := ⟨_, rfl⟩
  refine ⟨(List.range nakInfoLen).map .sum ++
    [if full.errorCks nakInfoLen then .refuse .nak else .accept (full.contents nakInfoLen)], full,
    ?_, ?_, ?_, fun rest => ?_⟩
  · rw [dispatched_append, dispatched_sum]
    split_ifs <;> rfl
  · rw [hfull]
    rfl
  · rw [hfull]
    funext i
    cases i with
    | zero => rfl
    | succ i => simp [SerialPacket.storeInfo, SerialPacket.clean]
  · have hsplit : byte :: 0 :: rest = [byte] ++ 0 :: rest := rfl
    unfold recvNak
    rw [Reader.run_bind_some _ (run_readHeader p _ _ _ _ _ _), List.nil_append, hsplit,
      Reader.run_receive_bind _ _ [byte] List.length_singleton,
      Reader.run_bind_some _ (run_readCks _ _ 0), List.nil_append, ← hfull, answerNak,
      Reader.run_say_bind, Reader.run_say_bind,
      Reader.run_pure, List.append_nil]

end Packets

section Absorbs

variable {r : Receiver}

theorem absorbs_intact (hidle : r.Idle) {f : Frame} (hkind : f.kind = .info)
    (hintact : f.Intact) :
    ∃ events r', dispatched events = [.over f.info r.packet.info] ∧
      rxHandler.Absorbs r f.bytes events r' := by
  obtain ⟨events, p', hdispatched, hrun⟩ :=
    run_recvInfo_intact (p := r.packet.typed stxVal) hidle.start rfl hkind hintact
  refine ⟨events, ⟨false, p'⟩, hdispatched, absorbs_of_type hidle f fun rest => ?_⟩
  rw [hkind]
  exact run_rxBody_info rfl (hrun rest)

theorem absorbs_stored (hidle : r.Idle) {len0 len1 : UInt8} {info : List UInt8}
    (hlength : (wordOf len0 len1 - 10).toNat = info.length) :
    ∃ events r', dispatched events = [] ∧ r'.Idle ∧
      r'.packet.info = Function.update (r.packet.storeInfo 0 info).info 0 errLength ∧
      rxHandler.Absorbs r
        ([dleVal] ++ (stxVal :: 0 :: 0 :: 0 :: len0 :: len1 :: (info ++ [0, 0]))) events r' := by
  obtain ⟨events, p', hdispatched, hstart, hinfo, hrun⟩ :=
    run_recvInfo_stored (p := r.packet.typed stxVal) hlength
  refine ⟨events, ⟨false, p'⟩, hdispatched, ⟨rfl, hstart.trans hidle.start⟩, hinfo,
    (absorbs_escape hidle.escape).append (Server.absorbs_of_run fun rest => ?_)⟩
  have hbody := run_rxBody_info (r := { r with escapeFlag := true }) rfl (hrun rest)
  rw [← hbody]
  simp [rxHandler]

theorem absorbs_nak (hidle : r.Idle) (byte : UInt8) :
    ∃ events r', dispatched events = [] ∧ r'.Idle ∧
      r'.packet.info = Function.update r.packet.info 0 byte ∧
      rxHandler.Absorbs r ([dleVal] ++ [nakVal, 0, 0, 0, 0, 0, byte, 0]) events r' := by
  obtain ⟨events, p', hdispatched, hstart, hinfo, hrun⟩ :=
    run_recvNak_stored (p := r.packet.typed nakVal) byte
  exact ⟨events, ⟨false, p'⟩, hdispatched, ⟨rfl, hstart.trans hidle.start⟩, hinfo,
    (absorbs_escape hidle.escape).append (Server.absorbs_of_run fun rest =>
      run_rxBody_nak (r := { r with escapeFlag := true }) rfl (hrun rest))⟩

/-- Frames that are not accepted leave any bytes up to what a handler can interpret. -/
theorem absorbs_filled (hidle : r.Idle) (memory : ℕ → UInt8) :
    ∃ bytes events r', dispatched events = [] ∧ r'.Idle ∧
      (∀ i < maxInterpretedLen, r'.packet.info i = memory i) ∧
      rxHandler.Absorbs r bytes events r' := by
  obtain ⟨info, hinfo⟩ : ∃ info, info = (List.range (wordOf 0xFF 0xFF - 10).toNat).map memory :=
    ⟨_, rfl⟩
  have hlength : (wordOf 0xFF 0xFF - 10).toNat = info.length := by
    rw [hinfo, List.length_map, List.length_range]
  obtain ⟨events, r₁, hnone, hidle₁, hstored, habsorbs⟩ := absorbs_stored hidle hlength
  -- the refusal has written over the first byte
  obtain ⟨events', r₂, hnone', hidle₂, hfirst, habsorbs'⟩ := absorbs_nak hidle₁ (memory 0)
  refine ⟨_, _, r₂, by rw [dispatched_append, hnone, hnone']; rfl, hidle₂, fun i hi => ?_,
    habsorbs.append habsorbs'⟩
  rw [hfirst, hstored]
  rcases Nat.eq_zero_or_pos i with rfl | hpos
  · rw [Function.update_self]
  · have hroom : maxInterpretedLen ≤ (wordOf 0xFF 0xFF - 10).toNat := by decide
    have hread : info[i]? = some (memory i) := by
      rw [hinfo, List.getElem?_map, List.getElem?_range (by omega)]
      rfl
    rw [Function.update_of_ne (by omega), Function.update_of_ne (by omega)]
    simp [SerialPacket.storeInfo, hread]

end Absorbs

/-! ## Histories -/

/-- What the signal status is assigned by: packets, each handled at some local time,
and the other threads, which set the control status. -/
inductive StatusEvent
  | handled (packet : TrafficSignalPacket) (now : LocalTime)
  | assigned (controlStatus : UInt8)

def StatusEvent.packet : StatusEvent → Option TrafficSignalPacket
  | .handled packet _ => some packet
  | .assigned _ => none

def StatusEvent.step (t : Terminal) : StatusEvent → Terminal
  | .handled packet now => t.dispatch (packet, now)
  | .assigned controlStatus =>
      { t with middleware := t.middleware.setControlStatus controlStatus }

/-- What the receive thread has taken in from its start, up to where no frame has
begun, and what the signal status has been assigned by on the way. -/
structure History where
  bytes : List UInt8
  events : List SerialEvent
  receiver : Receiver
  absorbs : rxHandler.Absorbs Receiver.initial bytes events receiver
  idle : receiver.Idle
  run : List StatusEvent
  packets : run.filterMap StatusEvent.packet = dispatched events

/-- An information frame with the right checksum. -/
structure AcceptedFrame where
  frame : Frame
  info : frame.kind = .info
  intact : frame.Intact

namespace History

variable (start : Terminal) (h : History) (f : AcceptedFrame) (now : LocalTime)

/-- The middleware at the end of the history. -/
def terminal : Terminal := h.run.foldl StatusEvent.step start

def signalStatus : TrafficSignalStatus × ControllerReport := (h.terminal start).signalStatus

/-- The handlers that the frame after the history is dispatched to, with the signal
status after each. -/
def outcomes : List (Handler × TrafficSignalStatus × ControllerReport) :=
  (dispatched (rxHandler.serve h.receiver f.frame.bytes).1).map
    fun packet => (h.terminal start).outcome packet now

/-- No frame has been received yet. -/
def empty : History where
  bytes := []
  events := []
  receiver := Receiver.initial
  absorbs := Server.absorbs_nil
  idle := Receiver.initial_idle
  run := []
  packets := rfl

/-- The frame has one outcome: that of its bytes over those that were there. -/
theorem outcomes_eq :
    h.outcomes start f now =
      [(h.terminal start).outcome (.over f.frame.info h.receiver.packet.info) now] := by
  obtain ⟨events, r', hdispatched, habsorbs⟩ := absorbs_intact h.idle f.info f.intact
  have hserve := habsorbs []
  have hrest : (rxHandler.serve r' []).1 = [] := by
    rw [Server.serve_blocked run_rxBody_nil]
  rw [List.append_nil, hrest, List.append_nil] at hserve
  rw [outcomes, hserve, hdispatched]
  rfl

/-- What decides how a strategy is mapped does not change. -/
theorem terminal_isChengLong :
    (h.terminal start).middleware.isChengLong ↔ start.middleware.isChengLong := by
  unfold terminal
  induction h.run using List.reverseRecOn with
  | nil => rfl
  | append_singleton run event ih =>
      rw [List.foldl_append]
      refine Iff.trans ?_ ih
      cases event with
      | handled packet now =>
          simp only [List.foldl, StatusEvent.step, Terminal.dispatch]
          cases packet.handler with
          | status kind => exact Middleware.dispatch_isChengLong
          | clock => rfl
          | health => rfl
      | assigned controlStatus => rfl

/-- With the same signal status a history can leave any bytes. -/
theorem exists_filled (memory : ℕ → UInt8) :
    ∃ h' : History, h'.run = h.run ∧
      ∀ i < maxInterpretedLen, h'.receiver.packet.info i = memory i := by
  obtain ⟨bytes, events, r', hnone, hidle, hfilled, habsorbs⟩ := absorbs_filled h.idle memory
  exact ⟨{
    bytes := h.bytes ++ bytes
    events := h.events ++ events
    receiver := r'
    absorbs := h.absorbs.append habsorbs
    idle := hidle
    run := h.run
    packets := by rw [dispatched_append, hnone, List.append_nil, h.packets] }, rfl, hfilled⟩

/-- The outcome over the same bytes. -/
theorem outcomes_eq_of_memory {memory : ℕ → UInt8}
    (hmemory : ∀ i < maxInterpretedLen, h.receiver.packet.info i = memory i) :
    h.outcomes start f now = [(h.terminal start).outcome (.over f.frame.info memory) now] := by
  have hsame : SameUpTo maxInterpretedLen (.over f.frame.info h.receiver.packet.info)
      (.over f.frame.info memory) := by
    intro i hi
    simp only [TrafficSignalPacket.over, hmemory i hi]
  rw [outcomes_eq, Terminal.outcome_congr rfl Iff.rfl (hsame.mono (interpretedLen_le _ _))]

/-- An accepted frame has the same outcome after any two histories with the same signal
status if and only if it has all INFO bytes that are interpreted. -/
theorem outcomes_own_iff :
    (∀ h₁ h₂ : History, h₁.signalStatus start = h.signalStatus start →
      h₂.signalStatus start = h.signalStatus start → ∀ now,
        h₁.outcomes start f now = h₂.outcomes start f now) ↔
      interpretedLen (h.signalStatus start).1 (.over f.frame.info fun _ => 0) ≤
        f.frame.info.length := by
  constructor
  · intro hown
    by_contra hshort
    obtain ⟨memory, hne⟩ := Terminal.exists_outcome_ne (h.terminal start) f.frame.info ⟨0, 0, 0⟩
      (Nat.lt_of_not_le hshort)
    obtain ⟨h₁, hrun₁, hmemory₁⟩ := h.exists_filled fun _ => 0
    obtain ⟨h₂, hrun₂, hmemory₂⟩ := h.exists_filled memory
    have hterminal₁ : h₁.terminal start = h.terminal start := by rw [terminal, hrun₁, terminal]
    have hterminal₂ : h₂.terminal start = h.terminal start := by rw [terminal, hrun₂, terminal]
    have hequal := hown h₁ h₂ (congrArg Terminal.signalStatus hterminal₁)
      (congrArg Terminal.signalStatus hterminal₂) ⟨0, 0, 0⟩
    rw [h₁.outcomes_eq_of_memory _ _ _ hmemory₁, h₂.outcomes_eq_of_memory _ _ _ hmemory₂,
      hterminal₁, hterminal₂] at hequal
    exact hne (List.singleton_injective hequal)
  · intro hlong
    -- both are the outcome over zeros after the given history
    have hzeros : ∀ (h' : History) (now : LocalTime),
        h'.signalStatus start = h.signalStatus start →
        h'.outcomes start f now =
          [(h.terminal start).outcome (.over f.frame.info fun _ => 0) now] := by
      intro h' now hstatus
      rw [outcomes_eq, ← Terminal.outcome_congr hstatus.symm
        ((h.terminal_isChengLong start).trans (h'.terminal_isChengLong start).symm)
        ((SameUpTo.over _ _).mono hlong)]
    intro h₁ h₂ hstatus₁ hstatus₂ now
    rw [hzeros h₁ now hstatus₁, hzeros h₂ now hstatus₂]

/-- A frame of one INFO byte. -/
def oneByte : AcceptedFrame where
  frame := {
    kind := .info, seq := 0, addr0 := 0xFF, addr1 := 0xFF, len0 := 0, len1 := 0x0B
    info := [0x5F], cks := 0x23, shaped := ⟨rfl, by decide⟩ }
  info := rfl
  intact := by decide

/-- The program as it starts, with an empty status. -/
def booted : Terminal where
  middleware := Middleware.boot Config.initial (TrafficSignalStatus.initial fun _ => .unset)
  report := {
    year := 0, month := 0, day := 0, week := 0, hour := 0, min := 0, sec := 0
    tcTimeOffset := 0, originalTcHealthStatus := 0 }

/-- A refused frame leaves the byte that makes one byte a report of the phase. -/
theorem one_byte_reports_phase :
    ∃ h : History,
      h.bytes = [0xAA, 0xBB, 0, 0, 0, 0, 0x0C, 0x5F, 0xCC, 0, 0] ∧
      h.signalStatus booted = empty.signalStatus booted ∧
      (empty.outcomes booted oneByte ⟨0, 0, 0⟩).map Prod.fst = [.status .other] ∧
      (h.outcomes booted oneByte ⟨0, 0, 0⟩).map Prod.fst = [.status .phaseReport] := by
  obtain ⟨events, r', hnone, hidle, hinfo, habsorbs⟩ :=
    @absorbs_stored _ Receiver.initial_idle 0 0x0C [0x5F, 0xCC] rfl
  refine ⟨⟨_, events, r', habsorbs, hidle, [], hnone.symm⟩, rfl, rfl, ?_, ?_⟩
  · rw [outcomes_eq]
    decide
  · rw [outcomes_eq, hinfo]
    simp only [List.map, Terminal.outcome]
    decide

end History

end AdaptiveSignal.Serial
