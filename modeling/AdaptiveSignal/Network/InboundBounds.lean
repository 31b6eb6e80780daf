import AdaptiveSignal.Network.PacketFormats

/-! # Handlers within their message

What a packet announces: how many bytes it needs, and what becomes of it when they
are all there. A handler stays within its message when it reads nothing behind it,
refuses a packet that needs more, and takes every field from its place otherwise.
-/

namespace AdaptiveSignal.Network

open Foundation

structure Announced (Packet : Type) where
  needs : ℕ
  outcome : Outcome Packet
  places : List Place

structure StaysWithin {Packet : Type} (msg : MsgObj) (announced : Announced Packet)
    (handled : Handled Packet) : Prop where
  within : ∀ place ∈ handled.reads, place.offset + place.width ≤ msg.msgLen
  refuses : msg.msgLen < announced.needs → ∃ err, handled.outcome = .refused err
  parses : announced.needs ≤ msg.msgLen →
    handled.outcome = announced.outcome ∧ handled.reads = announced.places

/-- A header at the start of the message, and records behind it. -/
def tableAnnounced {Header Record Packet : Type} (header : Format Header) (count : Header → ℕ)
    (record : Header → Format Record) (packet : Header → List Record → Packet) (msg : MsgObj) :
    Announced Packet :=
  let first := header.value (bytesAt msg.msg) 0
  let start i := header.width + (record first).width * i
  { needs := start (count first)
    outcome := .delivered <| packet first <|
      (List.range (count first)).map fun i => (record first).value (bytesAt msg.msg) (start i)
    places := ⟨0, msg.msgLen⟩ :: (header.places 0 ++
      (List.range (count first)).flatMap fun i => (record first).places (start i)) }

def cloudAnnounced (rsuName : List UInt8) (msg : MsgObj) : Announced C2RAppSection :=
  let commonField := commonFieldFormat.value (bytesAt msg.msg) 0
  match commonField.invalid rsuName with
  | some err =>
      { needs := c2rCommonFieldLen, outcome := .refused err
        places := ⟨0, c2rCommonFieldLen⟩ :: commonFieldFormat.places 0 }
  | none =>
      let payloadLen := commonField.packetLen - c2rCommonFieldLen
      { needs := commonField.packetLen
        outcome := .delivered ⟨commonField.serviceId, payloadLen,
          bytesAt msg.msg c2rCommonFieldLen payloadLen⟩
        places := ⟨0, c2rCommonFieldLen⟩ :: (commonFieldFormat.places 0 ++
          [⟨c2rCommonFieldLen, payloadLen⟩]) }

def pedestrianAnnounced : MsgObj → Announced PedestrianList :=
  tableAnnounced pedestrianHeaderFormat PedestrianHeader.count (fun _ => pedestrianFormat)
    fun header tab =>
      { tab, count := header.count, cameraNo := header.cameraNo, deviceNum := header.deviceNum }

def smartAVIAnnounced : MsgObj → Announced ObstacleList :=
  tableAnnounced obstacleHeaderFormat ObstacleHeader.count obstacleFormat
    fun header tab =>
      { tab, dirct := header.dirct, count := header.count, deviceNum := header.deviceNum }

/-! ## Reading formats out of a copy of the message -/

section Copies

variable {msg : MsgObj} {heap : ℕ → UInt8}

theorem bytesAt_copyOf {len offset width : ℕ} (hin : offset + width ≤ len) :
    bytesAt (MsgBuf.copyOf msg len heap).content offset width = bytesAt msg.msg offset width :=
  bytesAt_congr fun i hi => if_pos (show offset + i < len by omega)

variable {Block : Type} (format : Format Block)

/-- A block that lies in the copied bytes is the one of the message. -/
theorem Format.value_copyOf {len n : ℕ} (hlen : n + format.width ≤ len)
    (hindex : n + format.width ≤ 2 ^ 32) :
    format.value (bytesRead (MsgBuf.copyOf msg len heap).content) n =
      format.value (bytesAt msg.msg) n := by
  apply format.congr
  intro place hplace
  obtain ⟨hwidth, hin⟩ := format.inside n place hplace
  rw [bytesRead, indexAt_of_lt (by omega), bytesAt_copyOf (by omega)]

theorem Format.map_wrapped {n : ℕ} (hindex : n + format.width ≤ 2 ^ 32) :
    (format.places n).map Place.wrapped = format.places n := by
  have hsame : ∀ place ∈ format.places n, place.wrapped = id place := by
    intro place hplace
    obtain ⟨hwidth, hin⟩ := format.inside n place hplace
    rw [Place.wrapped, indexAt_of_lt (by omega)]
    rfl
  rw [List.map_congr_left hsame, List.map_id]

end Copies

/-! ## Packets with a table of records -/

section Table

variable {Header Record Packet : Type} {header : Format Header} {count : Header → ℕ}
  {record : Header → Format Record} {packet : Header → List Record → Packet}
  {readHeader : StateM MsgBuf Header} {allocated : Header → Bool}
  {readRecord : Header → StateM MsgBuf Record} {heap : ℕ → UInt8} {msg : MsgObj}

/-- What the handler does, in terms of the formats of its header and its records. -/
theorem tableRxEventHandler_eq (hheader : header.ReadBy readHeader)
    (hrecord : ∀ first, (record first).ReadBy (readRecord first)) :
    tableRxEventHandler readHeader count allocated readRecord packet heap msg =
      let bytes := bytesRead (MsgBuf.copyOf msg msg.msgLen heap).content
      let first := header.value bytes 0
      let start i := header.width + (record first).width * i
      let reads := ⟨0, msg.msgLen⟩ :: (header.places 0).map Place.wrapped
      if allocated first then
        ⟨.delivered <| packet first <|
          (List.range (count first)).map fun i => (record first).value bytes (start i),
          reads ++ (List.range (count first)).flatMap fun i =>
            ((record first).places (start i)).map Place.wrapped⟩
      else ⟨.exits, reads⟩ := by
  have hfirst := hheader (MsgBuf.copyOf msg msg.msgLen heap).content 0 [⟨0, msg.msgLen⟩]
  rw [Nat.zero_add] at hfirst
  change readHeader (MsgBuf.copyOf msg msg.msgLen heap) = _ at hfirst
  simp only [tableRxEventHandler, hfirst]
  generalize header.value (bytesRead (MsgBuf.copyOf msg msg.msgLen heap).content) 0 = first
  split
  · rw [(hrecord first (MsgBuf.copyOf msg msg.msgLen heap).content).repeated (count first)]
    rfl
  · rfl

/-- Every place that is read starts below the greatest index. -/
theorem offset_lt_of_mem_reads (hheader : header.ReadBy readHeader)
    (hrecord : ∀ first, (record first).ReadBy (readRecord first)) {place : Place}
    (hplace : place ∈
      (tableRxEventHandler readHeader count allocated readRecord packet heap msg).reads) :
    place.offset < 2 ^ 32 := by
  rw [tableRxEventHandler_eq hheader hrecord] at hplace
  dsimp only at hplace
  split at hplace
  · simp only [List.cons_append, List.mem_cons, List.mem_append, List.mem_map,
      List.mem_flatMap] at hplace
    rcases hplace with rfl | ⟨_, _, rfl⟩ | ⟨_, _, _, _, rfl⟩
    · exact Nat.two_pow_pos 32
    · exact indexAt_lt _
    · exact indexAt_lt _
  · simp only [List.mem_cons, List.mem_map] at hplace
    rcases hplace with rfl | ⟨_, _, rfl⟩
    · exact Nat.two_pow_pos 32
    · exact indexAt_lt _

/-- The whole packet lies in the message and below the greatest index. -/
theorem tableRxEventHandler_of_fits (hheader : header.ReadBy readHeader)
    (hrecord : ∀ first, (record first).ReadBy (readRecord first))
    (hallocated : ∀ first, header.width + (record first).width * count first ≤ 2 ^ 32 →
      allocated first = true)
    (hlen : (tableAnnounced header count record packet msg).needs ≤ msg.msgLen)
    (hindex : (tableAnnounced header count record packet msg).needs ≤ 2 ^ 32) :
    tableRxEventHandler readHeader count allocated readRecord packet heap msg =
      ⟨(tableAnnounced header count record packet msg).outcome,
        (tableAnnounced header count record packet msg).places⟩ := by
  rw [tableRxEventHandler_eq hheader hrecord]
  simp only [tableAnnounced] at hlen hindex ⊢
  have hvalue : header.value (bytesRead (MsgBuf.copyOf msg msg.msgLen heap).content) 0 =
      header.value (bytesAt msg.msg) 0 :=
    header.value_copyOf (by omega) (by omega)
  rw [hvalue, header.map_wrapped (by omega)]
  generalize header.value (bytesAt msg.msg) 0 = first at hlen hindex ⊢
  rw [if_pos (hallocated first hindex)]
  have hrow : ∀ i ∈ List.range (count first),
      header.width + (record first).width * i + (record first).width ≤
        header.width + (record first).width * count first := by
    intro i hi
    rw [Nat.add_assoc, ← Nat.mul_succ]
    exact Nat.add_le_add_left (Nat.mul_le_mul_left _ (List.mem_range.mp hi)) _
  have hvalues : ∀ i ∈ List.range (count first),
      (record first).value (bytesRead (MsgBuf.copyOf msg msg.msgLen heap).content)
          (header.width + (record first).width * i) =
        (record first).value (bytesAt msg.msg) (header.width + (record first).width * i) :=
    fun i hi => (record first).value_copyOf ((hrow i hi).trans hlen) ((hrow i hi).trans hindex)
  have hplaces : ∀ i ∈ List.range (count first),
      ((record first).places (header.width + (record first).width * i)).map Place.wrapped =
        (record first).places (header.width + (record first).width * i) :=
    fun i hi => (record first).map_wrapped ((hrow i hi).trans hindex)
  rw [List.map_congr_left hvalues, List.flatMap_congr hplaces]
  rfl

/-- The handler stays within its message exactly when the packet is all there and
below the greatest index. -/
theorem tableRxEventHandler_staysWithin_iff (hheader : header.ReadBy readHeader)
    (hrecord : ∀ first, (record first).ReadBy (readRecord first))
    (hallocated : ∀ first, header.width + (record first).width * count first ≤ 2 ^ 32 →
      allocated first = true)
    (hsmall : header.width ≤ 2 ^ 32)
    (hlast : ∀ first i, 2 ^ 32 < header.width + (record first).width * (i + 1) →
      ∃ place ∈ (record first).places (header.width + (record first).width * i),
        2 ^ 32 ≤ place.offset) :
    StaysWithin msg (tableAnnounced header count record packet msg)
        (tableRxEventHandler readHeader count allocated readRecord packet heap msg) ↔
      (tableAnnounced header count record packet msg).needs ≤ msg.msgLen ∧
        (tableAnnounced header count record packet msg).needs ≤ 2 ^ 32 := by
  constructor
  · intro h
    have hlen : (tableAnnounced header count record packet msg).needs ≤ msg.msgLen := by
      by_contra hlt
      obtain ⟨err, herr⟩ := h.refuses (not_le.mp hlt)
      rw [tableRxEventHandler_eq hheader hrecord] at herr
      dsimp only at herr
      split at herr <;> cases herr
    refine ⟨hlen, ?_⟩
    by_contra hlt
    have hreads := (h.parses hlen).2
    simp only [tableAnnounced, not_le] at hlt hreads
    generalize header.value (bytesAt msg.msg) 0 = first at hlt hreads
    obtain ⟨i, hi⟩ : ∃ i, count first = i + 1 :=
      Nat.exists_eq_succ_of_ne_zero fun hzero => by rw [hzero] at hlt; omega
    rw [hi] at hlt
    obtain ⟨place, hplace, hoffset⟩ := hlast first i hlt
    have hmem : place ∈
        (tableRxEventHandler readHeader count allocated readRecord packet heap msg).reads := by
      rw [hreads]
      exact List.mem_cons_of_mem _ (List.mem_append_right _
        (List.mem_flatMap.mpr ⟨i, List.mem_range.mpr (by omega), hplace⟩))
    have hlt := offset_lt_of_mem_reads hheader hrecord hmem
    omega
  · rintro ⟨hlen, hindex⟩
    rw [tableRxEventHandler_of_fits hheader hrecord hallocated hlen hindex]
    refine ⟨fun place hplace => ?_, fun hlt => absurd hlen (not_le.mpr hlt), fun _ => ⟨rfl, rfl⟩⟩
    simp only [tableAnnounced, List.mem_cons, List.mem_append, List.mem_flatMap,
      List.mem_range] at hplace hlen
    generalize header.value (bytesAt msg.msg) 0 = first at hplace hlen
    rcases hplace with rfl | hplace | ⟨i, hi, hplace⟩
    · exact (Nat.zero_add _).le
    · have hin := (header.inside 0 place hplace).2
      omega
    · have hin := ((record first).inside _ place hplace).2
      have hrow := Nat.mul_le_mul_left (record first).width (Nat.succ_le_of_lt hi)
      rw [Nat.mul_succ] at hrow
      omega

end Table

/-! ## Packets of the cloud -/

section Cloud

variable (rsuName : List UInt8) (heap : ℕ → UInt8) (msg : MsgObj)

/-- The header is copied whole, however short the message is. -/
theorem cloudPacketRxEventHandler_eq :
    cloudPacketRxEventHandler rsuName heap msg =
      ⟨(cloudAnnounced rsuName msg).outcome, (cloudAnnounced rsuName msg).places⟩ := by
  have hfield := commonFieldFormat_readBy (MsgBuf.copyOf msg c2rCommonFieldLen heap).content 0
    [⟨0, c2rCommonFieldLen⟩]
  dsimp only at hfield
  rw [commonFieldFormat.value_copyOf (by decide) (by decide),
    commonFieldFormat.map_wrapped (by decide)] at hfield
  change readCommonField (MsgBuf.copyOf msg c2rCommonFieldLen heap) = _ at hfield
  simp only [cloudPacketRxEventHandler, cloudAnnounced, hfield]
  generalize commonFieldFormat.value (bytesAt msg.msg) 0 = commonField
  cases commonField.invalid rsuName with
  | some err => rfl
  | none => rfl

theorem C2RCommonField.le_packetLen {field : C2RCommonField}
    (hvalid : field.invalid rsuName = none) :
    c2rCommonFieldLen ≤ field.packetLen := by
  by_contra hlt
  rw [C2RCommonField.invalid, if_pos (not_le.mp hlt)] at hvalid
  cases hvalid

theorem cloudPacketRxEventHandler_staysWithin_iff :
    StaysWithin msg (cloudAnnounced rsuName msg) (cloudPacketRxEventHandler rsuName heap msg) ↔
      (cloudAnnounced rsuName msg).needs ≤ msg.msgLen := by
  rw [cloudPacketRxEventHandler_eq]
  simp only [cloudAnnounced]
  generalize commonFieldFormat.value (bytesAt msg.msg) 0 = commonField
  cases hinvalid : commonField.invalid rsuName with
  | some err =>
      refine ⟨fun h => ?_, fun hlen => ⟨fun place hplace => ?_, fun _ => ⟨err, rfl⟩,
        fun _ => ⟨rfl, rfl⟩⟩⟩
      · exact h.within ⟨0, c2rCommonFieldLen⟩ List.mem_cons_self
      · rcases List.mem_cons.mp hplace with rfl | hplace
        · exact hlen
        · exact (commonFieldFormat.inside 0 place hplace).2.trans hlen
  | none =>
      have hpacketLen := C2RCommonField.le_packetLen rsuName hinvalid
      refine ⟨fun h => ?_, fun hlen => ⟨fun place hplace => ?_, fun hlt => ?_,
        fun _ => ⟨rfl, rfl⟩⟩⟩
      · by_contra hlt
        obtain ⟨err, herr⟩ := h.refuses (not_le.mp hlt)
        cases herr
      · rcases List.mem_cons.mp hplace with rfl | hplace
        · exact hpacketLen.trans hlen
        · rcases List.mem_append.mp hplace with hplace | hplace
          · exact (commonFieldFormat.inside 0 place hplace).2.trans (hpacketLen.trans hlen)
          · rw [List.mem_singleton.mp hplace]
            dsimp only at hlen ⊢
            omega
      · exact absurd hlen (not_le.mpr hlt)

end Cloud

/-! ## The three handlers -/

theorem pedestrianPacketRxEventHandler_staysWithin_iff (heap : ℕ → UInt8) (msg : MsgObj) :
    StaysWithin msg (pedestrianAnnounced msg) (pedestrianPacketRxEventHandler heap msg) ↔
      (pedestrianAnnounced msg).needs ≤ msg.msgLen ∧ (pedestrianAnnounced msg).needs ≤ 2 ^ 32 := by
  refine tableRxEventHandler_staysWithin_iff pedestrianHeaderFormat_readBy
    (fun _ => pedestrianFormat_readBy) (fun _ _ => rfl) (by decide) fun _ i hlt => ?_
  refine ⟨⟨24 + 6 * i + 5, 1⟩, by simp [pedestrianFormat, pedestrianHeaderFormat], ?_⟩
  simp only [pedestrianFormat, pedestrianHeaderFormat] at hlt ⊢
  omega

theorem smartAVIPacketRxEventHandler_staysWithin_iff (heap : ℕ → UInt8) (msg : MsgObj) :
    StaysWithin msg (smartAVIAnnounced msg) (smartAVIPacketRxEventHandler heap msg) ↔
      (smartAVIAnnounced msg).needs ≤ msg.msgLen ∧ (smartAVIAnnounced msg).needs ≤ 2 ^ 32 := by
  refine tableRxEventHandler_staysWithin_iff obstacleHeaderFormat_readBy obstacleFormat_readBy
    (fun first hneeds => ?_) (by decide) fun first i hlt => ?_
  · simp only [obstacleHeaderFormat, obstacleFormat] at hneeds
    exact decide_eq_true (by omega)
  · refine ⟨⟨24 + 68 * i + 64, 4⟩, by simp [obstacleFormat, obstacleHeaderFormat], ?_⟩
    simp only [obstacleFormat, obstacleHeaderFormat] at hlt ⊢
    omega

/-- The handlers stay within exactly the messages that have all the bytes which the
packet announces, no more of them than an index of 32 bits reaches. -/
theorem inboundParsers_stayWithin_iff (rsuName : List UInt8) (heap : ℕ → UInt8) (msg : MsgObj) :
    (StaysWithin msg (cloudAnnounced rsuName msg) (cloudPacketRxEventHandler rsuName heap msg) ↔
      (cloudAnnounced rsuName msg).needs ≤ msg.msgLen) ∧
    (StaysWithin msg (pedestrianAnnounced msg) (pedestrianPacketRxEventHandler heap msg) ↔
      (pedestrianAnnounced msg).needs ≤ msg.msgLen ∧
        (pedestrianAnnounced msg).needs ≤ 2 ^ 32) ∧
    (StaysWithin msg (smartAVIAnnounced msg) (smartAVIPacketRxEventHandler heap msg) ↔
      (smartAVIAnnounced msg).needs ≤ msg.msgLen ∧
        (smartAVIAnnounced msg).needs ≤ 2 ^ 32) :=
  ⟨cloudPacketRxEventHandler_staysWithin_iff rsuName heap msg,
    pedestrianPacketRxEventHandler_staysWithin_iff heap msg,
    smartAVIPacketRxEventHandler_staysWithin_iff heap msg⟩

/-- Thirty-five bytes that announce thirty-six of a cloud packet, and two records. -/
def shortMsg : MsgObj where
  msg i := if i = 3 then 36 else if i = 23 then 2 else if i = 34 then 1 else 0
  msgLen := 35
  deviceId := fromCloud
  handleId := 0

theorem short_message_read_beyond :
    ¬StaysWithin shortMsg (cloudAnnounced [] shortMsg)
        (cloudPacketRxEventHandler [] (fun _ => 0) shortMsg) ∧
      ¬StaysWithin shortMsg (pedestrianAnnounced shortMsg)
        (pedestrianPacketRxEventHandler (fun _ => 0) shortMsg) ∧
      ¬StaysWithin shortMsg (smartAVIAnnounced shortMsg)
        (smartAVIPacketRxEventHandler (fun _ => 0) shortMsg) := by
  rw [cloudPacketRxEventHandler_staysWithin_iff, pedestrianPacketRxEventHandler_staysWithin_iff,
    smartAVIPacketRxEventHandler_staysWithin_iff]
  decide

end AdaptiveSignal.Network
