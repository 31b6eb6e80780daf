import AdaptiveSignal.Foundation.Checksum
import Mathlib.Tactic.SplitIfs

/-! # Frames on the serial line to the signal controller

A packet lies in memory in another order than its bytes go over the line. What is
sent is an information frame, or an ACK or NAK frame made in the packet that is
answered.
-/

namespace AdaptiveSignal.Serial

open Foundation

abbrev dleVal : UInt8 := 0xAA
abbrev stxVal : UInt8 := 0xBB
abbrev etxVal : UInt8 := 0xCC
abbrev ackVal : UInt8 := 0xDD
abbrev nakVal : UInt8 := 0xEE

abbrev errCks : UInt8 := 0x1
abbrev errLength : UInt8 := 0x8

abbrev headerLen : ℕ := 10
abbrev maxPacketLen : ℕ := 128
abbrev maxPayloadLen : ℕ := maxPacketLen - headerLen
abbrev ackInfoLen : ℕ := 0
abbrev nakInfoLen : ℕ := 1
abbrev vminLen : ℕ := 20

/-- The packet in memory. Its INFO array has `MAX_PAYLOAD_LEN` bytes; an index from
there on is outside the packet. -/
structure SerialPacket where
  cks : UInt8
  dle1 : UInt8
  type : UInt8
  seq : UInt8
  addr0 : UInt8
  addr1 : UInt8
  len0 : UInt8
  len1 : UInt8
  dle2 : UInt8
  etx : UInt8
  info : ℕ → UInt8

/-- The two bytes of LEN, the higher one first. -/
def wordOf (high low : UInt8) : UInt16 := high.toUInt16 <<< 8 ||| low.toUInt16

/-- The exclusive or of some bytes. -/
def xorBytes (bytes : List UInt8) : UInt8 := checksum (· ^^^ ·) 0 bytes

theorem xor_selfInverse : SelfInverse (α := UInt8) (· ^^^ ·) 0 where
  assoc := UInt8.xor_assoc
  comm := UInt8.xor_comm
  neutral_op := fun _ => UInt8.zero_xor
  self := fun _ => UInt8.xor_self

/-- A cleaned trailer does not count. -/
theorem xorBytes_cleaned : xorBytes [0, 0] = xorBytes [] := by decide

namespace SerialPacket

variable (p : SerialPacket)

def packetLen : UInt16 := wordOf p.len0 p.len1

/-- The nine bytes from `DLE_1` on. -/
def header : List UInt8 :=
  [p.dle1, p.type, p.seq, p.addr0, p.addr1, p.len0, p.len1, p.dle2, p.etx]

def infoBytes (infoLen : ℕ) : List UInt8 := (List.range infoLen).map p.info

def checkSum (infoLen : ℕ) : UInt8 := xorBytes p.header ^^^ xorBytes (p.infoBytes infoLen)

/-- `traffic_signal_packet_clean`. -/
def clean : SerialPacket := { p with dle2 := 0, etx := 0 }

/-- `signal_packet_init`. -/
def init : SerialPacket :=
  { p with dle1 := dleVal, type := stxVal, addr0 := 0xFF, addr1 := 0xFF, dle2 := dleVal,
           etx := etxVal }

/-- The bytes `TC_packet_tx` writes: the trailer goes behind the INFO bytes. -/
def tcPacketTx : List UInt8 :=
  let infoLen := p.packetLen.toNat - headerLen
  p.header.take 7 ++ p.infoBytes infoLen ++ p.header.drop 7 ++ [p.checkSum infoLen]

/-- The packet that `send_ack` makes of the one it answers. -/
def acknowledged : SerialPacket := { p with type := ackVal, len0 := 0x00, len1 := 0x08 }.clean

/-- The bytes `send_ack` writes. -/
def sendAck : List UInt8 :=
  p.acknowledged.header.take 7 ++ [p.acknowledged.checkSum ackInfoLen]

/-- The packet that `send_nak` makes of the one it refuses. -/
def refused (err : UInt8) : SerialPacket :=
  { p with type := nakVal, addr0 := 0xFF, addr1 := 0xFF, len0 := 0x00, len1 := 0x09,
           info := Function.update p.info 0 err }.clean

/-- The bytes `send_nak` writes. -/
def sendNak (err : UInt8) : List UInt8 :=
  (p.refused err).header.take 7 ++ [err, (p.refused err).checkSum nakInfoLen]

end SerialPacket

/-! ## Frames -/

inductive FrameKind
  | info
  | ack
  | nak
  deriving DecidableEq, Repr

/-- The second byte of a frame. -/
def FrameKind.type : FrameKind → UInt8
  | info => stxVal
  | ack => ackVal
  | nak => nakVal

/-- The trailer that only an information frame has. -/
def FrameKind.trailer : FrameKind → List UInt8
  | info => [dleVal, etxVal]
  | ack => []
  | nak => []

/-- The number of INFO bytes a frame of the kind has when its LEN is `len`. -/
def FrameKind.Shaped (len infoLen : ℕ) : FrameKind → Prop
  | info => len = headerLen + infoLen ∧ infoLen ≤ maxPayloadLen
  | ack => infoLen = ackInfoLen
  | nak => infoLen = nakInfoLen

/-- What a frame tells. -/
structure Contents where
  type : UInt8
  seq : UInt8
  addr0 : UInt8
  addr1 : UInt8
  len0 : UInt8
  len1 : UInt8
  info : List UInt8
  deriving DecidableEq

def SerialPacket.contents (p : SerialPacket) (infoLen : ℕ) : Contents where
  type := p.type
  seq := p.seq
  addr0 := p.addr0
  addr1 := p.addr1
  len0 := p.len0
  len1 := p.len1
  info := p.infoBytes infoLen

/-- A frame as it comes over the line, with any checksum. -/
structure Frame where
  kind : FrameKind
  seq : UInt8
  addr0 : UInt8
  addr1 : UInt8
  len0 : UInt8
  len1 : UInt8
  info : List UInt8
  cks : UInt8
  shaped : kind.Shaped (wordOf len0 len1).toNat info.length

namespace Frame

variable (f : Frame)

/-- The bytes before the INFO bytes. -/
def head : List UInt8 :=
  [dleVal, f.kind.type, f.seq, f.addr0, f.addr1, f.len0, f.len1]

def bytes : List UInt8 := f.head ++ f.info ++ f.kind.trailer ++ [f.cks]

def contents : Contents where
  type := f.kind.type
  seq := f.seq
  addr0 := f.addr0
  addr1 := f.addr1
  len0 := f.len0
  len1 := f.len1
  info := f.info

/-- The checksum is right: the exclusive or of all bytes is zero. -/
def Intact : Prop := xorBytes f.bytes = 0

instance : Decidable f.Intact := inferInstanceAs (Decidable (_ = _))

theorem intact_iff :
    f.Intact ↔ xorBytes f.head ^^^ xorBytes f.info ^^^ xorBytes f.kind.trailer = f.cks := by
  unfold Intact bytes xorBytes
  rw [xor_selfInverse.checksum_append, xor_selfInverse.checksum_append,
    xor_selfInverse.checksum_append, checksum_cons, checksum_nil, UInt8.xor_zero]
  exact xor_selfInverse.op_eq_neutral_iff

/-- The checksum of a packet with the bytes of a frame. -/
theorem checkSum_eq {p : SerialPacket} {infoLen : ℕ} (hhead : p.header.take 7 = f.head)
    (htrailer : xorBytes (p.header.drop 7) = xorBytes f.kind.trailer)
    (hinfo : p.infoBytes infoLen = f.info) :
    p.checkSum infoLen =
      xorBytes f.head ^^^ xorBytes f.info ^^^ xorBytes f.kind.trailer := by
  have hheader : xorBytes p.header = xorBytes f.head ^^^ xorBytes f.kind.trailer := by
    rw [← hhead, ← htrailer, xorBytes, xorBytes, xorBytes, ← xor_selfInverse.checksum_append,
      List.take_append_drop]
  rw [SerialPacket.checkSum, hheader, hinfo, UInt8.xor_assoc, UInt8.xor_assoc,
    UInt8.xor_comm (xorBytes f.info)]

/-! ### A changed byte -/

/-- The byte is one of SEQ, ADDR, INFO and CKS. -/
def Changeable (i : ℕ) : Prop :=
  (2 ≤ i ∧ i ≤ 4) ∨ (7 ≤ i ∧ i < 7 + f.info.length) ∨
    i = 7 + f.info.length + f.kind.trailer.length

theorem length_bytes :
    f.bytes.length = 7 + f.info.length + f.kind.trailer.length + 1 := by
  simp only [bytes, head, List.length_append, List.length_cons, List.length_nil]

theorem Changeable.lt {f : Frame} {i : ℕ} (hi : f.Changeable i) : i < f.bytes.length := by
  unfold Changeable at hi
  rw [length_bytes]
  omega

/-- The bytes are still those of a frame of the kind. -/
theorem exists_changed {i : ℕ} (hi : f.Changeable i) (byte : UInt8) :
    ∃ f' : Frame, f'.bytes = f.bytes.set i byte ∧ f'.kind = f.kind := by
  have hhead : f.head.length = 7 := rfl
  rcases hi with hfield | hinfo | rfl
  · obtain rfl | rfl | rfl : i = 2 ∨ i = 3 ∨ i = 4 := by omega
    · exact ⟨{ f with seq := byte }, rfl, rfl⟩
    · exact ⟨{ f with addr0 := byte }, rfl, rfl⟩
    · exact ⟨{ f with addr1 := byte }, rfl, rfl⟩
  · refine ⟨{ f with info := f.info.set (i - 7) byte, shaped := ?_ }, ?_, rfl⟩
    · rw [List.length_set]
      exact f.shaped
    · change f.head ++ f.info.set (i - 7) byte ++ f.kind.trailer ++ [f.cks] = _
      unfold bytes
      rw [List.set_append_left, List.set_append_left, List.set_append_right, hhead]
      · omega
      · rw [List.length_append]
        omega
      · rw [List.length_append, List.length_append]
        omega
  · refine ⟨{ f with cks := byte }, ?_, rfl⟩
    change f.head ++ f.info ++ f.kind.trailer ++ [byte] = _
    unfold bytes
    rw [List.set_append_right]
    · rw [List.length_append, List.length_append, hhead, Nat.sub_self]
      rfl
    · apply Nat.le_of_eq
      rw [List.length_append, List.length_append, hhead]

/-- A frame with one changed byte is not intact. -/
theorem not_intact_of_changed (hintact : f.Intact) {i : ℕ} (hi : i < f.bytes.length)
    {byte : UInt8} (hbyte : byte ≠ f.bytes[i]) {f' : Frame}
    (hchanged : f'.bytes = f.bytes.set i byte) : ¬ f'.Intact := by
  intro hintact'
  unfold Intact at hintact hintact'
  rw [hchanged, ← hintact] at hintact'
  exact xor_selfInverse.checksum_set_ne hi hbyte hintact'

end Frame

/-! ## What is sent -/

/-- A packet for `TC_packet_tx`: initialised, with a LEN that it has room for. -/
structure OutgoingPacket where
  packet : SerialPacket
  start : packet.dle1 = dleVal
  type : packet.type = stxVal
  trailer : packet.dle2 = dleVal ∧ packet.etx = etxVal
  length : headerLen ≤ packet.packetLen.toNat ∧ packet.packetLen.toNat ≤ maxPacketLen

def OutgoingPacket.infoLen (p : OutgoingPacket) : ℕ := p.packet.packetLen.toNat - headerLen

theorem OutgoingPacket.shaped (p : OutgoingPacket) :
    FrameKind.info.Shaped (wordOf p.packet.len0 p.packet.len1).toNat
      (p.packet.infoBytes p.infoLen).length := by
  have hlength := p.length
  rw [SerialPacket.infoBytes, List.length_map, List.length_range]
  unfold OutgoingPacket.infoLen FrameKind.Shaped
  unfold SerialPacket.packetLen maxPacketLen at *
  unfold maxPayloadLen maxPacketLen headerLen at *
  omega

/-- What is sent: an information frame, or the answer to a received packet. -/
inductive Transmission
  | info (p : OutgoingPacket)
  | ack (p : SerialPacket) (start : p.dle1 = dleVal)
  | nak (p : SerialPacket) (start : p.dle1 = dleVal) (err : UInt8)

namespace Transmission

def bytes : Transmission → List UInt8
  | info p => p.packet.tcPacketTx
  | ack p _ => p.sendAck
  | nak p _ err => p.sendNak err

/-- The contents of the packet that is sent. -/
def contents : Transmission → Contents
  | info p => p.packet.contents p.infoLen
  | ack p _ => p.acknowledged.contents ackInfoLen
  | nak p _ err => (p.refused err).contents nakInfoLen

def kind : Transmission → FrameKind
  | info _ => .info
  | ack _ _ => .ack
  | nak _ _ _ => .nak

/-- The frame on the line. -/
def frame : Transmission → Frame
  | info p => {
      kind := .info
      seq := p.packet.seq
      addr0 := p.packet.addr0
      addr1 := p.packet.addr1
      len0 := p.packet.len0
      len1 := p.packet.len1
      info := p.packet.infoBytes p.infoLen
      cks := p.packet.checkSum p.infoLen
      shaped := p.shaped }
  | ack p _ => {
      kind := .ack
      seq := p.seq
      addr0 := p.addr0
      addr1 := p.addr1
      len0 := 0x00
      len1 := 0x08
      info := []
      cks := p.acknowledged.checkSum ackInfoLen
      shaped := rfl }
  | nak p _ err => {
      kind := .nak
      seq := p.seq
      addr0 := 0xFF
      addr1 := 0xFF
      len0 := 0x00
      len1 := 0x09
      info := [err]
      cks := (p.refused err).checkSum nakInfoLen
      shaped := rfl }

theorem frame_bytes (t : Transmission) : t.frame.bytes = t.bytes := by
  cases t with
  | info p =>
      obtain ⟨p, hstart, htype, ⟨hdle, hetx⟩, hlength⟩ := p
      simp [bytes, frame, Frame.bytes, Frame.head, FrameKind.type, FrameKind.trailer,
        SerialPacket.tcPacketTx, SerialPacket.header, OutgoingPacket.infoLen, hstart, htype, hdle,
        hetx]
  | ack p hstart =>
      simp [bytes, frame, Frame.bytes, Frame.head, FrameKind.type, FrameKind.trailer,
        SerialPacket.sendAck, SerialPacket.acknowledged, SerialPacket.header, SerialPacket.clean,
        hstart]
  | nak p hstart err =>
      simp [bytes, frame, Frame.bytes, Frame.head, FrameKind.type, FrameKind.trailer,
        SerialPacket.sendNak, SerialPacket.refused, SerialPacket.header, SerialPacket.clean,
        hstart]

@[simp] theorem frame_kind (t : Transmission) : t.frame.kind = t.kind := by
  cases t <;> rfl

theorem frame_contents (t : Transmission) : t.frame.contents = t.contents := by
  cases t with
  | info p => simp [frame, contents, Frame.contents, SerialPacket.contents, FrameKind.type, p.type]
  | ack p hstart => rfl
  | nak p hstart err => rfl

/-- What is sent has the right checksum. -/
theorem frame_intact (t : Transmission) : t.frame.Intact := by
  rw [Frame.intact_iff]
  cases t with
  | info p =>
      refine (Frame.checkSum_eq (info p).frame ?_ ?_ rfl).symm
      · simp [SerialPacket.header, frame, Frame.head, FrameKind.type, p.start, p.type]
      · simp [SerialPacket.header, frame, FrameKind.trailer, p.trailer]
  | ack p hstart =>
      refine (Frame.checkSum_eq (ack p hstart).frame (p := p.acknowledged) ?_
        xorBytes_cleaned rfl).symm
      simp [SerialPacket.header, SerialPacket.acknowledged, SerialPacket.clean, frame, Frame.head,
        FrameKind.type, hstart]
  | nak p hstart err =>
      refine (Frame.checkSum_eq (nak p hstart err).frame (p := p.refused err) ?_
        xorBytes_cleaned rfl).symm
      simp [SerialPacket.header, SerialPacket.refused, SerialPacket.clean, frame, Frame.head,
        FrameKind.type, hstart]

end Transmission

end AdaptiveSignal.Serial
