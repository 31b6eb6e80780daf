import AdaptiveSignal.Serial.Receive

/-! # Frames that are sent and received

A sequence of frames is received frame by frame, as it was sent. A changed byte makes
its own frame be refused: an information frame is answered by a NAK, an ACK frame makes
`ack_seq` invalid, and a NAK frame is dropped.
-/

namespace AdaptiveSignal.Serial

open Foundation

/-- A frame on its way, with at most one byte of SEQ, ADDR, INFO or CKS changed. -/
structure Delivery where
  sent : Transmission
  change : Option (ℕ × UInt8)
  changes : ∀ c ∈ change, sent.frame.Changeable c.1 ∧ sent.bytes[c.1]? ≠ some c.2

namespace Delivery

variable (d : Delivery)

def bytes : List UInt8 :=
  match d.change with
  | none => d.sent.bytes
  | some (i, byte) => d.sent.bytes.set i byte

/-- What is seen of the frame at the other end. -/
def outcome : List Reception :=
  match d.change, d.sent.kind with
  | none, .info => [.accept d.sent.contents,
      .write (ackBytes d.sent.contents.seq d.sent.contents.addr0 d.sent.contents.addr1), .handle]
  | none, .ack => [.accept d.sent.contents, .ackSeq (Int16.ofNat d.sent.contents.seq.toNat)]
  | none, .nak => [.accept d.sent.contents]
  | some _, .info => [.refuse .info, .write (nakBytes (d.bytes.getD 2 0) errCks)]
  | some _, .ack => [.refuse .ack, .ackSeq (-1)]
  | some _, .nak => [.refuse .nak]

/-- The bytes that arrive are those of a frame with this outcome. -/
theorem exists_frame : ∃ f : Frame, f.bytes = d.bytes ∧ f.outcome = d.outcome := by
  obtain ⟨sent, change, hchanges⟩ := d
  cases change with
  | none =>
      refine ⟨sent.frame, sent.frame_bytes, ?_⟩
      have hcontents := sent.frame_contents
      have hseq : sent.frame.seq = sent.contents.seq := congrArg Contents.seq hcontents
      have haddr0 : sent.frame.addr0 = sent.contents.addr0 := congrArg Contents.addr0 hcontents
      have haddr1 : sent.frame.addr1 = sent.contents.addr1 := congrArg Contents.addr1 hcontents
      simp only [Frame.outcome, if_pos sent.frame_intact, sent.frame_kind, hcontents, hseq, haddr0,
        haddr1, outcome]
      cases sent.kind <;> rfl
  | some change =>
      obtain ⟨i, byte⟩ := change
      obtain ⟨hchangeable, hbyte⟩ := hchanges (i, byte) rfl
      obtain ⟨f, hbytes, hkind⟩ := sent.frame.exists_changed hchangeable byte
      have hi : i < sent.frame.bytes.length := hchangeable.lt
      have hne : byte ≠ sent.frame.bytes[i] := by
        rintro rfl
        apply hbyte
        rw [← sent.frame_bytes]
        exact List.getElem?_eq_getElem hi
      have hintact := sent.frame.not_intact_of_changed sent.frame_intact hi hne hbytes
      rw [sent.frame_bytes] at hbytes
      refine ⟨f, hbytes, ?_⟩
      have hseq : f.seq = (sent.bytes.set i byte).getD 2 0 := by
        rw [← hbytes]
        rfl
      simp only [Frame.outcome, if_neg hintact, hkind, sent.frame_kind, hseq, outcome, bytes]
      cases sent.kind <;> rfl

end Delivery

/-- Frame after frame is received. -/
theorem absorbs_deliveries {r : Receiver} (hidle : r.Idle) (deliveries : List Delivery) :
    ∃ events r', receptions events = deliveries.flatMap Delivery.outcome ∧ r'.Idle ∧
      rxHandler.Absorbs r (deliveries.flatMap Delivery.bytes) events r' := by
  induction deliveries generalizing r with
  | nil => exact ⟨[], r, rfl, hidle, Server.absorbs_nil⟩
  | cons d deliveries ih =>
      obtain ⟨f, hbytes, houtcome⟩ := d.exists_frame
      obtain ⟨events, r', hfirst, hidle', habsorbs⟩ := absorbs_frame hidle f
      obtain ⟨later, r'', hlater, hidle'', habsorbs'⟩ := ih hidle'
      rw [hbytes] at habsorbs
      refine ⟨events ++ later, r'', ?_, hidle'', ?_⟩
      · rw [receptions_append, hfirst, hlater, houtcome, List.flatMap_cons]
      · rw [List.flatMap_cons]
        exact habsorbs.append habsorbs'

/-- Every frame is received once and in order, unchanged frames as they were sent; a
changed one is refused, and no other frame is disturbed. -/
theorem frames_round_trip (r : Receiver) (hidle : r.Idle) (deliveries : List Delivery) :
    let received := rxHandler.serve r (deliveries.flatMap Delivery.bytes)
    receptions received.1 = deliveries.flatMap Delivery.outcome ∧
      received.2.1.Idle ∧ received.2.2 = [] := by
  obtain ⟨events, r', houtcome, hidle', habsorbs⟩ := absorbs_deliveries hidle deliveries
  have hserve := habsorbs []
  have hblocked : rxHandler.serve r' [] = ([], r', []) := Server.serve_blocked run_rxBody_nil
  rw [hblocked, List.append_nil, List.append_nil] at hserve
  dsimp only
  rw [hserve]
  exact ⟨houtcome, hidle', rfl⟩

/-- An empty report, an ACK for it, and the report again with another SEQ. -/
theorem frames_round_trip_changed :
    let packet : SerialPacket := { Receiver.initial.packet.init with len1 := 10 }
    let report : Transmission := .info
      { packet := packet, start := rfl, type := rfl, trailer := ⟨rfl, rfl⟩, length := by decide }
    let deliveries : List Delivery := [⟨report, none, by simp⟩, ⟨.ack packet rfl, none, by simp⟩,
      ⟨report, some (2, 7), by
        intro c hc
        obtain rfl : (2, 7) = c := by simpa using hc
        exact ⟨Or.inl ⟨Nat.le_refl _, by decide⟩, by decide⟩⟩]
    let received := rxHandler.serve Receiver.initial (deliveries.flatMap Delivery.bytes)
    receptions received.1 = deliveries.flatMap Delivery.outcome ∧
      received.2.1.Idle ∧ received.2.2 = [] := by
  intro packet report deliveries
  exact frames_round_trip Receiver.initial Receiver.initial_idle deliveries

/-- An ACK frame with another SEQ is not answered by a NAK. -/
theorem changed_ack_unanswered :
    let sent : Transmission := .ack Receiver.initial.packet rfl
    let received := rxHandler.serve Receiver.initial (sent.bytes.set 2 7)
    sent.frame.Changeable 2 ∧ sent.bytes[2]? = some 0 ∧
      receptions received.1 = [.refuse .ack, .ackSeq (-1)] ∧
      ¬ ∃ bytes, .write bytes ∈ receptions received.1 := by
  have hreceived : receptions (rxHandler.serve Receiver.initial
      ((Transmission.ack Receiver.initial.packet rfl).bytes.set 2 7)).1 =
        [.refuse .ack, .ackSeq (-1)] := by decide
  dsimp only
  refine ⟨Or.inl ⟨Nat.le_refl _, by decide⟩, by decide, hreceived, ?_⟩
  rw [hreceived]
  simp

end AdaptiveSignal.Serial
