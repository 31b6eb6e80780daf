import AdaptiveSignal.Serial.RoundTrip

/-! # Finding the next frame after noise

Bytes in which no frame begins are passed over. Whether the next frame is found
depends on how many escape bytes stand right before it: each one undoes the last.
-/

namespace AdaptiveSignal.Serial

open Foundation

/-- The byte, after an escape byte, makes a frame begin. -/
def BeginsFrame (byte : UInt8) : Prop := byte = stxVal ∨ byte = ackVal ∨ byte = nakVal

instance (byte : UInt8) : Decidable (BeginsFrame byte) := inferInstanceAs (Decidable (_ ∨ _ ∨ _))

/-- No escape byte is followed by the type of a frame. -/
def Quiet (bytes : List UInt8) : Prop :=
  bytes.IsChain fun byte next => byte = dleVal → ¬ BeginsFrame next

/-- The number of escape bytes at the end. -/
def trailingEscapes (bytes : List UInt8) : ℕ :=
  (bytes.reverse.takeWhile fun byte => byte = dleVal).length

/-! ## Passing over noise -/

section Noise

/-- `escape_flag` after some bytes in which no frame begins. -/
def escapeAfter (escape : Bool) (bytes : List UInt8) : Bool :=
  bytes.foldl (fun escape byte => byte = dleVal && !escape) escape

theorem trailingEscapes_concat (bytes : List UInt8) (byte : UInt8) :
    trailingEscapes (bytes ++ [byte]) = if byte = dleVal then trailingEscapes bytes + 1 else 0 := by
  unfold trailingEscapes
  rw [List.reverse_concat, List.takeWhile_cons]
  by_cases hdle : byte = dleVal
  · rw [if_pos (decide_eq_true hdle), if_pos hdle, List.length_cons]
  · rw [if_neg (by simpa using hdle), if_neg hdle, List.length_nil]

/-- The flag is set after an odd number of escape bytes. -/
theorem escapeAfter_eq (bytes : List UInt8) :
    escapeAfter false bytes = decide (trailingEscapes bytes % 2 = 1) := by
  induction bytes using List.reverseRecOn with
  | nil => rfl
  | append_singleton bytes byte ih =>
      have hstep : escapeAfter false (bytes ++ [byte]) =
          (decide (byte = dleVal) && !escapeAfter false bytes) := by
        unfold escapeAfter
        rw [List.foldl_concat]
      rw [hstep, ih, trailingEscapes_concat]
      split_ifs with hdle
      · rw [decide_eq_true hdle, Bool.true_and, ← decide_not, decide_eq_decide]
        omega
      · rw [decide_eq_false hdle]
        rfl

/-- Noise is passed over. After an escape byte that is still open, it is part of it. -/
theorem absorbs_noise {r : Receiver} {bytes : List UInt8}
    (hquiet : Quiet (if r.escapeFlag = true then dleVal :: bytes else bytes)) :
    rxHandler.Absorbs r bytes [] { r with escapeFlag := escapeAfter r.escapeFlag bytes } := by
  induction bytes generalizing r with
  | nil => exact Server.absorbs_nil
  | cons byte rest ih =>
      rcases hescape : r.escapeFlag with _ | _
      · rw [if_neg (by rw [hescape]; exact Bool.false_ne_true)] at hquiet
        by_cases hdle : byte = dleVal
        · subst hdle
          exact (absorbs_escape hescape).append (ih hquiet)
        · have hother := absorbs_other (r := r) (fun h => hdle h.1)
            (fun h => absurd (hescape.symm.trans h) Bool.false_ne_true)
          have hrest := hother.append (@ih { r with escapeFlag := false } hquiet.of_cons)
          simpa [escapeAfter, hdle] using hrest
      · -- the escape byte before counts as the first of the noise
        rw [if_pos hescape] at hquiet
        obtain ⟨hbegins, htail⟩ := List.isChain_cons_cons.mp hquiet
        have hnot := hbegins rfl
        simp only [BeginsFrame, not_or] at hnot
        have hother := absorbs_other (r := r)
          (fun h => absurd (hescape.symm.trans h.2) Bool.false_ne_true.symm) (fun _ => hnot)
        have hrest := hother.append (@ih { r with escapeFlag := false } htail.of_cons)
        simpa [escapeAfter] using hrest

end Noise

/-! ## The bytes an accepted frame takes -/

section Sizes

/-- The number of bytes of a frame with these contents. -/
def Contents.size (c : Contents) : ℕ := 8 + c.info.length + if c.type = stxVal then 2 else 0

theorem Frame.size_contents (f : Frame) : f.contents.size = f.bytes.length := by
  rw [Frame.length_bytes]
  change 8 + f.info.length + _ = _
  have hack : ackVal ≠ stxVal := by decide
  have hnak : nakVal ≠ stxVal := by decide
  cases hkind : f.kind <;>
    simp [Frame.contents, hkind, FrameKind.type, FrameKind.trailer, hack, hnak] <;> omega

/-- What has been accepted after a read of `m` bytes had no more, and its escape byte. -/
def Sized (m : ℕ) (event : SerialEvent) : Prop := ∀ c, event = .accept c → c.size ≤ m + 1

variable {p : SerialPacket}

theorem size_contents_le (infoLen : ℕ) : (p.contents infoLen).size ≤ 10 + infoLen := by
  unfold Contents.size SerialPacket.contents SerialPacket.infoBytes
  rw [List.length_map, List.length_range]
  split_ifs <;> omega

theorem size_contents_of_ne (infoLen : ℕ) (htype : p.type ≠ stxVal) :
    (p.contents infoLen).size = 8 + infoLen := by
  unfold Contents.size SerialPacket.contents SerialPacket.infoBytes
  rw [List.length_map, List.length_range, if_neg htype, Nat.add_zero]

theorem meets_recvInfo_sized : (recvInfo p).Meets Sized (fun _ _ => True) 1 := by
  unfold recvInfo
  refine Reader.meets_bind.mpr (meets_readHeader.mono ?_)
  rintro m p' ⟨rfl, -⟩
  refine Reader.meets_say_bind.mpr ⟨by simp [Sized], ?_⟩
  refine Reader.meets_bind.mpr ((meets_readInfo (by simp [Sized]) (Nat.zero_le _)
    (Nat.le_refl _)).mono ?_)
  rintro m p'' rfl
  refine meets_finishInfo (by simp [Sized]) (by simp [Sized]) (by simp [Sized]) (by simp [Sized])
    fun p c hc => ?_
  obtain rfl : p.contents _ = c := by simpa using hc
  exact Nat.le_trans (size_contents_le _) (by omega)

theorem meets_recvAck_sized (htype : p.type = ackVal) :
    (recvAck p).Meets Sized (fun _ _ => True) 1 := by
  refine meets_recvAck (by simp [Sized]) fun p' htype' c hc => ?_
  obtain rfl : p'.contents ackInfoLen = c := by simpa using hc
  exact Nat.le_of_eq (size_contents_of_ne _ (by rw [htype', htype]; decide))

theorem meets_recvNak_sized (htype : p.type = nakVal) :
    (recvNak p).Meets Sized (fun _ _ => True) 1 := by
  refine meets_recvNak (by simp [Sized]) (by simp [Sized]) fun p' htype' c hc => ?_
  obtain rfl : p'.contents nakInfoLen = c := by simpa using hc
  exact Nat.le_of_eq (size_contents_of_ne _ (by rw [htype', htype]; decide))

/-- Without an escape byte before it, a byte is not answered. -/
theorem meets_rxBody_closed {r : Receiver} (hescape : r.escapeFlag = false) :
    (rxBody r).Meets (fun _ _ => False) (fun _ _ => True) 0 := by
  refine Reader.meets_receive_bind.mpr fun bytes _ => ?_
  unfold rxByte
  rw [hescape]
  split_ifs with hdle hinfo hack hnak
  · trivial
  · exact absurd hinfo.1 (by simp)
  · exact absurd hack.1 (by simp)
  · exact absurd hnak.1 (by simp)
  · trivial

theorem meets_rxBody (r : Receiver) : (rxBody r).Meets Sized (fun _ _ => True) 0 := by
  refine Reader.meets_receive_bind.mpr fun bytes _ => ?_
  unfold rxByte
  split_ifs
  · trivial
  · exact Reader.meets_bind.mpr (meets_recvInfo_sized.mono fun _ _ _ => trivial)
  · refine Reader.meets_bind.mpr ((meets_recvAck_sized rfl).mono fun _ _ _ => ?_)
    exact Reader.meets_say_bind.mpr ⟨by simp [Sized], trivial⟩
  · exact Reader.meets_bind.mpr ((meets_recvNak_sized rfl).mono fun _ _ _ => trivial)
  · trivial

/-- An accepted frame has no more bytes than were there. -/
theorem size_le_of_accept (r : Receiver) (stream : List UInt8) {c : Contents}
    (haccept : .accept c ∈ (rxHandler.serve r stream).1) :
    c.size ≤ stream.length + r.escapeFlag.toNat := by
  have hbody : ∀ (r : Receiver) stream, .accept c ∈ ((rxBody r).run stream).1 →
      c.size ≤ stream.length + r.escapeFlag.toNat := by
    intro r stream haccept
    rcases hescape : r.escapeFlag with _ | _
    · obtain ⟨_, _, hfalse⟩ := ((meets_rxBody_closed hescape).run stream).1 _ haccept
      exact hfalse.elim
    · obtain ⟨m, hm, hsized⟩ := ((meets_rxBody r).run stream).1 _ haccept
      have hsize := hsized c rfl
      rw [Bool.toNat_true]
      omega
  revert haccept
  refine rxHandler.serve_induction
    (motive := fun r stream events => .accept c ∈ events →
      c.size ≤ stream.length + r.escapeFlag.toNat) ?_ ?_ r stream
  · intro r stream events hrun haccept
    exact hbody r stream (by rwa [show (rxBody r).run stream = _ from hrun])
  · intro r stream events r' rest later hrun ih haccept
    rcases List.mem_append.mp haccept with hnow | hlater
    · exact hbody r stream (by rwa [show (rxBody r).run stream = _ from hrun])
    · -- this repetition has read a byte, which pays for an escape byte it left open
      have hrest := rxHandler.progress r (congrArg Prod.snd hrun)
      have hsize := ih hlater
      have hflag := r'.escapeFlag.toNat_le
      omega

end Sizes

/-! ## The next frame -/

/-- What stands before a frame: noise, or an information frame whose trailer is bad,
then noise. The checksum of the frame has not been read. -/
inductive Garbage
  | noise (bytes : List UInt8) (quiet : Quiet bytes)
  | badTrailer (f : Frame) (kind : f.kind = .info) (dle2 etx : UInt8)
      (bad : ¬ (dle2 = dleVal ∧ etx = etxVal)) (after : List UInt8)
      (quiet : Quiet (f.cks :: after))

namespace Garbage

def bytes : Garbage → List UInt8
  | noise bytes _ => bytes
  | badTrailer f _ dle2 etx _ after _ => f.head ++ f.info ++ [dle2, etx] ++ f.cks :: after

/-- The bytes that are looked through for a frame. -/
def unread : Garbage → List UInt8
  | noise bytes _ => bytes
  | badTrailer f _ _ _ _ after _ => f.cks :: after

/-- What is seen of it. -/
def outcome : Garbage → List Reception
  | noise _ _ => []
  | badTrailer f _ _ _ _ _ _ => [.refuse .info, .write (nakBytes f.seq errLength)]

theorem absorbs {r : Receiver} (hidle : r.Idle) (g : Garbage) :
    ∃ events r', receptions events = g.outcome ∧ r'.packet.dle1 = dleVal ∧
      r'.escapeFlag = decide (trailingEscapes g.unread % 2 = 1) ∧
      rxHandler.Absorbs r g.bytes events r' := by
  have hlook : ∀ {r : Receiver}, r.Idle → ∀ {bytes}, Quiet bytes →
      rxHandler.Absorbs r bytes []
        { r with escapeFlag := decide (trailingEscapes bytes % 2 = 1) } := by
    intro r hidle bytes hquiet
    have habsorbs := @absorbs_noise r bytes
      (by rwa [if_neg (by rw [hidle.escape]; exact Bool.false_ne_true)])
    rwa [hidle.escape, escapeAfter_eq] at habsorbs
  cases g with
  | noise bytes hquiet =>
      exact ⟨[], { r with escapeFlag := decide (trailingEscapes bytes % 2 = 1) }, rfl,
        hidle.start, rfl, hlook hidle hquiet⟩
  | badTrailer f hkind dle2 etx hbad after hquiet =>
      obtain ⟨events, p', houtcome, hstart, hrun⟩ :=
        run_recvInfo_trailer (p := r.packet.typed stxVal) hidle.start hkind hbad
      have hframe : rxHandler.Absorbs r (f.head ++ f.info ++ [dle2, etx]) events ⟨false, p'⟩ := by
        have hsplit : f.head ++ f.info ++ [dle2, etx] = [dleVal] ++ stxVal ::
            f.seq :: f.addr0 :: f.addr1 :: f.len0 :: f.len1 :: (f.info ++ [dle2, etx]) := by
          simp [Frame.head, hkind, FrameKind.type]
        rw [hsplit]
        refine (absorbs_escape hidle.escape).append (Server.absorbs_of_run fun rest => ?_)
        change (rxBody _).run _ = _
        simpa using run_rxBody_info (r := { r with escapeFlag := true }) rfl (hrun rest)
      refine ⟨events ++ [], _, ?_, hstart, rfl,
        hframe.append (hlook (r := ⟨false, p'⟩) ⟨rfl, hstart⟩ hquiet)⟩
      rw [List.append_nil, houtcome]
      rfl

end Garbage

/-- The frame is received after the garbage, whatever follows, and nothing else is. -/
def Resyncs (r : Receiver) (g : Garbage) (f : Frame) : Prop :=
  ∀ rest, ∃ r' : Receiver, r'.Idle ∧
    receptions (rxHandler.serve r (g.bytes ++ f.bytes ++ rest)).1 =
      g.outcome ++ f.outcome ++ receptions (rxHandler.serve r' rest).1

/-- What an intact frame tells is accepted. -/
theorem Frame.accept_mem_outcome {f : Frame} (hintact : f.Intact) :
    .accept f.contents ∈ f.outcome := by
  unfold Frame.outcome
  cases f.kind <;> simp [hintact]

theorem mem_of_accept_mem_receptions {events : List SerialEvent} {c : Contents}
    (haccept : .accept c ∈ receptions events) : .accept c ∈ events := by
  obtain ⟨event, hevent, hreception⟩ := List.mem_filterMap.mp haccept
  cases event <;> simp only [SerialEvent.reception, Option.some.injEq, Reception.accept.injEq,
    reduceCtorEq] at hreception
  rwa [← hreception]

/-- After an open escape byte the beginning of a frame is not recognised. -/
theorem accept_not_mem_of_escape {r : Receiver} (hescape : r.escapeFlag = true) (f : Frame) :
    .accept f.contents ∉ receptions (rxHandler.serve r f.bytes).1 := by
  intro haccept
  have hother := @absorbs_other r dleVal (fun h => by simp [hescape] at h) (fun _ => by decide)
  obtain ⟨tail, htail⟩ : ∃ tail, f.bytes = [dleVal] ++ tail := ⟨_, rfl⟩
  have hserve := hother tail
  rw [← htail, List.nil_append] at hserve
  rw [hserve] at haccept
  have hsize := size_le_of_accept _ _ (mem_of_accept_mem_receptions haccept)
  have hlength := congrArg List.length htail
  rw [f.size_contents] at hsize
  simp at hsize hlength
  omega

/-- The next frame is received when the escape bytes right before it are even in number,
and only then. -/
theorem resyncs_iff (r : Receiver) (hidle : r.Idle) (g : Garbage) (f : Frame)
    (hintact : f.Intact) : Resyncs r g f ↔ trailingEscapes g.unread % 2 = 0 := by
  obtain ⟨events, r', houtcome, hstart, hescape, habsorbs⟩ := g.absorbs hidle
  constructor
  · intro hresyncs
    by_contra hodd
    -- nothing follows the frame, so what is left of it is too short to be accepted
    have hopen : r'.escapeFlag = true := by
      rw [hescape, decide_eq_true_eq]
      omega
    obtain ⟨r'', -, hreceived⟩ := hresyncs []
    rw [List.append_nil, habsorbs f.bytes, receptions_append, houtcome, List.append_assoc,
      List.append_cancel_left_eq] at hreceived
    apply accept_not_mem_of_escape hopen f
    rw [hreceived]
    exact List.mem_append_left _ (Frame.accept_mem_outcome hintact)
  · intro heven rest
    have hclosed : r'.escapeFlag = false := by
      rw [hescape, decide_eq_false_iff_not]
      omega
    obtain ⟨later, r'', houtcome', hidle', hframe⟩ := absorbs_frame ⟨hclosed, hstart⟩ f
    refine ⟨r'', hidle', ?_⟩
    rw [habsorbs.append hframe rest, receptions_append, receptions_append, houtcome, houtcome']

/-- A report with a bad trailer, then an ACK frame. -/
theorem resyncs_iff_report :
    let ack : Transmission := .ack Receiver.initial.packet rfl
    let report : Frame :=
      { kind := .info, seq := 0, addr0 := 0xFF, addr1 := 0xFF, len0 := 0, len1 := 10, info := [],
        cks := 0, shaped := ⟨by decide, by decide⟩ }
    let garbage : Garbage :=
      .badTrailer report rfl 0 0 (by decide) [] (List.IsChain.singleton report.cks)
    Resyncs Receiver.initial garbage ack.frame ↔ trailingEscapes garbage.unread % 2 = 0 := by
  intro ack report garbage
  exact resyncs_iff Receiver.initial Receiver.initial_idle garbage ack.frame ack.frame_intact

/-- After a single escape byte an empty report is lost. -/
theorem report_lost_after_escape :
    let packet : SerialPacket := { Receiver.initial.packet.init with len1 := 10 }
    let report : Transmission := .info
      { packet := packet, start := rfl, type := rfl, trailer := ⟨rfl, rfl⟩, length := by decide }
    let noise : Garbage := .noise [dleVal] (List.IsChain.singleton dleVal)
    report.frame.Intact ∧
      receptions (rxHandler.serve Receiver.initial (noise.bytes ++ report.bytes)).1 = [] := by
  intro packet report noise
  refine ⟨report.frame_intact, ?_⟩
  decide

end AdaptiveSignal.Serial
