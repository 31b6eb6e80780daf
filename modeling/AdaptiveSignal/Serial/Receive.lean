import AdaptiveSignal.Foundation.Reader
import AdaptiveSignal.Serial.Frame
import AdaptiveSignal.Signal.StatusUpdating

/-! # Receiving frames

The receive thread looks for an escape byte and the type that follows it, reads the
frame into its packet and answers information frames. The packet keeps the bytes of
earlier frames. Every read returns the bytes that were asked for.
-/

namespace AdaptiveSignal.Serial

open Foundation

/-- What the receive thread does. -/
inductive SerialEvent
  /-- The header of an information frame has been read. -/
  | header (packetLen : UInt16)
  /-- A received byte is stored in INFO. -/
  | store (position : ℕ)
  /-- `check_sum` reads a byte of INFO. -/
  | sum (position : ℕ)
  | accept (contents : Contents)
  | refuse (kind : FrameKind)
  /-- An answer is written to the line. -/
  | write (bytes : List UInt8)
  /-- The handlers run on the packet. -/
  | dispatch (packet : Signal.TrafficSignalPacket)
  /-- `ack_seq` is assigned. -/
  | ackSeq (seq : Int16)

abbrev Receive := Reader UInt8 SerialEvent

/-- Bytes received into INFO from an index on. -/
def SerialPacket.storeInfo (p : SerialPacket) (index : ℕ) (bytes : List UInt8) : SerialPacket :=
  { p with info := fun i =>
      if index ≤ i then (bytes[i - index]?).getD (p.info i) else p.info i }

/-- `TYPE` is set when the second byte of a frame has been read. -/
def SerialPacket.typed (p : SerialPacket) (type : UInt8) : SerialPacket := { p with type := type }

def readHeader (p : SerialPacket) : Receive SerialPacket := do
  let bytes ← Reader.receive 5
  match bytes with
  | [seq, addr0, addr1, len0, len1] =>
      return { p.clean with seq := seq, addr0 := addr0, addr1 := addr1, len0 := len0, len1 := len1 }
  | _ => return p.clean

/-- The INFO bytes are read in pieces of `VMIN_LEN` bytes; `fuel` bounds their number. -/
def readInfo (infoLen : ℕ) : ℕ → ℕ → SerialPacket → Receive SerialPacket
  | 0, _, p => pure p
  | fuel + 1, infoIndex, p =>
      if infoIndex < infoLen then do
        let infoLess := infoLen - infoIndex
        let count := if infoLess < vminLen then infoLess else vminLen
        let bytes ← Reader.receive count
        Reader.say ((List.range' infoIndex count).map .store)
        readInfo infoLen fuel (infoIndex + count) (p.storeInfo infoIndex bytes)
      else pure p

def readTrailer (p : SerialPacket) : Receive SerialPacket := do
  let bytes ← Reader.receive 2
  match bytes with
  | [dle2, etx] => return { p with dle2 := dle2, etx := etx }
  | _ => return p

def readCks (p : SerialPacket) : Receive SerialPacket := do
  let bytes ← Reader.receive 1
  match bytes with
  | [cks] => return { p with cks := cks }
  | _ => return p

/-- `error_length` does not find the trailer. -/
def SerialPacket.errorLength (p : SerialPacket) : Bool :=
  !(p.dle2 = dleVal && p.etx = etxVal)

/-- `check_sum` and `error_cks`: the checksum over so many INFO bytes is not the one
received. -/
def SerialPacket.errorCks (p : SerialPacket) (infoLen : ℕ) : Bool :=
  p.cks ≠ p.checkSum infoLen

/-- A refused information frame is answered by a NAK. -/
def refuseInfo (p : SerialPacket) (err : UInt8) : Receive SerialPacket := do
  Reader.say [.refuse .info, .write (p.sendNak err)]
  return p.refused err

/-- With the right checksum it is answered by an ACK, and the handlers run. -/
def answerInfo (infoLen : ℕ) (p : SerialPacket) : Receive SerialPacket := do
  Reader.say ((List.range infoLen).map .sum)
  if p.errorCks infoLen then refuseInfo p errCks
  else
    Reader.say [.accept (p.contents infoLen), .write p.sendAck, .dispatch ⟨p.acknowledged.info⟩]
    return p.acknowledged

/-- What follows the INFO bytes. The checksum of a frame without its trailer is not read. -/
def finishInfo (infoLen : ℕ) (p : SerialPacket) : Receive SerialPacket := do
  let p ← readTrailer p
  if p.errorLength then refuseInfo p errLength
  else
    let p ← readCks p
    answerInfo infoLen p

def recvInfo (p : SerialPacket) : Receive SerialPacket := do
  let p ← readHeader p
  Reader.say [.header p.packetLen]
  -- 16 bits, whatever LEN is
  let infoLen := (p.packetLen - 10).toNat
  let p ← readInfo infoLen infoLen 0 p
  finishInfo infoLen p

/-- The value for `ack_seq`: the SEQ of an ACK with the right checksum. -/
def answerAck (p : SerialPacket) : Receive (Int16 × SerialPacket) :=
  if p.errorCks ackInfoLen then do
    Reader.say [.refuse .ack]
    return (-1, p)
  else do
    Reader.say [.accept (p.contents ackInfoLen)]
    return (Int16.ofNat p.seq.toNat, p)

def recvAck (p : SerialPacket) : Receive (Int16 × SerialPacket) := do
  let p ← readHeader p
  let p ← readCks p
  answerAck p

def answerNak (p : SerialPacket) : Receive SerialPacket := do
  Reader.say ((List.range nakInfoLen).map .sum)
  Reader.say [if p.errorCks nakInfoLen then .refuse .nak else .accept (p.contents nakInfoLen)]
  return p

def recvNak (p : SerialPacket) : Receive SerialPacket := do
  let p ← readHeader p
  let bytes ← Reader.receive 1
  let p ← readCks (p.storeInfo 0 bytes)
  answerNak p

/-- The receive thread between two reads of its loop. -/
structure Receiver where
  escapeFlag : Bool
  packet : SerialPacket

/-- What the loop of `traffic_signal_packet_rx_handler` does with a byte. -/
def rxByte (r : Receiver) (byte : UInt8) : Receive Receiver :=
  if byte = dleVal ∧ r.escapeFlag = false then return { r with escapeFlag := true }
  else if r.escapeFlag = true ∧ byte = stxVal then do
    let p ← recvInfo (r.packet.typed stxVal)
    return { escapeFlag := false, packet := p }
  else if r.escapeFlag = true ∧ byte = ackVal then do
    let (seq, p) ← recvAck (r.packet.typed ackVal)
    Reader.say [.ackSeq seq]
    return { escapeFlag := false, packet := p }
  else if r.escapeFlag = true ∧ byte = nakVal then do
    let p ← recvNak (r.packet.typed nakVal)
    return { escapeFlag := false, packet := p }
  else return { r with escapeFlag := false }

/-- The body of the loop. -/
def rxBody (r : Receiver) : Receive Receiver := do
  let bytes ← Reader.receive 1
  rxByte r (bytes.headD 0)

def rxHandler : Server Receiver UInt8 SerialEvent where
  body := rxBody
  progress := fun _ _ _ _ hrun => Reader.run_receive_progress Nat.one_pos hrun

/-! ## Reading the parts of a frame -/

section Parts

variable (p : SerialPacket) (rest : List UInt8)

theorem run_readHeader (seq addr0 addr1 len0 len1 : UInt8) :
    (readHeader p).run (seq :: addr0 :: addr1 :: len0 :: len1 :: rest) =
      ([], some ({ p.clean with
        seq := seq, addr0 := addr0, addr1 := addr1, len0 := len0, len1 := len1 }, rest)) :=
  Reader.run_receive_bind rest _ [seq, addr0, addr1, len0, len1] rfl

theorem run_readTrailer (dle2 etx : UInt8) :
    (readTrailer p).run (dle2 :: etx :: rest) =
      ([], some ({ p with dle2 := dle2, etx := etx }, rest)) :=
  Reader.run_receive_bind rest _ [dle2, etx] rfl

theorem run_readCks (cks : UInt8) :
    (readCks p).run (cks :: rest) = ([], some ({ p with cks := cks }, rest)) :=
  Reader.run_receive_bind rest _ [cks] rfl

@[simp] theorem storeInfo_nil (index : ℕ) : p.storeInfo index [] = p := by
  simp [SerialPacket.storeInfo]

theorem storeInfo_append (index : ℕ) (bytes bytes' : List UInt8) :
    (p.storeInfo index bytes).storeInfo (index + bytes.length) bytes' =
      p.storeInfo index (bytes ++ bytes') := by
  unfold SerialPacket.storeInfo
  congr 1
  funext i
  dsimp only
  by_cases hlater : index + bytes.length ≤ i
  · have hindex : index ≤ i := by omega
    have hnone : bytes[i - index]? = none := List.getElem?_eq_none (by omega)
    rw [if_pos hlater, if_pos hindex, if_pos hindex, hnone,
      List.getElem?_append_right (by omega), Nat.sub_add_eq]
    rfl
  · rw [if_neg hlater]
    split_ifs with hindex
    · rw [List.getElem?_append_left (by omega)]
    · rfl

theorem infoBytes_storeInfo (bytes : List UInt8) :
    (p.storeInfo 0 bytes).infoBytes bytes.length = bytes := by
  apply List.ext_getElem
  · simp [SerialPacket.infoBytes]
  · intro i hi hi'
    simp [SerialPacket.infoBytes, SerialPacket.storeInfo, hi']

/-- The size of a piece. -/
theorem exists_count {infoLen index : ℕ} (hindex : index < infoLen) :
    ∃ count, (if infoLen - index < vminLen then infoLen - index else vminLen) = count ∧
      0 < count ∧ count ≤ infoLen - index := by
  refine ⟨_, rfl, ?_⟩
  unfold vminLen
  split_ifs <;> omega

/-- However it is cut, INFO is read from its index on. -/
theorem run_readInfo {infoLen fuel index : ℕ} {bytes : List UInt8}
    (hbytes : index + bytes.length = infoLen) (hfuel : bytes.length ≤ fuel) :
    (readInfo infoLen fuel index p).run (bytes ++ rest) =
      ((List.range' index bytes.length).map .store, some (p.storeInfo index bytes, rest)) := by
  induction fuel generalizing index p bytes with
  | zero =>
      obtain rfl : bytes = [] := List.eq_nil_of_length_eq_zero (by omega)
      simp [readInfo]
  | succ fuel ih =>
      unfold readInfo
      split_ifs with hindex
      · -- one piece is read and stored, the rest by the recursion
        obtain ⟨count, hcount, hpositive, hless⟩ := exists_count hindex
        have hle : count ≤ bytes.length := by omega
        have hdrop : (bytes.drop count).length = bytes.length - count := List.length_drop
        have htake : (bytes.take count).length = count := List.length_take_of_le hle
        have hnext := @ih (p.storeInfo index (bytes.take count)) (index + count)
          (bytes.drop count) (by omega) (by omega)
        have hstored := storeInfo_append p index (bytes.take count) (bytes.drop count)
        rw [htake, List.take_append_drop] at hstored
        rw [hstored] at hnext
        have hsplit : bytes ++ rest = bytes.take count ++ (bytes.drop count ++ rest) := by
          rw [← List.append_assoc, List.take_append_drop]
        dsimp only
        rw [hcount, hsplit, Reader.run_receive_bind _ _ _ htake, Reader.run_say_bind, hnext,
          ← List.map_append, List.range'_append_1, hdrop, Nat.add_sub_cancel' hle]
      · obtain rfl : bytes = [] := List.eq_nil_of_length_eq_zero (by omega)
        simp

end Parts

section PartsMeet

variable {holds : ℕ → SerialEvent → Prop} {n : ℕ} {p : SerialPacket}

theorem meets_readHeader :
    (readHeader p).Meets holds (fun m p' => m = n + 5 ∧ p'.type = p.type) n := by
  refine Reader.meets_receive_bind.mpr fun bytes _ => ?_
  split <;> exact ⟨rfl, rfl⟩

theorem meets_readTrailer : (readTrailer p).Meets holds (fun m _ => m = n + 2) n := by
  refine Reader.meets_receive_bind.mpr fun bytes _ => ?_
  split <;> rfl

theorem meets_readCks :
    (readCks p).Meets holds (fun m p' => m = n + 1 ∧ p'.type = p.type) n := by
  refine Reader.meets_receive_bind.mpr fun bytes _ => ?_
  split <;> exact ⟨rfl, rfl⟩

/-- INFO is stored at the positions below its length. -/
theorem meets_readInfo {infoLen fuel index : ℕ}
    (hstore : ∀ m, ∀ i < infoLen, holds m (.store i)) (hindex : index ≤ infoLen)
    (hfuel : infoLen - index ≤ fuel) :
    (readInfo infoLen fuel index p).Meets holds (fun m _ => m = n + (infoLen - index)) n := by
  induction fuel generalizing index p n with
  | zero =>
      change n = _
      omega
  | succ fuel ih =>
      unfold readInfo
      split_ifs with hmore
      · obtain ⟨count, hcount, hpositive, hle⟩ := exists_count hmore
        dsimp only
        rw [hcount]
        refine Reader.meets_receive_bind.mpr fun bytes _ => Reader.meets_say_bind.mpr ⟨?_, ?_⟩
        · intro event hevent
          obtain ⟨i, hi, rfl⟩ := List.mem_map.mp hevent
          rw [List.mem_range'_1] at hi
          exact hstore _ i (by omega)
        · refine (ih (by omega) (by omega)).mono ?_
          rintro m _ rfl
          omega
      · change n = _
        omega

theorem meets_finishInfo {infoLen : ℕ} (hsum : ∀ m, ∀ i < infoLen, holds m (.sum i))
    (hrefuse : ∀ m, holds m (.refuse .info)) (hwrite : ∀ m bytes, holds m (.write bytes))
    (hdispatch : ∀ m packet, holds m (.dispatch packet))
    (haccept : ∀ p : SerialPacket, holds (n + 3) (.accept (p.contents infoLen))) :
    (finishInfo infoLen p).Meets holds (fun _ _ => True) n := by
  have hanswer : ∀ m (p : SerialPacket) err,
      (refuseInfo p err).Meets holds (fun _ _ => True) m := by
    intro m p err
    refine Reader.meets_say_bind.mpr ⟨?_, trivial⟩
    intro event hevent
    simp only [List.mem_cons, List.not_mem_nil, or_false] at hevent
    rcases hevent with rfl | rfl
    · exact hrefuse m
    · exact hwrite m _
  unfold finishInfo
  refine Reader.meets_bind.mpr (meets_readTrailer.mono ?_)
  rintro m p' rfl
  split_ifs
  · exact hanswer _ _ _
  refine Reader.meets_bind.mpr (meets_readCks.mono ?_)
  rintro m p'' ⟨rfl, -⟩
  refine Reader.meets_say_bind.mpr ⟨?_, ?_⟩
  · intro event hevent
    obtain ⟨i, hi, rfl⟩ := List.mem_map.mp hevent
    exact hsum _ i (List.mem_range.mp hi)
  split_ifs
  · exact hanswer _ _ _
  refine Reader.meets_say_bind.mpr ⟨?_, trivial⟩
  intro event hevent
  simp only [List.mem_cons, List.not_mem_nil, or_false] at hevent
  rcases hevent with rfl | rfl | rfl
  · exact haccept p''
  · exact hwrite _ _
  · exact hdispatch _ _

theorem meets_recvAck (hrefuse : ∀ m, holds m (.refuse .ack))
    (haccept : ∀ p' : SerialPacket, p'.type = p.type →
      holds (n + 6) (.accept (p'.contents ackInfoLen))) :
    (recvAck p).Meets holds (fun _ _ => True) n := by
  unfold recvAck
  refine Reader.meets_bind.mpr (meets_readHeader.mono ?_)
  rintro m p' ⟨rfl, htype'⟩
  refine Reader.meets_bind.mpr (meets_readCks.mono ?_)
  rintro m p'' ⟨rfl, htype''⟩
  unfold answerAck
  split_ifs
  · refine Reader.meets_say_bind.mpr ⟨?_, trivial⟩
    rintro event (_ | ⟨_, ⟨⟩⟩)
    exact hrefuse _
  · refine Reader.meets_say_bind.mpr ⟨?_, trivial⟩
    rintro event (_ | ⟨_, ⟨⟩⟩)
    exact haccept p'' (htype''.trans htype')

theorem meets_recvNak (hsum : ∀ m, ∀ i < nakInfoLen, holds m (.sum i))
    (hrefuse : ∀ m, holds m (.refuse .nak))
    (haccept : ∀ p' : SerialPacket, p'.type = p.type →
      holds (n + 7) (.accept (p'.contents nakInfoLen))) :
    (recvNak p).Meets holds (fun _ _ => True) n := by
  unfold recvNak
  refine Reader.meets_bind.mpr (meets_readHeader.mono ?_)
  rintro m p' ⟨rfl, htype'⟩
  refine Reader.meets_receive_bind.mpr fun bytes _ => ?_
  refine Reader.meets_bind.mpr (meets_readCks.mono ?_)
  rintro m p'' ⟨rfl, htype''⟩
  unfold answerNak
  refine Reader.meets_say_bind.mpr ⟨?_, Reader.meets_say_bind.mpr ⟨?_, trivial⟩⟩
  · intro event hevent
    obtain ⟨i, hi, rfl⟩ := List.mem_map.mp hevent
    exact hsum _ i (List.mem_range.mp hi)
  · intro event hevent
    rw [List.mem_singleton.mp hevent]
    split_ifs
    · exact hrefuse _
    · exact haccept p'' (htype''.trans htype')

end PartsMeet

/-! ## What becomes of a frame -/

/-- What can be seen of the receive thread from outside. -/
inductive Reception
  | accept (contents : Contents)
  | refuse (kind : FrameKind)
  | write (bytes : List UInt8)
  | handle
  | ackSeq (seq : Int16)
  deriving DecidableEq

def SerialEvent.reception : SerialEvent → Option Reception
  | header _ => none
  | store _ => none
  | sum _ => none
  | accept contents => some (.accept contents)
  | refuse kind => some (.refuse kind)
  | write bytes => some (.write bytes)
  | dispatch _ => some .handle
  | ackSeq seq => some (.ackSeq seq)

def receptions (events : List SerialEvent) : List Reception :=
  events.filterMap SerialEvent.reception

@[simp] theorem receptions_append (events events' : List SerialEvent) :
    receptions (events ++ events') = receptions events ++ receptions events' :=
  List.filterMap_append

@[simp] theorem receptions_store (positions : List ℕ) :
    receptions (positions.map .store) = [] := by
  simp [receptions, List.filterMap_map, Function.comp_def, SerialEvent.reception]

@[simp] theorem receptions_sum (positions : List ℕ) :
    receptions (positions.map .sum) = [] := by
  simp [receptions, List.filterMap_map, Function.comp_def, SerialEvent.reception]

/-- The ACK for a packet with this SEQ and ADDR. -/
def ackBytes (seq addr0 addr1 : UInt8) : List UInt8 :=
  let head := [dleVal, ackVal, seq, addr0, addr1, 0x00, 0x08]
  head ++ [xorBytes head]

/-- The NAK for a packet with this SEQ. -/
def nakBytes (seq err : UInt8) : List UInt8 :=
  let head := [dleVal, nakVal, seq, 0xFF, 0xFF, 0x00, 0x09, err]
  head ++ [xorBytes head]

theorem sendAck_eq {p : SerialPacket} (hstart : p.dle1 = dleVal) :
    p.sendAck = ackBytes p.seq p.addr0 p.addr1 := by
  simp [SerialPacket.sendAck, SerialPacket.acknowledged, SerialPacket.clean, SerialPacket.header,
    SerialPacket.checkSum, SerialPacket.infoBytes, ackBytes, xorBytes, hstart]

theorem sendNak_eq {p : SerialPacket} (hstart : p.dle1 = dleVal) (err : UInt8) :
    p.sendNak err = nakBytes p.seq err := by
  simp [SerialPacket.sendNak, SerialPacket.refused, SerialPacket.clean, SerialPacket.header,
    SerialPacket.checkSum, SerialPacket.infoBytes, nakBytes, xorBytes, hstart, UInt8.xor_assoc]

/-- What is seen when the frame has been received. -/
def Frame.outcome (f : Frame) : List Reception :=
  match f.kind with
  | .info =>
      if f.Intact then
        [.accept f.contents, .write (ackBytes f.seq f.addr0 f.addr1), .handle]
      else [.refuse .info, .write (nakBytes f.seq errCks)]
  | .ack =>
      if f.Intact then [.accept f.contents, .ackSeq (Int16.ofNat f.seq.toNat)]
      else [.refuse .ack, .ackSeq (-1)]
  | .nak => if f.Intact then [.accept f.contents] else [.refuse .nak]

section Frames

variable {p : SerialPacket} {f : Frame} {infoLen : ℕ}

/-- The packet holds the frame as it was received. -/
structure Holds (p : SerialPacket) (f : Frame) : Prop where
  head : p.header.take 7 = f.head
  trailer : xorBytes (p.header.drop 7) = xorBytes f.kind.trailer
  info : p.infoBytes f.info.length = f.info
  cks : p.cks = f.cks

theorem Holds.errorCks (h : Holds p f) :
    p.errorCks f.info.length = true ↔ ¬ f.Intact := by
  rw [Frame.intact_iff, ← f.checkSum_eq h.head h.trailer h.info, SerialPacket.errorCks,
    decide_eq_true_eq, h.cks, ne_comm]

theorem Holds.contents (h : Holds p f) : p.contents f.info.length = f.contents := by
  have hhead := h.head
  simp only [SerialPacket.header, Frame.head, List.take, List.cons.injEq, and_true] at hhead
  obtain ⟨-, htype, hseq, haddr0, haddr1, hlen0, hlen1⟩ := hhead
  simp only [SerialPacket.contents, Frame.contents, htype, hseq, haddr0, haddr1, hlen0, hlen1,
    h.info]

theorem infoLen_of_shaped (hkind : f.kind = .info) :
    (wordOf f.len0 f.len1 - 10).toNat = f.info.length := by
  have hshaped := f.shaped
  rw [hkind] at hshaped
  simp only [FrameKind.Shaped, headerLen] at hshaped
  rw [UInt16.toNat_sub_of_le]
  · change _ - 10 = _
    omega
  · rw [UInt16.le_iff_toNat_le]
    change 10 ≤ _
    omega

theorem run_answerInfo (hkind : f.kind = .info) (hstart : p.dle1 = dleVal) (h : Holds p f) :
    ∃ events p', receptions events = f.outcome ∧ p'.dle1 = dleVal ∧ ∀ rest,
      (answerInfo f.info.length p).run rest = (events, some (p', rest)) := by
  have hhead := h.head
  simp only [SerialPacket.header, Frame.head, List.take, List.cons.injEq, and_true] at hhead
  obtain ⟨-, -, hseq, haddr0, haddr1, -, -⟩ := hhead
  unfold answerInfo Frame.outcome
  rw [hkind]
  dsimp only
  by_cases hintact : f.Intact
  · have hcks : p.errorCks f.info.length = false := by
      rw [← Bool.not_eq_true, h.errorCks]
      exact not_not_intro hintact
    rw [if_pos hintact, hcks, h.contents, sendAck_eq hstart, hseq, haddr0, haddr1]
    refine ⟨(List.range f.info.length).map .sum ++ [.accept f.contents,
      .write (ackBytes f.seq f.addr0 f.addr1), .dispatch ⟨p.acknowledged.info⟩], p.acknowledged,
      ?_, hstart, fun rest => ?_⟩
    · rw [receptions_append, receptions_sum]
      rfl
    · rw [Reader.run_say_bind, if_neg Bool.false_ne_true, Reader.run_say_bind, Reader.run_pure,
        List.append_nil]
  · rw [if_neg hintact, h.errorCks.mpr hintact]
    unfold refuseInfo
    rw [sendNak_eq hstart, hseq]
    refine ⟨(List.range f.info.length).map .sum ++
      [.refuse .info, .write (nakBytes f.seq errCks)], p.refused errCks, ?_, hstart,
      fun rest => ?_⟩
    · rw [receptions_append, receptions_sum]
      rfl
    · rw [Reader.run_say_bind, if_pos rfl, Reader.run_say_bind, Reader.run_pure, List.append_nil]

/-- The packet into which header and INFO bytes of the frame have been read. -/
def Frame.receivedInto (f : Frame) (p : SerialPacket) : SerialPacket :=
  { p.clean with
    seq := f.seq, addr0 := f.addr0, addr1 := f.addr1, len0 := f.len0, len1 := f.len1
  }.storeInfo 0 f.info

/-- With its trailer, if it has one, and its checksum the packet holds the frame. -/
theorem holds_received (hstart : p.dle1 = dleVal) (htype : p.type = f.kind.type)
    {dle2 etx : UInt8} (htrailer : xorBytes [dle2, etx] = xorBytes f.kind.trailer) :
    Holds { f.receivedInto p with dle2 := dle2, etx := etx, cks := f.cks } f where
  head := by
    simp [Frame.receivedInto, SerialPacket.header, SerialPacket.storeInfo, SerialPacket.clean,
      Frame.head, hstart, htype]
  trailer := htrailer
  info := infoBytes_storeInfo _ f.info
  cks := rfl

/-- Header and INFO bytes are read before anything is decided. -/
theorem run_recvInfo_start (hkind : f.kind = .info) (stream : List UInt8) :
    (recvInfo p).run (f.seq :: f.addr0 :: f.addr1 :: f.len0 :: f.len1 :: (f.info ++ stream)) =
      ([.header (wordOf f.len0 f.len1)] ++ ((List.range' 0 f.info.length).map .store ++
          ((finishInfo f.info.length (f.receivedInto p)).run stream).1),
        ((finishInfo f.info.length (f.receivedInto p)).run stream).2) := by
  unfold recvInfo
  rw [Reader.run_bind_some _ (run_readHeader p _ _ _ _ _ _), List.nil_append, Reader.run_say_bind]
  unfold SerialPacket.packetLen
  rw [infoLen_of_shaped hkind,
    Reader.run_bind_some _ (run_readInfo _ _ (Nat.zero_add _) (Nat.le_refl _))]
  rfl

theorem receptions_start (packetLen : UInt16) (positions : List ℕ) (events : List SerialEvent) :
    receptions ([.header packetLen] ++ (positions.map .store ++ events)) = receptions events := by
  rw [receptions_append, receptions_append, receptions_store]
  rfl

/-- An information frame is accepted and answered, or refused. -/
theorem run_recvInfo (hstart : p.dle1 = dleVal) (htype : p.type = stxVal)
    (hkind : f.kind = .info) :
    ∃ events p', receptions events = f.outcome ∧ p'.dle1 = dleVal ∧ ∀ rest,
      (recvInfo p).run (f.seq :: f.addr0 :: f.addr1 :: f.len0 :: f.len1 ::
          (f.info ++ dleVal :: etxVal :: f.cks :: rest)) = (events, some (p', rest)) := by
  obtain ⟨full, hfull⟩ : ∃ q, q = { f.receivedInto p with
      dle2 := dleVal, etx := etxVal, cks := f.cks } := ⟨_, rfl⟩
  have hholds : Holds full f := by
    rw [hfull]
    exact holds_received hstart (by rw [htype, hkind]; rfl) (by rw [hkind]; rfl)
  obtain ⟨events, p', houtcome, hstart', hrun⟩ :=
    run_answerInfo hkind (by rw [hfull]; exact hstart) hholds
  refine ⟨_, p', (receptions_start (wordOf f.len0 f.len1) (List.range' 0 f.info.length)
    events).trans houtcome, hstart', fun rest => ?_⟩
  have hfinish : (finishInfo f.info.length (f.receivedInto p)).run
      (dleVal :: etxVal :: f.cks :: rest) = (events, some (p', rest)) := by
    unfold finishInfo
    rw [Reader.run_bind_some _ (run_readTrailer _ _ dleVal etxVal), List.nil_append, if_neg]
    · rw [Reader.run_bind_some _ (run_readCks _ _ f.cks), List.nil_append, ← hrun rest, hfull]
    · simp [SerialPacket.errorLength]
  rw [run_recvInfo_start hkind, hfinish]

/-- Without its trailer an information frame is refused, and its checksum not read. -/
theorem run_recvInfo_trailer (hstart : p.dle1 = dleVal) (hkind : f.kind = .info)
    {dle2 etx : UInt8} (hbad : ¬ (dle2 = dleVal ∧ etx = etxVal)) :
    ∃ events p', receptions events = [.refuse .info, .write (nakBytes f.seq errLength)] ∧
      p'.dle1 = dleVal ∧ ∀ rest,
        (recvInfo p).run (f.seq :: f.addr0 :: f.addr1 :: f.len0 :: f.len1 ::
            (f.info ++ dle2 :: etx :: rest)) = (events, some (p', rest)) := by
  obtain ⟨full, hfull⟩ : ∃ q, q = { f.receivedInto p with dle2 := dle2, etx := etx } := ⟨_, rfl⟩
  have hstart' : full.dle1 = dleVal := by
    rw [hfull]
    exact hstart
  have hseq : full.seq = f.seq := by
    rw [hfull]
    rfl
  refine ⟨_, full.refused errLength, receptions_start (wordOf f.len0 f.len1)
    (List.range' 0 f.info.length) [.refuse .info, .write (nakBytes f.seq errLength)], hstart',
    fun rest => ?_⟩
  have hfinish : (finishInfo f.info.length (f.receivedInto p)).run (dle2 :: etx :: rest) =
      ([.refuse .info, .write (nakBytes f.seq errLength)],
        some (full.refused errLength, rest)) := by
    have herror : full.errorLength = true := by
      rw [SerialPacket.errorLength, hfull]
      simpa [imp_iff_not_or] using hbad
    unfold finishInfo
    rw [Reader.run_bind_some _ (run_readTrailer _ _ dle2 etx), List.nil_append, ← hfull,
      if_pos herror, refuseInfo, sendNak_eq hstart', hseq]
    rfl
  rw [run_recvInfo_start hkind, hfinish]

theorem length_info_ack (hkind : f.kind = .ack) : f.info.length = ackInfoLen := by
  have hshaped := f.shaped
  rwa [hkind] at hshaped

theorem length_info_nak (hkind : f.kind = .nak) : f.info.length = nakInfoLen := by
  have hshaped := f.shaped
  rwa [hkind] at hshaped

/-- The SEQ of an accepted ACK frame goes to `ack_seq`, a refused one makes it `-1`. -/
theorem run_recvAck (hstart : p.dle1 = dleVal) (htype : p.type = ackVal)
    (hkind : f.kind = .ack) :
    ∃ events seq p', receptions (events ++ [.ackSeq seq]) = f.outcome ∧ p'.dle1 = dleVal ∧
      ∀ rest, (recvAck p).run (f.seq :: f.addr0 :: f.addr1 :: f.len0 :: f.len1 ::
          (f.info ++ f.cks :: rest)) = (events, some ((seq, p'), rest)) := by
  have hlength := length_info_ack hkind
  have hnone := List.eq_nil_of_length_eq_zero hlength
  obtain ⟨full, hfull⟩ : ∃ q, q = { f.receivedInto p with
      dle2 := 0, etx := 0, cks := f.cks } := ⟨_, rfl⟩
  have hholds : Holds full f := by
    rw [hfull]
    exact holds_received hstart (by rw [htype, hkind]; rfl) (by rw [hkind]; exact xorBytes_cleaned)
  have herror := hholds.errorCks
  have hcontents := hholds.contents
  rw [hlength] at herror hcontents
  have hseq : full.seq = f.seq := by
    rw [hfull]
    rfl
  have hread : ∀ rest, (recvAck p).run (f.seq :: f.addr0 :: f.addr1 :: f.len0 :: f.len1 ::
      (f.info ++ f.cks :: rest)) = (answerAck full).run rest := by
    intro rest
    -- an ACK has no INFO bytes
    unfold recvAck
    rw [hfull, Frame.receivedInto, hnone, storeInfo_nil,
      Reader.run_bind_some _ (run_readHeader p _ _ _ _ _ _), List.nil_append, List.nil_append,
      Reader.run_bind_some _ (run_readCks _ _ f.cks), List.nil_append]
    rfl
  unfold Frame.outcome
  rw [hkind]
  dsimp only
  have hstart' : full.dle1 = dleVal := by
    rw [hfull]
    exact hstart
  by_cases hintact : f.Intact
  · refine ⟨[.accept f.contents], Int16.ofNat f.seq.toNat, full, ?_, hstart', fun rest => ?_⟩
    · rw [if_pos hintact]
      rfl
    · rw [hread, answerAck, if_neg (mt herror.mp (not_not_intro hintact)), hcontents, hseq]
      rfl
  · refine ⟨[.refuse .ack], -1, full, ?_, hstart', fun rest => ?_⟩
    · rw [if_neg hintact]
      rfl
    · rw [hread, answerAck, if_pos (herror.mpr hintact)]
      rfl

/-- A NAK frame is accepted or refused, without an answer. -/
theorem run_recvNak (hstart : p.dle1 = dleVal) (htype : p.type = nakVal)
    (hkind : f.kind = .nak) :
    ∃ events p', receptions events = f.outcome ∧ p'.dle1 = dleVal ∧
      ∀ rest, (recvNak p).run (f.seq :: f.addr0 :: f.addr1 :: f.len0 :: f.len1 ::
          (f.info ++ f.cks :: rest)) = (events, some (p', rest)) := by
  have hlength := length_info_nak hkind
  obtain ⟨full, hfull⟩ : ∃ q, q = { f.receivedInto p with
      dle2 := 0, etx := 0, cks := f.cks } := ⟨_, rfl⟩
  have hholds : Holds full f := by
    rw [hfull]
    exact holds_received hstart (by rw [htype, hkind]; rfl) (by rw [hkind]; exact xorBytes_cleaned)
  have herror := hholds.errorCks
  have hcontents := hholds.contents
  rw [hlength] at herror hcontents
  have hread : ∀ rest, (recvNak p).run (f.seq :: f.addr0 :: f.addr1 :: f.len0 :: f.len1 ::
      (f.info ++ f.cks :: rest)) = (answerNak full).run rest := by
    intro rest
    unfold recvNak
    rw [Reader.run_bind_some _ (run_readHeader p _ _ _ _ _ _), List.nil_append,
      Reader.run_receive_bind _ _ _ hlength,
      Reader.run_bind_some _ (run_readCks _ _ f.cks), List.nil_append, hfull]
    rfl
  refine ⟨(List.range nakInfoLen).map .sum ++
    [if full.errorCks nakInfoLen then .refuse .nak else .accept f.contents], full, ?_, ?_,
    fun rest => ?_⟩
  · unfold Frame.outcome
    rw [hkind, receptions_append, receptions_sum]
    dsimp only
    by_cases hintact : f.Intact
    · rw [if_pos hintact, if_neg (mt herror.mp (not_not_intro hintact))]
      rfl
    · rw [if_neg hintact, if_pos (herror.mpr hintact)]
      rfl
  · rw [hfull]
    exact hstart
  · rw [hread, answerNak, hcontents, Reader.run_say_bind, Reader.run_say_bind, Reader.run_pure,
      List.append_nil]

end Frames

/-! ## The receive thread -/

/-- No frame has begun. -/
structure Receiver.Idle (r : Receiver) : Prop where
  escape : r.escapeFlag = false
  start : r.packet.dle1 = dleVal

/-- The thread as it starts. -/
def Receiver.initial : Receiver where
  escapeFlag := false
  packet := {
    cks := 0, dle1 := dleVal, type := 0, seq := 0, addr0 := 0, addr1 := 0, len0 := 0, len1 := 0,
    dle2 := 0, etx := 0, info := fun _ => 0 }

theorem Receiver.initial_idle : Receiver.initial.Idle := ⟨rfl, rfl⟩

section Body

variable {r : Receiver}

theorem run_rxBody (byte : UInt8) (rest : List UInt8) :
    (rxBody r).run (byte :: rest) = (rxByte r byte).run rest :=
  Reader.run_receive_bind rest _ [byte] rfl

theorem run_rxBody_nil : (rxBody r).run [] = ([], none) :=
  Reader.run_receive_bind_of_lt [] _ Nat.one_pos

/-- The byte a frame begins with. -/
theorem absorbs_escape (hescape : r.escapeFlag = false) :
    rxHandler.Absorbs r [dleVal] [] { r with escapeFlag := true } := by
  apply Server.absorbs_of_run
  intro rest
  change (rxBody r).run (dleVal :: rest) = _
  rw [run_rxBody, rxByte, if_pos ⟨rfl, hescape⟩]
  rfl

/-- A byte that neither begins a frame nor gives its type. -/
theorem absorbs_other {byte : UInt8} (hdle : ¬ (byte = dleVal ∧ r.escapeFlag = false))
    (htype : r.escapeFlag = true → byte ≠ stxVal ∧ byte ≠ ackVal ∧ byte ≠ nakVal) :
    rxHandler.Absorbs r [byte] [] { r with escapeFlag := false } := by
  apply Server.absorbs_of_run
  intro rest
  change (rxBody r).run (byte :: rest) = _
  rw [run_rxBody, rxByte, if_neg hdle, if_neg fun h => (htype h.1).1 h.2,
    if_neg fun h => (htype h.1).2.1 h.2, if_neg fun h => (htype h.1).2.2 h.2]
  rfl

section FrameTypes

variable {events : List SerialEvent} {p' : SerialPacket} {stream rest : List UInt8}
  (hescape : r.escapeFlag = true)

include hescape

theorem run_rxBody_info
    (hrun : (recvInfo (r.packet.typed stxVal)).run stream = (events, some (p', rest))) :
    (rxBody r).run (stxVal :: stream) = (events, some (⟨false, p'⟩, rest)) := by
  rw [run_rxBody, rxByte, if_neg fun h => absurd h.1 (by decide), if_pos ⟨hescape, rfl⟩,
    Reader.run_bind_some _ hrun, Reader.run_pure, List.append_nil]

theorem run_rxBody_ack {seq : Int16}
    (hrun : (recvAck (r.packet.typed ackVal)).run stream = (events, some ((seq, p'), rest))) :
    (rxBody r).run (ackVal :: stream) =
      (events ++ [.ackSeq seq], some (⟨false, p'⟩, rest)) := by
  rw [run_rxBody, rxByte, if_neg fun h => absurd h.1 (by decide),
    if_neg fun h => absurd h.2 (by decide), if_pos ⟨hescape, rfl⟩,
    Reader.run_bind_some _ hrun, Reader.run_say_bind, Reader.run_pure, List.append_nil]

theorem run_rxBody_nak
    (hrun : (recvNak (r.packet.typed nakVal)).run stream = (events, some (p', rest))) :
    (rxBody r).run (nakVal :: stream) = (events, some (⟨false, p'⟩, rest)) := by
  rw [run_rxBody, rxByte, if_neg fun h => absurd h.1 (by decide),
    if_neg fun h => absurd h.2 (by decide), if_neg fun h => absurd h.2 (by decide),
    if_pos ⟨hescape, rfl⟩, Reader.run_bind_some _ hrun, Reader.run_pure, List.append_nil]

end FrameTypes

/-- A frame is taken in when its type and what follows it are, after the escape byte. -/
theorem absorbs_of_type (hidle : r.Idle) (f : Frame) {events : List SerialEvent} {r' : Receiver}
    (hrun : ∀ rest, (rxBody { r with escapeFlag := true }).run
      (f.kind.type :: f.seq :: f.addr0 :: f.addr1 :: f.len0 :: f.len1 ::
        (f.info ++ (f.kind.trailer ++ f.cks :: rest))) = (events, some (r', rest))) :
    rxHandler.Absorbs r f.bytes events r' := by
  have hsplit : f.bytes = [dleVal] ++ f.kind.type ::
      f.seq :: f.addr0 :: f.addr1 :: f.len0 :: f.len1 ::
        (f.info ++ f.kind.trailer ++ [f.cks]) := by
    simp [Frame.bytes, Frame.head]
  rw [hsplit]
  refine (absorbs_escape hidle.escape).append (Server.absorbs_of_run fun rest => ?_)
  rw [← hrun rest]
  simp [rxHandler]

/-- A frame that begins when none has is received, with its outcome. -/
theorem absorbs_frame (hidle : r.Idle) (f : Frame) :
    ∃ events r', receptions events = f.outcome ∧ r'.Idle ∧
      rxHandler.Absorbs r f.bytes events r' := by
  cases hkind : f.kind with
  | info =>
      obtain ⟨events, p', houtcome, hstart, hrun⟩ :=
        run_recvInfo (p := r.packet.typed stxVal) hidle.start rfl hkind
      refine ⟨events, ⟨false, p'⟩, houtcome, ⟨rfl, hstart⟩, absorbs_of_type hidle f fun rest => ?_⟩
      rw [hkind]
      exact run_rxBody_info rfl (hrun rest)
  | ack =>
      obtain ⟨events, seq, p', houtcome, hstart, hrun⟩ :=
        run_recvAck (p := r.packet.typed ackVal) hidle.start rfl hkind
      refine ⟨events ++ [.ackSeq seq], ⟨false, p'⟩, houtcome, ⟨rfl, hstart⟩,
        absorbs_of_type hidle f fun rest => ?_⟩
      rw [hkind]
      exact run_rxBody_ack rfl (hrun rest)
  | nak =>
      obtain ⟨events, p', houtcome, hstart, hrun⟩ :=
        run_recvNak (p := r.packet.typed nakVal) hidle.start rfl hkind
      refine ⟨events, ⟨false, p'⟩, houtcome, ⟨rfl, hstart⟩, absorbs_of_type hidle f fun rest => ?_⟩
      rw [hkind]
      exact run_rxBody_nak rfl (hrun rest)

end Body

end AdaptiveSignal.Serial
