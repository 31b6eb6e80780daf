import AdaptiveSignal.Foundation.Run
import AdaptiveSignal.Network.ClientBuffer
import Mathlib.Data.List.Forall2
import Mathlib.Data.List.TakeDrop

/-! # Reassembling the packets of a TCP stream

A cloud packet starts with its length. The receive automaton of a TCP client
reads the first bytes of a packet into its buffer, takes the length from them,
and asks for the bytes that are missing until it has as many as announced. Every
readable event calls it once; the stream is cut into the results of these calls
in any way.
-/

namespace AdaptiveSignal.Network

open Foundation

def handleMsgLen : ℕ := 25600

/-- The length that the first four bytes announce, the most significant first. -/
def aeRetrievePacketLen (packet : ℕ → UInt8) : ℕ :=
  (packet 0).toNat * 2 ^ 24 + (packet 1).toNat * 2 ^ 16 + (packet 2).toNat * 2 ^ 8 +
    (packet 3).toNat

/-- `a - b` in a `size_t`. -/
def sizeSub (a b : ℕ) : ℕ := (a + 2 ^ 64 - b) % 2 ^ 64

/-- A queued message, and the length that the receive function returned for it. -/
structure CloudMsg where
  obj : MsgObj
  received : ℕ

/-- The TCP handle and the read buffer of a client, the bytes of the stream that
are not yet read, and what has come of the calls so far. -/
structure TcpClient where
  curMsgLen : ℕ
  expectedMsgLen : ℕ
  isPending : Bool
  buff : ℕ → UInt8
  size : ℕ
  comId : ℕ
  unread : List UInt8
  enqueued : List CloudMsg
  closed : Bool
  /-- Some `recv` was asked to write beyond the read buffer. -/
  overrun : Bool

inductive RecvOutcome
  | done (length : ℕ)
  | notDone
  | err

namespace TcpClient

/-- Bytes received into the buffer from an offset on. -/
def store (buff : ℕ → UInt8) (offset : ℕ) (chunk : List UInt8) (i : ℕ) : UInt8 :=
  if offset ≤ i then (chunk[i - offset]?).getD (buff i) else buff i

/-- `recv` of at most `len` bytes to an offset of the buffer, when `arrived` bytes are there. -/
def recv (c : TcpClient) (arrived offset len : ℕ) : List UInt8 × TcpClient :=
  let chunk := c.unread.take (min arrived len)
  (chunk, { c with
    buff := store c.buff offset chunk
    unread := c.unread.drop chunk.length
    overrun := c.overrun || decide (handleMsgLen < offset + len) })

def tcpHandleRecvInit (c : TcpClient) : TcpClient :=
  { c with buff := fun _ => 0, expectedMsgLen := 0, curMsgLen := 0, isPending := true }

def tcpRecvIsDone (c : TcpClient) : Bool :=
  if c.expectedMsgLen = 0 then false
  else if handleMsgLen < c.curMsgLen then false
  else c.expectedMsgLen = c.curMsgLen

/-- The end of `tcp_recv`. -/
def tcpRecvResult (c : TcpClient) : RecvOutcome × TcpClient :=
  if c.tcpRecvIsDone then (.done c.expectedMsgLen, { c with isPending := false })
  else (.notDone, c)

def tcpRecv (c : TcpClient) (arrived : ℕ) : RecvOutcome × TcpClient :=
  if c.isPending then
    let remain := sizeSub c.expectedMsgLen c.curMsgLen
    let (chunk, c) := c.recv arrived c.curMsgLen remain
    if chunk = [] then (.err, c)
    else tcpRecvResult { c with curMsgLen := (c.curMsgLen + chunk.length) % 2 ^ 64 }
  else
    let (chunk, c) := c.tcpHandleRecvInit.recv arrived 0 handleMsgLen
    tcpRecvResult { c with
      expectedMsgLen := aeRetrievePacketLen c.buff, curMsgLen := chunk.length }

/-- `comm_packet_enqueue`; the message takes its length from the read buffer. -/
def enqueue (c : TcpClient) (received : ℕ) : TcpClient :=
  let obj := msgObjCreate ⟨c.buff, c.size⟩ fromCloud (UInt8.ofNat c.comId)
  { c with enqueued := c.enqueued ++ [⟨obj, received⟩] }

def connReadFromClientTCP (c : TcpClient) (arrived : ℕ) : TcpClient :=
  match c.tcpRecv arrived with
  | (.done length, c) => c.enqueue length
  | (.notDone, c) => c
  | (.err, c) => { c with closed := true }

/-- A readable event, when so many bytes and one more have arrived. Without
bytes to read there is none, nor after the connection is closed. -/
def step (c : TcpClient) (arrived : ℕ) : TcpClient :=
  if c.closed ∨ c.unread = [] then c else c.connReadFromClientTCP (arrived + 1)

/-- A client just accepted, and all that its peer is going to send. -/
def initial (comId : ℕ) (stream : List UInt8) : TcpClient where
  curMsgLen := 0
  expectedMsgLen := 0
  isPending := false
  buff := fun _ => 0
  size := 0
  comId := comId
  unread := stream
  enqueued := []
  closed := false
  overrun := false

end TcpClient

/-! ## Packets -/

/-- A packet that announces its own length, within the read buffer. -/
structure CloudPacket where
  bytes : List UInt8
  announced : aeRetrievePacketLen (bytes.getD · 0) = bytes.length
  min_length : 4 ≤ bytes.length
  max_length : bytes.length ≤ handleMsgLen

/-- The bytes of a message as far as the receive function reported them. -/
def CloudMsg.reported (m : CloudMsg) : List UInt8 := (List.range m.received).map m.obj.msg

/-- The packets as the stream carries them. -/
def streamOf (packets : List CloudPacket) : List UInt8 :=
  packets.flatMap CloudPacket.bytes

namespace TcpClient

variable {c : TcpClient} {arrived : ℕ}

/-! ## One call -/

/-- What the receive function reported of the queued messages. -/
def reported (c : TcpClient) : List (List UInt8) :=
  c.enqueued.map CloudMsg.reported

/-- What follows a call that received something: a complete message is queued. -/
def settle (c : TcpClient) : TcpClient :=
  if c.tcpRecvIsDone then { c with isPending := false }.enqueue c.expectedMsgLen else c

/-- The first chunk of a message. -/
def firstChunk (c : TcpClient) (arrived : ℕ) : List UInt8 :=
  c.unread.take (min (arrived + 1) handleMsgLen)

/-- A further chunk of a message. -/
def nextChunk (c : TcpClient) (arrived : ℕ) : List UInt8 :=
  c.unread.take (min (arrived + 1) (sizeSub c.expectedMsgLen c.curMsgLen))

/-- The client before the completion test of its first call for a message. -/
def begun (c : TcpClient) (chunk : List UInt8) : TcpClient :=
  { c with
    buff := (chunk.getD · 0)
    unread := c.unread.drop chunk.length
    isPending := true
    expectedMsgLen := aeRetrievePacketLen (chunk.getD · 0)
    curMsgLen := chunk.length }

/-- The client before the completion test of a further call. -/
def continued (c : TcpClient) (chunk : List UInt8) : TcpClient :=
  { c with
    buff := store c.buff c.curMsgLen chunk
    unread := c.unread.drop chunk.length
    overrun := c.overrun ||
      decide (handleMsgLen < c.curMsgLen + sizeSub c.expectedMsgLen c.curMsgLen)
    curMsgLen := (c.curMsgLen + chunk.length) % 2 ^ 64 }

section Fields

variable {chunk : List UInt8}

@[simp] theorem continued_closed : (c.continued chunk).closed = c.closed := rfl

@[simp] theorem continued_isPending : (c.continued chunk).isPending = c.isPending := rfl

@[simp] theorem continued_enqueued : (c.continued chunk).enqueued = c.enqueued := rfl

@[simp] theorem continued_size : (c.continued chunk).size = c.size := rfl

@[simp] theorem continued_expected :
    (c.continued chunk).expectedMsgLen = c.expectedMsgLen := rfl

@[simp] theorem continued_unread :
    (c.continued chunk).unread = c.unread.drop chunk.length := rfl

@[simp] theorem begun_cur : (c.begun chunk).curMsgLen = chunk.length := rfl

@[simp] theorem begun_expected :
    (c.begun chunk).expectedMsgLen = aeRetrievePacketLen (chunk.getD · 0) := rfl

/-- A further call notices whether its `recv` was asked to write beyond the buffer. -/
theorem continued_overrun : (c.continued chunk).overrun = (c.overrun ||
    decide (handleMsgLen < c.curMsgLen + sizeSub c.expectedMsgLen c.curMsgLen)) := rfl

theorem continued_reported : (c.continued chunk).reported = c.reported := by
  simp only [TcpClient.reported, continued_enqueued]

end Fields

theorem tcpRecvIsDone_iff : c.tcpRecvIsDone = true ↔
    c.expectedMsgLen ≠ 0 ∧ c.curMsgLen ≤ handleMsgLen ∧ c.expectedMsgLen = c.curMsgLen := by
  unfold tcpRecvIsDone
  split_ifs with hzero hmax
  · simp [hzero]
  · simp [hzero, Nat.not_le.mpr hmax]
  · simp [hzero, Nat.not_lt.mp hmax]

theorem settle_unfinished (h : c.expectedMsgLen = 0 ∨ c.expectedMsgLen ≠ c.curMsgLen) :
    c.settle = c := by
  refine if_neg fun hdone => ?_
  obtain ⟨hzero, -, heq⟩ := tcpRecvIsDone_iff.mp hdone
  exact h.elim hzero (fun hne => hne heq)

theorem settle_finished (hzero : c.expectedMsgLen ≠ 0) (hmax : c.curMsgLen ≤ handleMsgLen)
    (heq : c.expectedMsgLen = c.curMsgLen) :
    c.settle = { c with isPending := false }.enqueue c.expectedMsgLen :=
  if_pos (tcpRecvIsDone_iff.mpr ⟨hzero, hmax, heq⟩)

theorem store_zero (chunk : List UInt8) :
    store (fun _ => 0) 0 chunk = (chunk.getD · 0) := by
  funext i
  simp [store, List.getD_eq_getElem?_getD]

theorem step_idle (hclosed : c.closed = false) (hunread : c.unread ≠ [])
    (hpending : c.isPending = false) :
    c.step arrived = (c.begun (c.firstChunk arrived)).settle := by
  simp only [step, hclosed, hunread, Bool.false_eq_true, or_self, if_false,
    connReadFromClientTCP, tcpRecv, hpending, recv, tcpHandleRecvInit, tcpRecvResult, settle,
    store_zero, firstChunk, begun]
  simp only [Nat.zero_add, Nat.lt_irrefl, decide_false, Bool.or_false]
  split_ifs <;> rfl

theorem step_pending (hclosed : c.closed = false) (hunread : c.unread ≠ [])
    (hpending : c.isPending = true) (hchunk : c.nextChunk arrived ≠ []) :
    c.step arrived = (c.continued (c.nextChunk arrived)).settle := by
  simp only [nextChunk] at hchunk
  simp only [step, hclosed, hunread, Bool.false_eq_true, or_self, if_false,
    connReadFromClientTCP, tcpRecv, hpending, if_true, recv, hchunk, tcpRecvResult, settle,
    nextChunk, continued]
  split_ifs <;> rfl

theorem step_stays (h : c.closed = true ∨ c.unread = []) : c.step arrived = c := by
  simp [step, h]

/-- A `recv` without a chunk closes the connection. -/
theorem step_stuck (hclosed : c.closed = false) (hunread : c.unread ≠ [])
    (hpending : c.isPending = true) (hchunk : c.nextChunk arrived = []) :
    c.step arrived = { c.continued [] with curMsgLen := c.curMsgLen, closed := true } := by
  simp only [nextChunk] at hchunk
  simp [step, hclosed, hunread, connReadFromClientTCP, tcpRecv, hpending, recv, hchunk,
    continued]

/-- What one readable event can do. -/
inductive RecvMove (c : TcpClient) (arrived : ℕ) : TcpClient → Prop
  | stays (hidle : c.closed = true ∨ c.unread = []) : RecvMove c arrived c
  | begins (hclosed : c.closed = false) (hunread : c.unread ≠ []) (hpending : c.isPending = false) :
      RecvMove c arrived (c.begun (c.firstChunk arrived)).settle
  | closes (hclosed : c.closed = false) (hunread : c.unread ≠ []) (hpending : c.isPending = true)
      (hchunk : c.nextChunk arrived = []) :
      RecvMove c arrived { c.continued [] with curMsgLen := c.curMsgLen, closed := true }
  | continues (hclosed : c.closed = false) (hunread : c.unread ≠ [])
      (hpending : c.isPending = true) (hchunk : c.nextChunk arrived ≠ []) :
      RecvMove c arrived (c.continued (c.nextChunk arrived)).settle

theorem recvMove (c : TcpClient) (arrived : ℕ) : RecvMove c arrived (c.step arrived) := by
  by_cases hidle : c.closed = true ∨ c.unread = []
  · rw [step_stays hidle]
    exact .stays hidle
  · rw [not_or, Bool.not_eq_true] at hidle
    obtain ⟨hclosed, hunread⟩ := hidle
    cases hpending : c.isPending with
    | false =>
        rw [step_idle hclosed hunread hpending]
        exact .begins hclosed hunread hpending
    | true =>
        by_cases hchunk : c.nextChunk arrived = []
        · rw [step_stuck hclosed hunread hpending hchunk]
          exact .closes hclosed hunread hpending hchunk
        · rw [step_pending hclosed hunread hpending hchunk]
          exact .continues hclosed hunread hpending hchunk

/-! ## What a first chunk announces -/

section Header

variable (packet : CloudPacket) (more : List UInt8) (r : ℕ)

/-- A byte of the header, in a chunk that may be too short for it. -/
theorem header_take {i : ℕ} (hi : i < 4) :
    (((packet.bytes ++ more).take r).getD i 0).toNat =
      if i < r then (packet.bytes.getD i 0).toNat else 0 := by
  have hlength := packet.min_length
  rw [List.getD_eq_getElem?_getD, List.getD_eq_getElem?_getD, List.getElem?_take,
    List.getElem?_append_left (by omega)]
  split_ifs <;> rfl

/-- The first two bytes of a packet that fits the buffer are 0. -/
theorem header_bytes :
    (packet.bytes.getD 0 0).toNat = 0 ∧ (packet.bytes.getD 1 0).toNat = 0 ∧
      (packet.bytes.getD 2 0).toNat * 2 ^ 8 + (packet.bytes.getD 3 0).toNat =
        packet.bytes.length := by
  have hmax := packet.max_length
  have hannounced := packet.announced
  have hlast := (packet.bytes.getD 3 0).toNat_lt
  simp only [aeRetrievePacketLen, handleMsgLen] at hmax hannounced
  omega

/-- The length that a chunk of so many bytes announces. -/
theorem announced_take :
    aeRetrievePacketLen (((packet.bytes ++ more).take r).getD · 0) =
      (if 2 < r then (packet.bytes.getD 2 0).toNat else 0) * 2 ^ 8 +
        if 3 < r then (packet.bytes.getD 3 0).toNat else 0 := by
  obtain ⟨hzero, hone, -⟩ := header_bytes packet
  rw [aeRetrievePacketLen, header_take packet more r (show 0 < 4 by omega),
    header_take packet more r (show 1 < 4 by omega),
    header_take packet more r (show 2 < 4 by omega),
    header_take packet more r (show 3 < 4 by omega), hzero, hone]
  simp only [ite_self, Nat.zero_mul, Nat.zero_add]

/-- With the whole header in the chunk, the length is the packet's. -/
theorem announced_of_four (hr : 4 ≤ r) :
    aeRetrievePacketLen (((packet.bytes ++ more).take r).getD · 0) = packet.bytes.length := by
  rw [announced_take, if_pos (by omega), if_pos (by omega)]
  exact (header_bytes packet).2.2

/-- Three bytes announce the packet's length without its last byte. -/
theorem announced_of_three :
    aeRetrievePacketLen (((packet.bytes ++ more).take 3).getD · 0) =
      packet.bytes.length - packet.bytes.length % 256 := by
  have hlast := (packet.bytes.getD 3 0).toNat_lt
  rw [announced_take, if_pos (by omega), if_neg (by omega), ← (header_bytes packet).2.2]
  generalize (packet.bytes.getD 2 0).toNat = high at *
  generalize (packet.bytes.getD 3 0).toNat = low at *
  omega

/-- Fewer bytes announce 0. -/
theorem announced_of_fewer (hr : r < 3) :
    aeRetrievePacketLen (((packet.bytes ++ more).take r).getD · 0) = 0 := by
  rw [announced_take, if_neg (by omega), if_neg (by omega), Nat.zero_mul]

/-- The stream itself announces the packet's length. -/
theorem announced_stream :
    aeRetrievePacketLen ((packet.bytes ++ more).getD · 0) = packet.bytes.length := by
  have hlength := packet.min_length
  have hall := announced_of_four packet more (packet.bytes ++ more).length
    (by rw [List.length_append]; omega)
  rwa [List.take_length] at hall

end Header

/-! ## Clients in step with the stream -/

/-- Between two packets. -/
structure Idle (c : TcpClient) (sent rest : List CloudPacket) : Prop where
  closed : c.closed = false
  overrun : c.overrun = false
  isPending : c.isPending = false
  reported : c.reported = sent.map CloudPacket.bytes
  unread : c.unread = streamOf rest

/-- Within a packet, some bytes of which are in the buffer. -/
structure Receiving (c : TcpClient) (sent : List CloudPacket) (packet : CloudPacket)
    (rest : List CloudPacket) : Prop where
  closed : c.closed = false
  overrun : c.overrun = false
  isPending : c.isPending = true
  reported : c.reported = sent.map CloudPacket.bytes
  expected : c.expectedMsgLen = packet.bytes.length
  started : 0 < c.curMsgLen
  unfinished : c.curMsgLen < packet.bytes.length
  unread : c.unread = packet.bytes.drop c.curMsgLen ++ streamOf rest
  buff : ∀ i < c.curMsgLen, c.buff i = packet.bytes.getD i 0

/-- The client has queued the packets before some place of the stream and reads on from there. -/
inductive Sound (packets : List CloudPacket) (c : TcpClient) : Prop
  | idle (sent rest : List CloudPacket) (hpackets : packets = sent ++ rest)
      (h : c.Idle sent rest)
  | receiving (sent : List CloudPacket) (packet : CloudPacket) (rest : List CloudPacket)
      (hpackets : packets = sent ++ packet :: rest) (h : c.Receiving sent packet rest)

/-- Nothing that arrives later makes the queued messages the packets. -/
inductive Doomed (packets : List CloudPacket) (c : TcpClient) : Prop
  | overrun (h : c.overrun = true)
  /-- A message was queued that is not the packet. -/
  | misread (h : ¬ c.reported <+: packets.map CloudPacket.bytes)
  /-- The next `recv` is asked to write beyond the buffer. -/
  | asksBeyond (hclosed : c.closed = false) (hpending : c.isPending = true)
      (hfewer : c.enqueued.length < packets.length)
      (hbeyond : handleMsgLen < c.curMsgLen + sizeSub c.expectedMsgLen c.curMsgLen)
  /-- The message will end before its packet does. -/
  | cutShort (sent : List CloudPacket) (packet : CloudPacket) (rest : List CloudPacket)
      (hpackets : packets = sent ++ packet :: rest) (hclosed : c.closed = false)
      (hpending : c.isPending = true) (hreported : c.reported = sent.map CloudPacket.bytes)
      (hstarted : 0 < c.curMsgLen) (hunfinished : c.curMsgLen < c.expectedMsgLen)
      (hshort : c.expectedMsgLen < packet.bytes.length)
      (hmore : packet.bytes.length ≤ c.curMsgLen + c.unread.length)

/-- Exactly the packets are queued, as the receive function reported them, and no
`recv` was asked to write beyond the buffer. -/
def Reported (packets : List CloudPacket) (c : TcpClient) : Prop :=
  c.reported = packets.map CloudPacket.bytes ∧ c.overrun = false

/-- A first chunk does not reach into the next packet, and it has the whole
length, or lacks only a last byte that is 0. -/
def FirstChunkFits (c : TcpClient) (arrived : ℕ) : Prop :=
  c.closed = false → c.isPending = false → c.unread ≠ [] →
    (c.firstChunk arrived).length ≤ aeRetrievePacketLen (c.unread.getD · 0) ∧
      (4 ≤ (c.firstChunk arrived).length ∨ (c.firstChunk arrived).length = 3 ∧
        aeRetrievePacketLen (c.unread.getD · 0) % 256 = 0)

variable {packets sent rest : List CloudPacket} {packet : CloudPacket}

theorem streamOf_cons : streamOf (packet :: rest) = packet.bytes ++ streamOf rest := rfl

theorem sound_of_start (h : c.unread = streamOf packets) (hclosed : c.closed = false)
    (hoverrun : c.overrun = false) (hpending : c.isPending = false) (hnone : c.enqueued = []) :
    Sound packets c :=
  .idle [] packets rfl ⟨hclosed, hoverrun, hpending, by simp [TcpClient.reported, hnone], h⟩

/-- At the end of the stream a client in step has queued every packet. -/
theorem Sound.finished (h : Sound packets c) (hunread : c.unread = []) : Reported packets c := by
  cases h with
  | idle sent rest hpackets h =>
      cases rest with
      | nil =>
          refine ⟨?_, h.overrun⟩
          rw [h.reported, hpackets, List.append_nil]
      | cons packet rest =>
          have hlength := packet.min_length
          rw [h.unread, streamOf_cons] at hunread
          rw [(List.append_eq_nil_iff.mp hunread).1] at hlength
          simp at hlength
  | receiving sent packet rest hpackets h =>
      have hunfinished := h.unfinished
      rw [h.unread] at hunread
      have hnone := List.drop_eq_nil_iff.mp (List.append_eq_nil_iff.mp hunread).1
      omega

theorem Doomed.finished (h : Doomed packets c) (hunread : c.unread = []) :
    ¬ Reported packets c := by
  rintro ⟨hreported, hoverrun⟩
  cases h with
  | overrun h => simp [h] at hoverrun
  | misread h => exact h (hreported ▸ List.prefix_rfl)
  | asksBeyond _ _ hfewer _ =>
      have hlength := congrArg List.length hreported
      simp only [TcpClient.reported, List.length_map] at hlength
      omega
  | cutShort sent packet rest _ _ _ _ _ hunfinished hshort hmore =>
      rw [hunread, List.length_nil] at hmore
      omega

/-! ## Steps that stay in step -/

/-- The message that a finished call queues. -/
theorem reported_finished (received : ℕ) :
    ({ c with isPending := false }.enqueue received).reported =
      c.reported ++ [(List.range received).map c.buff] := by
  simp [enqueue, TcpClient.reported, CloudMsg.reported, msgObjCreate]

/-- Bytes of the packet up to some point: the packet is complete, or more is to come. -/
theorem settle_sound (hpackets : packets = sent ++ packet :: rest) (hclosed : c.closed = false)
    (hoverrun : c.overrun = false) (hpending : c.isPending = true)
    (hreported : c.reported = sent.map CloudPacket.bytes)
    (hexpected : c.expectedMsgLen = packet.bytes.length) (hstarted : 0 < c.curMsgLen)
    (hle : c.curMsgLen ≤ packet.bytes.length)
    (hunread : c.unread = packet.bytes.drop c.curMsgLen ++ streamOf rest)
    (hbuff : ∀ i < c.curMsgLen, c.buff i = packet.bytes.getD i 0) :
    Sound packets c.settle := by
  have hmax := packet.max_length
  have hmin := packet.min_length
  rcases Nat.lt_or_eq_of_le hle with hlt | heq
  · rw [settle_unfinished (Or.inr (by omega))]
    exact .receiving sent packet rest hpackets
      ⟨hclosed, hoverrun, hpending, hreported, hexpected, hstarted, hlt, hunread, hbuff⟩
  · have hbytes : (List.range packet.bytes.length).map c.buff = packet.bytes := by
      apply List.ext_getElem
      · simp
      · intro i hi hi'
        rw [List.getElem_map, List.getElem_range, hbuff i (by omega),
          List.getD_eq_getElem?_getD, List.getElem?_eq_getElem hi', Option.getD_some]
    rw [settle_finished (by omega) (by omega) (by omega)]
    refine .idle (sent ++ [packet]) rest (by simp [hpackets]) ⟨hclosed, hoverrun, rfl, ?_, ?_⟩
    · rw [reported_finished, hexpected, hbytes, hreported, List.map_append, List.map_singleton]
    · simp [enqueue, hunread, heq]

/-- A chunk is a prefix of what is unread. -/
theorem take_length_take (bytes : List UInt8) (n : ℕ) :
    bytes.take n = bytes.take (bytes.take n).length :=
  List.prefix_iff_eq_take.mp (List.take_prefix n bytes)

theorem firstChunk_length_pos (hunread : c.unread ≠ []) : 0 < (c.firstChunk arrived).length := by
  have hlength := List.length_pos_iff.mpr hunread
  simp only [firstChunk, List.length_take, handleMsgLen]
  omega

theorem firstChunk_length_le : (c.firstChunk arrived).length ≤ handleMsgLen := by
  simp only [firstChunk, List.length_take]
  omega

variable (arrived) in
/-- The first chunk of a packet, from a client in step. -/
theorem Idle.begun_facts (h : c.Idle sent (packet :: rest)) :
    ∃ r, (c.firstChunk arrived).length = r ∧ 0 < r ∧ r ≤ handleMsgLen ∧
      c.firstChunk arrived = (packet.bytes ++ streamOf rest).take r ∧
      aeRetrievePacketLen (c.unread.getD · 0) = packet.bytes.length ∧
      (c.begun (c.firstChunk arrived)).unread = (packet.bytes ++ streamOf rest).drop r := by
  have hunread : c.unread = packet.bytes ++ streamOf rest := by rw [h.unread, streamOf_cons]
  have hne : c.unread ≠ [] := by
    intro hnil
    have hmin := packet.min_length
    rw [hunread, List.append_eq_nil_iff] at hnil
    simp [hnil.1] at hmin
  refine ⟨_, rfl, firstChunk_length_pos hne, firstChunk_length_le, ?_, ?_, ?_⟩
  · rw [← hunread]
    exact take_length_take c.unread _
  · rw [hunread]
    exact announced_stream packet (streamOf rest)
  · rw [← hunread]
    rfl

/-- A first chunk that fits keeps the client in step. -/
theorem Idle.step_sound (hpackets : packets = sent ++ packet :: rest)
    (h : c.Idle sent (packet :: rest)) (hunread : c.unread ≠ [])
    (hfits : c.FirstChunkFits arrived) : Sound packets (c.step arrived) := by
  obtain ⟨r, hlength, hpos, -, hchunk, hannounced, hrest⟩ := h.begun_facts arrived
  obtain ⟨hle, henough⟩ := hfits h.closed h.isPending hunread
  rw [hlength, hannounced] at hle henough
  have hexpected : aeRetrievePacketLen ((c.firstChunk arrived).getD · 0) =
      packet.bytes.length := by
    rw [hchunk]
    rcases henough with hfour | ⟨rfl, hlast⟩
    · exact announced_of_four packet (streamOf rest) r hfour
    · rw [announced_of_three, hlast, Nat.sub_zero]
  rw [step_idle h.closed hunread h.isPending]
  refine settle_sound hpackets h.closed h.overrun rfl h.reported hexpected
    (by simp only [begun]; omega) (by simp only [begun]; omega) ?_ ?_
  · rw [hrest, List.drop_append_of_le_length hle]
    simp only [begun, hlength]
  · intro i hi
    simp only [begun, hlength] at hi
    simp only [begun, hchunk, List.getD_eq_getElem?_getD, List.getElem?_take, if_pos hi]
    rw [List.getElem?_append_left (by omega)]

/-- A chunk longer than what it announces leaves a negative remainder to ask for. -/
theorem Idle.asksBeyond (hpackets : packets = sent ++ packet :: rest)
    (h : c.Idle sent (packet :: rest)) {chunk : List UInt8} (hmax : chunk.length ≤ handleMsgLen)
    (hless : (c.begun chunk).expectedMsgLen < chunk.length) :
    Doomed packets (c.begun chunk).settle := by
  have hfewer : c.enqueued.length < packets.length := by
    have hsent := congrArg List.length h.reported
    simp only [TcpClient.reported, List.length_map] at hsent
    simp only [hpackets, List.length_append, List.length_cons]
    omega
  rw [settle_unfinished (Or.inr (Nat.ne_of_lt hless))]
  refine .asksBeyond h.closed rfl hfewer ?_
  rw [handleMsgLen] at hmax
  rw [begun_cur, sizeSub, handleMsgLen]
  omega

/-- A first chunk that does not fit leaves nothing to hope for. -/
theorem Idle.step_doomed (hpackets : packets = sent ++ packet :: rest)
    (h : c.Idle sent (packet :: rest)) (hunread : c.unread ≠ [])
    (hfits : ¬ c.FirstChunkFits arrived) : Doomed packets (c.step arrived) := by
  obtain ⟨r, hlength, hpos, -, hchunk, hannounced, hrest⟩ := h.begun_facts arrived
  have hmin := packet.min_length
  have hexpected : (c.begun (c.firstChunk arrived)).expectedMsgLen =
      aeRetrievePacketLen (((packet.bytes ++ streamOf rest).take r).getD · 0) := by
    rw [← hchunk]
    rfl
  have hbad : packet.bytes.length < r ∨ r < 3 ∨ r = 3 ∧ packet.bytes.length % 256 ≠ 0 := by
    by_contra hgood
    apply hfits
    intro _ _ _
    rw [hlength, hannounced]
    omega
  have hbeyond (hless : (c.begun (c.firstChunk arrived)).expectedMsgLen < r) :
      Doomed packets (c.begun (c.firstChunk arrived)).settle :=
    h.asksBeyond hpackets firstChunk_length_le (hlength ▸ hless)
  rw [step_idle h.closed hunread h.isPending]
  rcases hbad with hlong | hshort | ⟨rfl, hlast⟩
  · apply hbeyond
    rw [hexpected, announced_of_four packet (streamOf rest) r (by omega)]
    exact hlong
  · apply hbeyond
    rw [hexpected, announced_of_fewer packet (streamOf rest) r hshort]
    exact hpos
  · rw [announced_of_three] at hexpected
    rcases Nat.lt_or_ge (packet.bytes.length - packet.bytes.length % 256) 3 with hzero | hsome
    · apply hbeyond
      rw [hexpected]
      exact hzero
    · have hcur : (c.begun (c.firstChunk arrived)).curMsgLen = 3 := hlength
      -- The announced length is a multiple of 256, so it is not the chunk's.
      have hmultiple : 3 < packet.bytes.length - packet.bytes.length % 256 := by omega
      rw [settle_unfinished (Or.inr (by rw [hexpected, hcur]; omega))]
      refine .cutShort sent packet rest hpackets h.closed rfl h.reported ?_ ?_ ?_ ?_
      · omega
      · rw [hexpected, hcur]
        exact hmultiple
      · rw [hexpected]
        omega
      · rw [hrest, hcur, List.length_drop, List.length_append]
        omega

variable (arrived) in
/-- A further chunk of a message that announced a length within the buffer. -/
theorem continued_facts (hunfinished : c.curMsgLen < c.expectedMsgLen)
    (hmax : c.expectedMsgLen ≤ handleMsgLen) (hunread : c.unread ≠ []) :
    ∃ k, (c.nextChunk arrived).length = k ∧ 0 < k ∧ k ≤ c.expectedMsgLen - c.curMsgLen ∧
      k ≤ c.unread.length ∧ c.nextChunk arrived = c.unread.take k ∧
      (c.continued (c.nextChunk arrived)).curMsgLen = c.curMsgLen + k ∧
      (c.continued (c.nextChunk arrived)).overrun = c.overrun := by
  have hsome := List.length_pos_iff.mpr hunread
  have hremain : sizeSub c.expectedMsgLen c.curMsgLen = c.expectedMsgLen - c.curMsgLen := by
    rw [handleMsgLen] at hmax
    rw [sizeSub]
    omega
  have hlength : (c.nextChunk arrived).length =
      min (min (arrived + 1) (c.expectedMsgLen - c.curMsgLen)) c.unread.length := by
    rw [nextChunk, hremain, List.length_take]
  refine ⟨_, rfl, by omega, by omega, by omega, take_length_take c.unread _, ?_, ?_⟩
  · rw [handleMsgLen] at hmax
    simp only [continued]
    omega
  · have hwithin : ¬ handleMsgLen < c.curMsgLen + (c.expectedMsgLen - c.curMsgLen) := by omega
    rw [continued_overrun, hremain, decide_eq_false hwithin, Bool.or_false]

/-- Within a packet every chunk keeps the client in step. -/
theorem Receiving.step_sound (hpackets : packets = sent ++ packet :: rest)
    (h : c.Receiving sent packet rest) : Sound packets (c.step arrived) := by
  have hmax := packet.max_length
  have hunfinished := h.unfinished
  have hunread : c.unread ≠ [] := by
    intro hnil
    have hlength := congrArg List.length hnil
    rw [h.unread, List.length_append, List.length_drop, List.length_nil] at hlength
    omega
  obtain ⟨k, hk, hpos, hle, -, hchunk, hcur, hoverrun⟩ := continued_facts arrived
    (h.expected ▸ hunfinished) (h.expected ▸ hmax) hunread
  rw [h.expected] at hle
  rw [h.unread, List.take_append_of_le_length (by rw [List.length_drop]; omega)] at hchunk
  have hne : c.nextChunk arrived ≠ [] := by
    rw [← List.length_pos_iff, hk]
    exact hpos
  rw [step_pending h.closed hunread h.isPending hne]
  refine settle_sound hpackets ?_ ?_ ?_ ?_ ?_ ?_ ?_ ?_ ?_
  · rw [continued_closed]
    exact h.closed
  · rw [hoverrun]
    exact h.overrun
  · rw [continued_isPending]
    exact h.isPending
  · rw [continued_reported]
    exact h.reported
  · rw [continued_expected]
    exact h.expected
  · rw [hcur]
    omega
  · rw [hcur]
    omega
  · rw [hcur, continued_unread, hk, h.unread,
      List.drop_append_of_le_length (by rw [List.length_drop]; omega), List.drop_drop]
  · intro i hi
    rw [hcur] at hi
    simp only [continued, store]
    split_ifs with hold
    · rw [hchunk, List.getElem?_take, if_pos (by omega), List.getElem?_drop,
        List.getD_eq_getElem?_getD, show c.curMsgLen + (i - c.curMsgLen) = i by omega,
        List.getElem?_eq_getElem (by omega)]
      rfl
    · exact h.buff i (by omega)

/-! ## What no step takes back -/

@[simp] theorem settle_overrun : c.settle.overrun = c.overrun := by
  unfold settle
  split_ifs <;> rfl

theorem settle_reported : c.reported <+: c.settle.reported := by
  unfold settle
  split_ifs
  · rw [reported_finished]
    exact List.prefix_append _ _
  · exact List.prefix_rfl

variable {c' : TcpClient}

theorem RecvMove.overrun (hmove : RecvMove c arrived c') (h : c.overrun = true) :
    c'.overrun = true := by
  cases hmove with
  | stays => exact h
  | begins =>
      rw [settle_overrun]
      exact h
  | closes =>
      change (c.continued []).overrun = true
      rw [continued_overrun, h, Bool.true_or]
  | continues => rw [settle_overrun, continued_overrun, h, Bool.true_or]

theorem RecvMove.reported (hmove : RecvMove c arrived c') : c.reported <+: c'.reported := by
  cases hmove with
  | stays => exact List.prefix_rfl
  | begins => exact settle_reported (c := c.begun (c.firstChunk arrived))
  | closes => exact List.prefix_rfl
  | continues =>
      have hsettle := settle_reported (c := c.continued (c.nextChunk arrived))
      rwa [continued_reported] at hsettle

/-- A message that asks for bytes beyond the buffer gets them. -/
theorem RecvMove.overrun_of_beyond (hmove : RecvMove c arrived c')
    (hidle : ¬ (c.closed = true ∨ c.unread = [])) (hpending : c.isPending = true)
    (hbeyond : handleMsgLen < c.curMsgLen + sizeSub c.expectedMsgLen c.curMsgLen) :
    c'.overrun = true := by
  cases hmove with
  | stays h => exact absurd h hidle
  | begins _ _ hnone =>
      rw [hpending] at hnone
      cases hnone
  | closes =>
      change (c.continued []).overrun = true
      rw [continued_overrun, decide_eq_true hbeyond, Bool.or_true]
  | continues => rw [settle_overrun, continued_overrun, decide_eq_true hbeyond, Bool.or_true]

/-- A message that ends before its packet is queued too short, or goes on. -/
theorem Doomed.cutShort_step (hpackets : packets = sent ++ packet :: rest)
    (hclosed : c.closed = false) (hpending : c.isPending = true)
    (hreported : c.reported = sent.map CloudPacket.bytes) (hstarted : 0 < c.curMsgLen)
    (hunfinished : c.curMsgLen < c.expectedMsgLen)
    (hshort : c.expectedMsgLen < packet.bytes.length)
    (hmore : packet.bytes.length ≤ c.curMsgLen + c.unread.length) :
    Doomed packets (c.step arrived) := by
  have hmax := packet.max_length
  have hunread : c.unread ≠ [] := by
    rintro hnil
    rw [hnil, List.length_nil] at hmore
    omega
  obtain ⟨k, hk, hpos, hle, hread, -, hcur, -⟩ :=
    continued_facts arrived hunfinished (hshort.le.trans hmax) hunread
  have hne : c.nextChunk arrived ≠ [] := by
    rw [← List.length_pos_iff, hk]
    exact hpos
  rw [step_pending hclosed hunread hpending hne]
  rcases Nat.lt_or_eq_of_le (show c.curMsgLen + k ≤ c.expectedMsgLen by omega) with hlt | heq
  · rw [settle_unfinished (Or.inr (by rw [continued_expected, hcur]; omega))]
    refine .cutShort sent packet rest hpackets ?_ ?_ ?_ ?_ ?_ ?_ ?_
    · rw [continued_closed, hclosed]
    · rw [continued_isPending, hpending]
    · rw [continued_reported, hreported]
    · rw [hcur]
      omega
    · rw [continued_expected, hcur]
      exact hlt
    · rw [continued_expected]
      exact hshort
    · rw [hcur, continued_unread, List.length_drop, hk]
      omega
  · rw [settle_finished (by rw [continued_expected]; omega)
      (by rw [hcur]; omega) (by rw [continued_expected, hcur, heq])]
    refine .misread fun hprefix => ?_
    rw [reported_finished, continued_reported, hreported, hpackets, List.map_append,
      continued_expected, List.prefix_append_right_inj, List.map_cons, List.cons_prefix_cons]
      at hprefix
    have hwhole := congrArg List.length hprefix.1
    rw [List.length_map, List.length_range] at hwhole
    omega

/-- A client that lost a packet does not recover. -/
theorem Doomed.step (h : Doomed packets c) : Doomed packets (c.step arrived) := by
  have hmove := recvMove c arrived
  by_cases hidle : c.closed = true ∨ c.unread = []
  · rwa [step_stays hidle]
  · cases h with
    | overrun h => exact .overrun (hmove.overrun h)
    | misread h => exact .misread fun hprefix => h (hmove.reported.trans hprefix)
    | asksBeyond _ hpending _ hbeyond =>
        exact .overrun (hmove.overrun_of_beyond hidle hpending hbeyond)
    | cutShort sent packet rest hpackets hclosed hpending hreported hstarted hunfinished hshort
        hmore =>
        exact Doomed.cutShort_step hpackets hclosed hpending hreported hstarted hunfinished
          hshort hmore

/-- A first chunk that fits keeps a client in step; another one loses the packet. -/
theorem Sound.next (h : Sound packets c) (arrived : ℕ) :
    (c.FirstChunkFits arrived ∧ Sound packets (c.step arrived)) ∨
      (¬ c.FirstChunkFits arrived ∧ Doomed packets (c.step arrived)) := by
  by_cases hunread : c.unread = []
  · rw [step_stays (Or.inr hunread)]
    exact Or.inl ⟨fun _ _ hne => absurd hunread hne, h⟩
  · cases h with
    | idle sent rest hpackets h =>
        cases rest with
        | nil => exact absurd h.unread hunread
        | cons packet rest =>
            by_cases hfits : c.FirstChunkFits arrived
            · exact Or.inl ⟨hfits, h.step_sound hpackets hunread hfits⟩
            · exact Or.inr ⟨hfits, h.step_doomed hpackets hunread hfits⟩
    | receiving sent packet rest hpackets h =>
        refine Or.inl ⟨fun _ hpending => ?_, h.step_sound hpackets⟩
        rw [h.isPending] at hpending
        cases hpending

/-- A run from a client in step ends in step if all its first chunks fit, and else
beyond recovery. -/
theorem sound_or_doomed (h : Sound packets c) (inputs : List ℕ) :
    (Guarded step FirstChunkFits c inputs ∧ Sound packets (run step c inputs)) ∨
      (¬ Guarded step FirstChunkFits c inputs ∧ Doomed packets (run step c inputs)) := by
  induction inputs using List.reverseRecOn with
  | nil => exact Or.inl ⟨trivial, h⟩
  | append_singleton inputs arrived ih =>
      rw [Guarded.concat, run_concat]
      rcases ih with ⟨hguarded, hsound⟩ | ⟨hguarded, hdoomed⟩
      · rcases hsound.next arrived with ⟨hfits, hnext⟩ | ⟨hfits, hnext⟩
        · exact Or.inl ⟨⟨hguarded, hfits⟩, hnext⟩
        · exact Or.inr ⟨fun hall => hfits hall.2, hnext⟩
      · exact Or.inr ⟨fun hall => hguarded hall.1, hdoomed.step⟩

/-! ## When the connection is closed -/

/-- The connection is closed after an overrun only: before one, a call that
continues a message asks for at least a byte. -/
structure Steady (c : TcpClient) : Prop where
  closed : c.closed = true → c.overrun = true
  pending : c.isPending = true → c.overrun = true ∨
    0 < c.curMsgLen ∧ c.curMsgLen ≤ handleMsgLen ∧ c.expectedMsgLen < 2 ^ 64 ∧
      c.expectedMsgLen ≠ c.curMsgLen

theorem settle_steady (hclosed : c.closed = true → c.overrun = true)
    (hbounds : c.overrun = true ∨
      0 < c.curMsgLen ∧ c.curMsgLen ≤ handleMsgLen ∧ c.expectedMsgLen < 2 ^ 64) :
    Steady c.settle := by
  rw [settle]
  split_ifs with hdone
  · exact ⟨hclosed, fun hpending => by cases hpending⟩
  · refine ⟨hclosed, fun _ => hbounds.imp_right fun ⟨hpos, hle, hlt⟩ => ?_⟩
    refine ⟨hpos, hle, hlt, fun heq => hdone (tcpRecvIsDone_iff.mpr ⟨by omega, hle, heq⟩)⟩

theorem aeRetrievePacketLen_lt (packet : ℕ → UInt8) : aeRetrievePacketLen packet < 2 ^ 64 := by
  have hzero := (packet 0).toNat_lt
  have hone := (packet 1).toNat_lt
  have htwo := (packet 2).toNat_lt
  have hthree := (packet 3).toNat_lt
  unfold aeRetrievePacketLen
  omega

/-- A chunk of what was asked for keeps within the buffer what has not left it. -/
theorem continued_bounds (h : c.overrun = true ∨
    0 < c.curMsgLen ∧ c.curMsgLen ≤ handleMsgLen ∧ c.expectedMsgLen < 2 ^ 64 ∧
      c.expectedMsgLen ≠ c.curMsgLen) :
    (c.continued (c.nextChunk arrived)).overrun = true ∨
      0 < (c.continued (c.nextChunk arrived)).curMsgLen ∧
        (c.continued (c.nextChunk arrived)).curMsgLen ≤ handleMsgLen ∧
        (c.continued (c.nextChunk arrived)).expectedMsgLen < 2 ^ 64 := by
  rw [continued_overrun, continued_expected, Bool.or_eq_true, decide_eq_true_eq]
  rcases h with h | ⟨hpos, hle, hlt, -⟩
  · exact Or.inl (Or.inl h)
  · by_cases hbeyond : handleMsgLen < c.curMsgLen + sizeSub c.expectedMsgLen c.curMsgLen
    · exact Or.inl (Or.inr hbeyond)
    · have hlength : (c.nextChunk arrived).length ≤ sizeSub c.expectedMsgLen c.curMsgLen := by
        rw [nextChunk, List.length_take]
        omega
      have hcur : (c.continued (c.nextChunk arrived)).curMsgLen =
          c.curMsgLen + (c.nextChunk arrived).length := by
        rw [handleMsgLen] at hbeyond
        simp only [continued]
        omega
      rw [hcur]
      exact Or.inr ⟨by omega, by omega, hlt⟩

/-- Where nothing was asked for, the buffer had been passed before. -/
theorem Steady.overrun_of_stuck (h : Steady c) (hunread : c.unread ≠ [])
    (hpending : c.isPending = true) (hchunk : c.nextChunk arrived = []) : c.overrun = true := by
  rcases h.pending hpending with hoverrun | ⟨hpos, hle, hlt, hne⟩
  · exact hoverrun
  · have hlength := congrArg List.length hchunk
    have hsome := List.length_pos_iff.mpr hunread
    rw [nextChunk, List.length_take, List.length_nil] at hlength
    simp only [sizeSub, handleMsgLen] at hlength hle
    omega

theorem RecvMove.steady (hmove : RecvMove c arrived c') (h : Steady c) : Steady c' := by
  cases hmove with
  | stays => exact h
  | begins hclosed hunread hpending =>
      refine settle_steady h.closed (Or.inr ⟨?_, ?_, ?_⟩)
      · rw [begun_cur]
        exact firstChunk_length_pos hunread
      · rw [begun_cur]
        exact firstChunk_length_le
      · rw [begun_expected]
        exact aeRetrievePacketLen_lt _
  | closes hclosed hunread hpending hchunk =>
      have hoverrun := h.overrun_of_stuck hunread hpending hchunk
      refine ⟨fun _ => ?_, fun _ => Or.inl ?_⟩ <;> simp only [continued, hoverrun, Bool.true_or]
  | continues hclosed hunread hpending hchunk =>
      refine settle_steady (fun hclosed' => ?_) ?_
      · rw [continued_closed, hclosed] at hclosed'
        cases hclosed'
      · exact continued_bounds (h.pending hpending)

theorem closed_after_overrun (comId : ℕ) (stream : List UInt8) (inputs : List ℕ) :
    (run step (initial comId stream) inputs).closed = true →
      (run step (initial comId stream) inputs).overrun = true := by
  have hsteady : Steady (run step (initial comId stream) inputs) :=
    run_invariant step (fun c arrived h => (recvMove c arrived).steady h) _ inputs
      ⟨by simp [initial], by simp [initial]⟩
  exact hsteady.closed

/-! ## The length of a message -/

/-- No queued message has a length: the size of the read buffer is never set. -/
def Unsized (c : TcpClient) : Prop :=
  c.size = 0 ∧ ∀ m ∈ c.enqueued, m.obj.msgLen = 0

theorem settle_unsized (h : Unsized c) : Unsized c.settle := by
  rw [settle]
  split_ifs
  · refine ⟨h.1, fun m hm => ?_⟩
    rcases List.mem_append.mp hm with hold | hnew
    · exact h.2 m hold
    · rw [List.mem_singleton.mp hnew]
      exact h.1
  · exact h

theorem RecvMove.unsized (hmove : RecvMove c arrived c') (h : Unsized c) : Unsized c' := by
  cases hmove with
  | stays => exact h
  | begins => exact settle_unsized ⟨h.1, h.2⟩
  | closes => exact ⟨h.1, h.2⟩
  | continues =>
      apply settle_unsized
      rw [Unsized, continued_size, continued_enqueued]
      exact h

/-- The message is the packet, and its length the packet's. -/
def CloudMsg.Carries (m : CloudMsg) (packet : CloudPacket) : Prop :=
  m.obj.msgLen = packet.bytes.length ∧ m.obj.bytes = packet.bytes

/-- Exactly the packets are queued, each with its bytes and its length, and no `recv`
was asked to write beyond the buffer. -/
def Exact (packets : List CloudPacket) (c : TcpClient) : Prop :=
  List.Forall₂ CloudMsg.Carries c.enqueued packets ∧ c.overrun = false

theorem exact_iff (comId : ℕ) (packets : List CloudPacket) (inputs : List ℕ) :
    Exact packets (run step (initial comId (streamOf packets)) inputs) ↔ packets = [] := by
  have hunsized : Unsized (run step (initial comId (streamOf packets)) inputs) :=
    run_invariant step (fun c arrived h => (recvMove c arrived).unsized h) _ inputs
      ⟨rfl, fun m hm => by cases hm⟩
  constructor
  · rintro ⟨hcarries, -⟩
    cases packets with
    | nil => rfl
    | cons packet rest =>
        obtain ⟨m, later, hm, -, henqueued⟩ := List.forall₂_cons_right_iff.mp hcarries
        have hlength := hunsized.2 m (by simp [henqueued])
        have hmin := packet.min_length
        rw [hm.1] at hlength
        omega
  · rintro rfl
    have hstays : ∀ inputs,
        run step (initial comId (streamOf [])) inputs = initial comId (streamOf []) := by
      intro inputs
      induction inputs with
      | nil => rfl
      | cons arrived inputs ih => rwa [run_cons, step_stays (Or.inr rfl)]
    rw [hstays]
    exact ⟨List.Forall₂.nil, rfl⟩

/-- Of every sequence of packets and every cut of their stream: the queued messages
are the packets, with bytes and lengths, only where there is no packet, for their
length is 0. Apart from that length, at the end of the stream they are the packets,
with every `recv` within the buffer, exactly if each first chunk stays within its
packet and has its whole length. And of every stream, one that announces a length
out of range included, the connection is not closed before a `recv` was asked to
write beyond the buffer. -/
theorem tcp_reassembly (comId : ℕ) (packets : List CloudPacket) (inputs : List ℕ) :
    (Exact packets (run step (initial comId (streamOf packets)) inputs) ↔ packets = []) ∧
      ((run step (initial comId (streamOf packets)) inputs).unread = [] ∧
          Reported packets (run step (initial comId (streamOf packets)) inputs) ↔
        (run step (initial comId (streamOf packets)) inputs).unread = [] ∧
          Guarded step FirstChunkFits (initial comId (streamOf packets)) inputs) ∧
      ∀ stream later, ¬ ((run step (initial comId stream) later).closed = true ∧
        (run step (initial comId stream) later).overrun = false) := by
  refine ⟨exact_iff comId packets inputs, and_congr_right fun hunread => ?_, ?_⟩
  · have hstart : Sound packets (initial comId (streamOf packets)) :=
      sound_of_start rfl rfl rfl rfl rfl
    rcases sound_or_doomed hstart inputs with ⟨hguarded, hsound⟩ | ⟨hguarded, hdoomed⟩
    · exact iff_of_true (hsound.finished hunread) hguarded
    · exact iff_of_false (hdoomed.finished hunread) hguarded
  · rintro stream later ⟨hclosed, hoverrun⟩
    rw [closed_after_overrun comId stream later hclosed] at hoverrun
    cases hoverrun

/-- The shortest packet, received whole, is queued with length 0; two of them in one
chunk are not queued, and the next `recv` is asked to write beyond the buffer. -/
theorem short_packets_lost :
    let one := run step (initial 1 [0, 0, 0, 4]) [3]
    let two := run step (initial 1 [0, 0, 0, 4, 0, 0, 0, 4, 0]) [7, 0]
    one.enqueued.map (·.obj.msgLen) = [0] ∧ one.unread = [] ∧
      two.enqueued.length = 0 ∧ two.overrun = true ∧ two.closed = false := by
  decide

end TcpClient

end AdaptiveSignal.Network
