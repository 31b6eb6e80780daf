import Mathlib.Algebra.Group.Int.Defs
import Mathlib.Algebra.GroupWithZero.Nat
import Mathlib.Algebra.Order.Group.Nat
import Mathlib.Data.List.Basic
import Mathlib.Tactic.Common

/-! # Receiving pedestrian packets from a socket

A pedestrian packet is a header of 24 bytes and 40 bytes for each pedestrian it
counts. The thread asks for a header with one `recv`, which may return fewer
bytes, and for the records until they are complete or the connection ends, and
then calls the handler in any case. Everything that arrives is read in the end,
so the calls match the packets exactly if nothing was short.
-/

namespace AdaptiveSignal.Pedestrian

def headerSize : ℕ := 24

def objSize : ℕ := 40

/-- What the handler is called with; `tab` are the bytes that were received into
the table, the rest of which is as the allocation left it. -/
structure PedestrianList where
  tab : List UInt8
  count : ℕ
  cameraNo : ℕ
  deviceNum : ℕ
  deriving DecidableEq

/-- A `uint32_t` as it is copied out of a buffer, least byte first. -/
def uint32At (buf : ℕ → UInt8) (offset : ℕ) : ℕ :=
  (buf offset).toNat + 256 * (buf (offset + 1)).toNat + 256 ^ 2 * (buf (offset + 2)).toNat +
    256 ^ 3 * (buf (offset + 3)).toNat

/-- A buffer into which some bytes were received. -/
def received (bytes : List UInt8) (stale : ℕ → UInt8) (i : ℕ) : UInt8 :=
  bytes.getD i (stale i)

def PedestrianList.ofHeader (headerBuf : ℕ → UInt8) (tab : List UInt8) : PedestrianList where
  tab := tab
  count := uint32At headerBuf 8
  cameraNo := uint32At headerBuf 12
  deviceNum := uint32At headerBuf 16

/-- `OBJ_SIZE * list->count` is a product of `uint32_t`s, kept in an `int`. -/
def bodySize (count : ℕ) : ℤ :=
  let product : ℕ := objSize * count % 2 ^ 32
  if product < 2 ^ 31 then product else product - 2 ^ 32

/-- The receiving end of a connection. -/
structure Connection where
  unread : List UInt8
  /-- The calls of `recv` so far. -/
  recvs : ℕ
  deriving DecidableEq

namespace Connection

variable (cuts : ℕ → ℕ) (stale : ℕ → ℕ → UInt8)

/-- The bytes that one `recv` returns: at least one, at most `len`, while there are
any. The stream may be cut anywhere. -/
def handed (c : Connection) (len : ℕ) : ℕ :=
  min len (cuts c.recvs + 1)

def recv (c : Connection) (len : ℕ) : List UInt8 × Connection :=
  (c.unread.take (c.handed cuts len), ⟨c.unread.drop (c.handed cuts len), c.recvs + 1⟩)

/-- The loop that receives the records, with so many bytes missing. -/
def receiveBody (c : Connection) (missing : ℕ) : List UInt8 × Connection :=
  if _hmissing : missing = 0 then ([], c)
  else
    if _hchunk : (c.recv cuts missing).1 = [] then ([], (c.recv cuts missing).2)
    else
      let rest := receiveBody (c.recv cuts missing).2 (missing - (c.recv cuts missing).1.length)
      ((c.recv cuts missing).1 ++ rest.1, rest.2)
termination_by missing
decreasing_by
  have := List.length_pos_of_ne_nil _hchunk
  omega

/-- One iteration of the loop: the bytes of the header, what the handler is called
with, and the connection after it. -/
structure Iteration where
  header : List UInt8
  list : PedestrianList
  next : Connection
  deriving DecidableEq

/-- One iteration of the loop, unless there is no header to receive. -/
def receivePacket (c : Connection) : Option Iteration :=
  let (header, c') := c.recv cuts headerSize
  if header = [] then none
  else
    let headerBuf := received header (stale c.recvs)
    let count := uint32At headerBuf 8
    if 0 < count then
      let (tab, next) := c'.receiveBody cuts (bodySize count).toNat
      some ⟨header, .ofHeader headerBuf tab, next⟩
    else some ⟨header, .ofHeader headerBuf [], c'⟩

variable {stale} {c : Connection} {packet : Iteration}

theorem recv_append (c : Connection) (len : ℕ) :
    (c.recv cuts len).1 ++ (c.recv cuts len).2.unread = c.unread :=
  List.take_append_drop _ _

theorem recv_eq_nil_iff (c : Connection) {len : ℕ} (hlen : 0 < len) :
    (c.recv cuts len).1 = [] ↔ c.unread = [] := by
  have hhanded : 0 < c.handed cuts len := lt_min hlen (Nat.succ_pos _)
  rw [recv, List.take_eq_nil_iff]
  exact or_iff_right (by omega)

theorem take_append_take (bytes : List UInt8) {first missing : ℕ} (hfirst : first ≤ missing) :
    bytes.take first ++ (bytes.drop first).take (missing - (bytes.take first).length) =
      bytes.take missing := by
  rcases Nat.le_total first bytes.length with hle | hle
  · rw [List.length_take, Nat.min_eq_left hle, ← List.take_add, Nat.add_sub_cancel' hfirst]
  · rw [List.drop_eq_nil_of_le hle, List.take_nil, List.append_nil, List.take_of_length_le hle,
      List.take_of_length_le (hle.trans hfirst)]

variable {cuts}

/-- However the stream is cut, the loop receives what there is of the records. -/
theorem receiveBody_fst (c : Connection) (missing : ℕ) :
    (c.receiveBody cuts missing).1 = c.unread.take missing := by
  induction c, missing using receiveBody.induct cuts with
  | case1 c =>
      rw [receiveBody, dif_pos rfl]
      rfl
  | case2 c missing hmissing hchunk =>
      have hunread := (recv_eq_nil_iff cuts c (Nat.pos_of_ne_zero hmissing)).mp hchunk
      rw [receiveBody, dif_neg hmissing, dif_pos hchunk, hunread, List.take_nil]
  | case3 c missing hmissing hchunk ih =>
      rw [receiveBody, dif_neg hmissing, dif_neg hchunk]
      simp only [ih]
      exact take_append_take c.unread (Nat.min_le_left _ _)

variable (cuts) in
theorem receiveBody_append (c : Connection) (missing : ℕ) :
    (c.receiveBody cuts missing).1 ++ (c.receiveBody cuts missing).2.unread = c.unread := by
  induction c, missing using receiveBody.induct cuts with
  | case1 c =>
      rw [receiveBody, dif_pos rfl]
      rfl
  | case2 c missing hmissing hchunk =>
      have hrecv := recv_append cuts c missing
      rw [hchunk] at hrecv
      rw [receiveBody, dif_neg hmissing, dif_pos hchunk, hrecv]
  | case3 c missing hmissing hchunk ih =>
      rw [receiveBody, dif_neg hmissing, dif_neg hchunk]
      simp only [List.append_assoc, ih]
      exact recv_append cuts c missing

theorem receivePacket_eq_none_iff (c : Connection) :
    c.receivePacket cuts stale = none ↔ c.unread = [] := by
  rw [← recv_eq_nil_iff cuts c (show 0 < headerSize by decide)]
  simp only [receivePacket]
  split_ifs with hheader <;> simp [hheader]

/-- What an iteration receives: some of a header, and the records that it counts as
far as there are any. -/
structure Receives (cuts : ℕ → ℕ) (stale : ℕ → ℕ → UInt8) (c : Connection)
    (packet : Iteration) : Prop where
  header : packet.header = c.unread.take (c.handed cuts headerSize)
  nonempty : packet.header ≠ []
  list : packet.list =
    PedestrianList.ofHeader (received packet.header (stale c.recvs)) packet.list.tab
  tab : packet.list.tab = (c.unread.drop packet.header.length).take (bodySize packet.list.count).toNat
  next : packet.header ++ packet.list.tab ++ packet.next.unread = c.unread

theorem bodySize_of_count {count : ℕ} (hcount : ¬ 0 < count) : (bodySize count).toNat = 0 := by
  simp [bodySize, Nat.eq_zero_of_not_pos hcount]

theorem receivePacket_receives (h : c.receivePacket cuts stale = some packet) :
    Receives cuts stale c packet := by
  have happend := recv_append cuts c headerSize
  have hunread : (c.recv cuts headerSize).2.unread =
      c.unread.drop (c.recv cuts headerSize).1.length := by
    conv_rhs => rw [← happend]
    exact List.drop_left.symm
  simp only [receivePacket] at h
  split_ifs at h with hheader hcount
  · obtain rfl := Option.some.inj h
    refine ⟨rfl, hheader, rfl, ?_, ?_⟩
    · simp only [PedestrianList.ofHeader, receiveBody_fst, hunread]
    · simp only [PedestrianList.ofHeader, List.append_assoc, receiveBody_append, happend]
  · obtain rfl := Option.some.inj h
    refine ⟨rfl, hheader, rfl, ?_, ?_⟩
    · simp only [PedestrianList.ofHeader, bodySize_of_count hcount, List.take_zero]
    · simp only [PedestrianList.ofHeader, List.append_nil, happend]

theorem Receives.next_lt (h : Receives cuts stale c packet) :
    packet.next.unread.length < c.unread.length := by
  have hheader := List.length_pos_of_ne_nil h.nonempty
  have hlength := congrArg List.length h.next
  simp only [List.length_append] at hlength
  omega

variable (cuts stale) in
/-- The iterations of the loop until the connection ends. -/
def iterations (c : Connection) : List Iteration :=
  match _h : c.receivePacket cuts stale with
  | none => []
  | some packet => packet :: iterations packet.next
termination_by c.unread.length
decreasing_by exact (receivePacket_receives _h).next_lt

variable (cuts stale) in
/-- The calls of `PEDESTRIAN_plus_on_pedestrian_packet_rx` that
`socket_server_thread` makes for a connection. -/
def socketServerThread (c : Connection) : List PedestrianList :=
  (c.iterations cuts stale).map Iteration.list

theorem iterations_of_none (h : c.unread = []) : c.iterations cuts stale = [] := by
  rw [iterations]
  split
  next => rfl
  next packet hsome =>
    rw [(receivePacket_eq_none_iff c).mpr h] at hsome
    cases hsome

theorem iterations_of_some (h : c.receivePacket cuts stale = some packet) :
    c.iterations cuts stale = packet :: packet.next.iterations cuts stale := by
  rw [iterations]
  split
  next hnone =>
    rw [h] at hnone
    cases hnone
  next other hother =>
    rw [h] at hother
    cases hother
    rfl

end Connection

/-! ## Packets -/

/-- The fields of a header. -/
def headerField (header : List UInt8) (offset : ℕ) : ℕ :=
  uint32At (received header fun _ => 0) offset

/-- A complete packet whose records fit the size of an `int`. -/
structure PedestrianPacket where
  header : List UInt8
  records : List UInt8
  header_length : header.length = headerSize
  records_length : records.length = objSize * headerField header 8
  fits : objSize * headerField header 8 < 2 ^ 31

namespace PedestrianPacket

def bytes (packet : PedestrianPacket) : List UInt8 :=
  packet.header ++ packet.records

/-- What the handler is to be called with. -/
def list (packet : PedestrianPacket) : PedestrianList where
  tab := packet.records
  count := headerField packet.header 8
  cameraNo := headerField packet.header 12
  deviceNum := headerField packet.header 16

end PedestrianPacket

def streamOf (packets : List PedestrianPacket) : List UInt8 :=
  packets.flatMap PedestrianPacket.bytes

/-- The stream ends in a packet, or goes on with a count that is to be refused. -/
def Incomplete (tail : List UInt8) : Prop :=
  tail.length < headerSize + objSize * headerField (tail.take headerSize) 8 ∨
    2 ^ 31 ≤ objSize * headerField (tail.take headerSize) 8

/-- Every stream is one of complete packets, up to where it ends or a count is refused. -/
theorem exists_packets (stream : List UInt8) :
    ∃ packets tail, stream = streamOf packets ++ tail ∧ Incomplete tail := by
  induction hlength : stream.length using Nat.strong_induction_on generalizing stream with
  | _ n ih =>
      by_cases hincomplete : Incomplete stream
      · exact ⟨[], stream, rfl, hincomplete⟩
      · obtain ⟨hlong, hfits⟩ := not_or.mp hincomplete
        have hheader : (stream.take headerSize).length = headerSize := by
          rw [List.length_take]
          omega
        have hrecords : ((stream.drop headerSize).take
            (objSize * headerField (stream.take headerSize) 8)).length =
            objSize * headerField (stream.take headerSize) 8 := by
          rw [List.length_take, List.length_drop]
          omega
        obtain ⟨packets, tail, hsplit, htail⟩ := ih
          ((stream.drop headerSize).drop (objSize * headerField (stream.take headerSize) 8)).length
          (by simp only [List.length_drop, headerSize] at hlong ⊢; omega) _ rfl
        refine ⟨⟨_, _, hheader, hrecords, Nat.not_le.mp hfits⟩ :: packets, tail, ?_, htail⟩
        rw [streamOf, List.flatMap_cons, List.append_assoc, ← streamOf, ← hsplit,
          PedestrianPacket.bytes, List.append_assoc, List.take_append_drop,
          List.take_append_drop]

theorem bodySize_le (count : ℕ) : (bodySize count).toNat ≤ objSize * count := by
  have hmod := Nat.mod_le (objSize * count) (2 ^ 32)
  have hlt := Nat.mod_lt (objSize * count) (show 0 < 2 ^ 32 by decide)
  simp only [bodySize]
  split_ifs <;> omega

theorem bodySize_of_fits {count : ℕ} (hfits : objSize * count < 2 ^ 31) :
    (bodySize count).toNat = objSize * count := by
  have hmod : objSize * count % 2 ^ 32 = objSize * count := Nat.mod_eq_of_lt (by omega)
  simp only [bodySize, hmod, if_pos hfits, Int.toNat_natCast]

/-- What lies in the buffer does not matter once a whole header is in it. -/
theorem uint32At_received {header : List UInt8} (hheader : header.length = headerSize)
    (stale : ℕ → UInt8) {offset : ℕ} (hoffset : offset + 3 < headerSize) :
    uint32At (received header stale) offset = headerField header offset := by
  have hbyte (i : ℕ) (hi : i < headerSize) :
      received header stale i = received header (fun _ => 0) i := by
    have hlt : i < header.length := hheader ▸ hi
    simp only [received, List.getD_eq_getElem?_getD, List.getElem?_eq_getElem hlt,
      Option.getD_some]
  rw [headerField, uint32At, uint32At, hbyte offset (by omega), hbyte (offset + 1) (by omega),
    hbyte (offset + 2) (by omega), hbyte (offset + 3) hoffset]

/-! ## Counting the bytes -/

/-- The bytes of the packet that a call stands for. -/
def PedestrianList.size (list : PedestrianList) : ℕ :=
  headerSize + objSize * list.count

theorem length_streamOf (packets : List PedestrianPacket) :
    (streamOf packets).length =
      ((packets.map PedestrianPacket.list).map PedestrianList.size).sum := by
  induction packets with
  | nil => rfl
  | cons packet rest ih =>
      rw [streamOf, List.flatMap_cons, List.length_append, ← streamOf, ih,
        PedestrianPacket.bytes, List.length_append, packet.header_length, packet.records_length]
      rfl

namespace Connection

variable {cuts : ℕ → ℕ} {stale : ℕ → ℕ → UInt8} {c : Connection} {packet : Iteration}

/-- Every `recv` for a header returns all of it. -/
def HeadersWhole (cuts : ℕ → ℕ) (stale : ℕ → ℕ → UInt8) (c : Connection) : Prop :=
  ∀ packet ∈ c.iterations cuts stale, packet.header.length = headerSize

theorem Receives.header_le (h : Receives cuts stale c packet) :
    packet.header.length ≤ headerSize := by
  rw [h.header]
  exact (List.length_take_le _ _).trans (Nat.min_le_left _ _)

theorem Receives.length_le (h : Receives cuts stale c packet) :
    c.unread.length ≤ packet.list.size + packet.next.unread.length ∧
      (c.unread.length = packet.list.size + packet.next.unread.length →
        packet.header.length = headerSize) := by
  have hlength := congrArg List.length h.next
  have hheader := h.header_le
  have htab : packet.list.tab.length ≤ objSize * packet.list.count := by
    rw [h.tab]
    exact (List.length_take_le _ _).trans (bodySize_le _)
  simp only [List.length_append] at hlength
  unfold PedestrianList.size
  omega

/-- Everything that arrives is read, and no iteration reads more than the packet it
reports; so where the reports account for exactly what arrived, no header was short. -/
theorem length_le_size (cuts : ℕ → ℕ) (stale : ℕ → ℕ → UInt8) (c : Connection) :
    c.unread.length ≤ ((c.socketServerThread cuts stale).map PedestrianList.size).sum ∧
      (c.unread.length = ((c.socketServerThread cuts stale).map PedestrianList.size).sum →
        c.HeadersWhole cuts stale) := by
  induction hlength : c.unread.length using Nat.strong_induction_on generalizing c with
  | _ n ih =>
      unfold socketServerThread HeadersWhole
      cases hpacket : c.receivePacket cuts stale with
      | none =>
          have hunread := (receivePacket_eq_none_iff c).mp hpacket
          rw [iterations_of_none hunread, ← hlength, hunread]
          exact ⟨Nat.zero_le _, fun _ _ hmem => absurd hmem List.not_mem_nil⟩
      | some packet =>
          have hreceives := receivePacket_receives hpacket
          obtain ⟨hle, hwhole⟩ := hreceives.length_le
          obtain ⟨hrest, hrestWhole⟩ := ih _ (hlength ▸ hreceives.next_lt) packet.next rfl
          rw [iterations_of_some hpacket, List.map_cons, List.map_cons, List.sum_cons,
            ← socketServerThread]
          refine ⟨by omega, fun heq => ?_⟩
          intro other hother
          rcases List.mem_cons.mp hother with rfl | hlater
          · exact hwhole (by omega)
          · exact hrestWhole (by omega) other hlater

/-- With whole headers an iteration receives the packet that comes next. -/
theorem Receives.of_whole (h : Receives cuts stale c packet)
    (hwhole : packet.header.length = headerSize) {first : PedestrianPacket} {rest : List UInt8}
    (hunread : c.unread = first.bytes ++ rest) :
    packet.list = first.list ∧ packet.next.unread = rest := by
  have hnext := h.next
  rw [hunread, PedestrianPacket.bytes, List.append_assoc, List.append_assoc] at hnext
  obtain ⟨hheader, hrecords⟩ :=
    List.append_inj hnext (hwhole.trans first.header_length.symm)
  have hcount : packet.list.count = headerField first.header 8 := by
    rw [h.list, ← hheader]
    exact uint32At_received hwhole _ (by decide)
  have htab : packet.list.tab = first.records := by
    rw [h.tab, hcount, bodySize_of_fits first.fits, ← first.records_length, hunread,
      PedestrianPacket.bytes, List.append_assoc, hwhole, ← first.header_length, List.drop_left,
      List.take_left]
  refine ⟨?_, ?_⟩
  · rw [h.list, htab, hheader]
    simp only [PedestrianList.ofHeader, PedestrianPacket.list,
      uint32At_received (hheader ▸ hwhole) (stale c.recvs) (show 8 + 3 < headerSize by decide),
      uint32At_received (hheader ▸ hwhole) (stale c.recvs) (show 12 + 3 < headerSize by decide),
      uint32At_received (hheader ▸ hwhole) (stale c.recvs) (show 16 + 3 < headerSize by decide)]
  · rw [htab] at hrecords
    exact List.append_cancel_left hrecords

theorem calls_of_whole {packets : List PedestrianPacket} (hunread : c.unread = streamOf packets)
    (hwhole : c.HeadersWhole cuts stale) :
    c.socketServerThread cuts stale = packets.map PedestrianPacket.list := by
  induction packets generalizing c with
  | nil =>
      rw [socketServerThread, iterations_of_none hunread]
      rfl
  | cons first rest ih =>
      rw [streamOf, List.flatMap_cons, ← streamOf] at hunread
      cases hpacket : c.receivePacket cuts stale with
      | none =>
          have hempty := (receivePacket_eq_none_iff c).mp hpacket
          have hlength := congrArg List.length (hunread.symm.trans hempty)
          rw [List.length_append, PedestrianPacket.bytes, List.length_append,
            first.header_length] at hlength
          exact absurd hlength (by simp [headerSize])
      | some packet =>
          unfold HeadersWhole at hwhole
          rw [iterations_of_some hpacket] at hwhole
          obtain ⟨hheader, hrestWhole⟩ := List.forall_mem_cons.mp hwhole
          obtain ⟨hlist, hnext⟩ := (receivePacket_receives hpacket).of_whole hheader hunread
          rw [socketServerThread, iterations_of_some hpacket, List.map_cons, List.map_cons, hlist,
            ← socketServerThread, ih hnext hrestWhole]

/-- The handler is called once for each complete packet, in order and with its data,
and for nothing else, exactly if the connection ends after a complete packet (without
a count that is to be refused) and no header was received in pieces. -/
theorem calls_eq_iff (packets : List PedestrianPacket) (tail : List UInt8)
    (cuts : ℕ → ℕ) (stale : ℕ → ℕ → UInt8) :
    socketServerThread cuts stale ⟨streamOf packets ++ tail, 0⟩ =
        packets.map PedestrianPacket.list ↔
      tail = [] ∧ HeadersWhole cuts stale ⟨streamOf packets ++ tail, 0⟩ := by
  constructor
  · intro hcalls
    obtain ⟨hle, hwhole⟩ := length_le_size cuts stale ⟨streamOf packets ++ tail, 0⟩
    rw [hcalls, ← length_streamOf] at hle hwhole
    have htail : tail = [] := by
      simp only [List.length_append] at hle
      exact List.eq_nil_of_length_eq_zero (by omega)
    refine ⟨htail, hwhole ?_⟩
    rw [htail, List.append_nil]
  · rintro ⟨rfl, hwhole⟩
    exact calls_of_whole (List.append_nil _) hwhole

/-- The packet of a camera that sees nobody. -/
def emptyPacket : PedestrianPacket where
  header := List.replicate 24 0
  records := []
  header_length := rfl
  records_length := by decide
  fits := by decide

/-- The header of a packet with one pedestrian, and the header of a refused count. -/
def onePedestrian : List UInt8 := List.replicate 8 0 ++ [1] ++ List.replicate 15 0

def refusedCount : List UInt8 := List.replicate 11 0 ++ [0x40] ++ List.replicate 12 0

/-- A header that arrives in two pieces is taken for two packets, a packet is
reported although the connection ends in its records, and so is a count of `2 ^ 30`. -/
theorem short_reads :
    socketServerThread (fun _ => 11) (fun _ _ => 0) ⟨emptyPacket.bytes, 0⟩ =
        [emptyPacket.list, emptyPacket.list] ∧
      socketServerThread (fun _ => 99) (fun _ _ => 0)
        ⟨onePedestrian ++ List.replicate 10 0, 0⟩ ≠ [] ∧
      socketServerThread (fun _ => 99) (fun _ _ => 0) ⟨refusedCount, 0⟩ ≠ [] := by
  have hcalled (cuts : ℕ → ℕ) (c : Connection) (hunread : c.unread ≠ []) :
      socketServerThread cuts (fun _ _ => 0) c ≠ [] := by
    intro hnone
    have hlength := (length_le_size cuts (fun _ _ => 0) c).1
    rw [hnone] at hlength
    exact hunread (List.eq_nil_of_length_eq_zero (Nat.le_zero.mp hlength))
  refine ⟨?_, hcalled _ _ (by simp [onePedestrian]), hcalled _ _ (by simp [refusedCount])⟩
  have hfirst : receivePacket (fun _ => 11) (fun _ _ => 0) ⟨emptyPacket.bytes, 0⟩ =
      some ⟨List.replicate 12 0, emptyPacket.list, ⟨List.replicate 12 0, 1⟩⟩ := by decide
  have hsecond : receivePacket (fun _ => 11) (fun _ _ => 0) ⟨List.replicate 12 0, 1⟩ =
      some ⟨List.replicate 12 0, emptyPacket.list, ⟨[], 2⟩⟩ := by decide
  rw [socketServerThread, iterations_of_some hfirst, iterations_of_some hsecond,
    iterations_of_none rfl]
  rfl

end Connection

end AdaptiveSignal.Pedestrian
