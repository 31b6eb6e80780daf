import AdaptiveSignal.Foundation.Run
import AdaptiveSignal.Network.ClientBuffer

/-! # Datagrams of the UDP ports

Three ports take datagrams. A datagram that arrives on a listening socket is read
by the accept handler of its port, which opens a connected socket for its sender;
one that arrives on a connected socket is read by the receive handler of that
client. Every datagram read with a positive length should become one message.
-/

namespace AdaptiveSignal.Network

open Foundation

inductive UdpPort
  | obu
  | smartAvi
  | pedestrian
  deriving DecidableEq

def UdpPort.deviceId : UdpPort → UInt8
  | .obu => fromDsrc
  | .smartAvi => fromSmartAvi
  | .pedestrian => fromPedestrian

def heartbeatPort : UInt16 := 10001

/-- A datagram and the port of its sender. -/
structure Datagram where
  bytes : List UInt8
  sinPort : UInt16
  bounded : bytes.length ≤ defaultBuffSize

structure UdpClient where
  comId : ℕ
  port : UdpPort
  readBuffer : Buffer

structure DatagramState where
  dispatchComId : ℕ
  clients : List UdpClient
  /-- The messages queued, and the datagrams read with a positive length. -/
  queue : List MsgObj
  taken : List (List UInt8)

inductive DatagramEvent
  /-- A listening socket is readable; `malloc` returns memory with any contents. -/
  | accept (port : UdpPort) (d : Datagram) (memory : ℕ → UInt8)
  /-- The socket of a client is readable. -/
  | receive (client : ℕ) (d : Datagram)
  /-- The `recv` on the socket of a client returns −1. -/
  | receiveError (client : ℕ)

namespace DatagramState

/-- A client for a new connected socket. The read buffer is allocated, not filled. -/
def allocClient (s : DatagramState) (port : UdpPort) (memory : ℕ → UInt8) : UdpClient where
  comId := s.dispatchComId + 1
  port := port
  readBuffer := ⟨memory, 0⟩

def addClient (s : DatagramState) (c : UdpClient) : DatagramState :=
  { s with dispatchComId := c.comId, clients := s.clients ++ [c] }

def commPacketEnqueue (s : DatagramState) (c : UdpClient) (fromType : UInt8) : DatagramState :=
  { s with queue := s.queue ++ [msgObjCreate c.readBuffer fromType (UInt8.ofNat c.comId)] }

/-- `net_UDP_accept` reads the datagram into an array of the handler. -/
def netUdpAccept (s : DatagramState) (d : Datagram) : DatagramState :=
  if 0 < d.bytes.length then { s with taken := s.taken ++ [d.bytes] } else s

/-- `comm_create_OBU_client`, for the port below the one of the heartbeat. -/
def commCreateOBUClient (s : DatagramState) (memory : ℕ → UInt8) : DatagramState :=
  let client := s.allocClient .obu memory
  (s.addClient client).commPacketEnqueue client fromDsrc

def connAcceptUDPHandler (s : DatagramState) (d : Datagram) (memory : ℕ → UInt8) :
    DatagramState :=
  let s := s.netUdpAccept d
  if 0 < d.bytes.length then
    let client := s.allocClient .obu memory
    let s := (s.addClient client).commPacketEnqueue client fromDsrc
    if d.sinPort = heartbeatPort then s.commCreateOBUClient memory else s
  else s

/-- The accept handlers of the two other ports. -/
def connAcceptQuietly (port : UdpPort) (s : DatagramState) (d : Datagram)
    (memory : ℕ → UInt8) : DatagramState :=
  let s := s.netUdpAccept d
  if 0 < d.bytes.length then s.addClient (s.allocClient port memory) else s

def connAcceptSmartAVIHandler : DatagramState → Datagram → (ℕ → UInt8) → DatagramState :=
  connAcceptQuietly .smartAvi

def connAcceptPedestrianHandler : DatagramState → Datagram → (ℕ → UInt8) → DatagramState :=
  connAcceptQuietly .pedestrian

/-- `udp_recv` of a datagram: the buffer is cleared, filled, and its size set. -/
def udpRecv (c : UdpClient) (d : Datagram) : UdpClient :=
  { c with readBuffer := ⟨(d.bytes.getD · 0), d.bytes.length⟩ }

/-- `udp_recv` when `recv` returns −1, which becomes the size of the cleared buffer. -/
def udpRecvError (c : UdpClient) : UdpClient :=
  { c with readBuffer := ⟨fun _ => 0, 2 ^ 64 - 1⟩ }

/-- The receive handler of a client, by the port it was accepted on. -/
def connReadFromClient (s : DatagramState) (i : ℕ) (c : UdpClient) (d : Datagram) :
    DatagramState :=
  let c := udpRecv c d
  let s := { s with clients := s.clients.set i c }
  if 0 < d.bytes.length then
    { s with taken := s.taken ++ [d.bytes] }.commPacketEnqueue c c.port.deviceId
  else s

def step (s : DatagramState) : DatagramEvent → DatagramState
  | .accept .obu d memory => s.connAcceptUDPHandler d memory
  | .accept .smartAvi d memory => s.connAcceptSmartAVIHandler d memory
  | .accept .pedestrian d memory => s.connAcceptPedestrianHandler d memory
  | .receive i d =>
      match s.clients[i]? with
      | some c => s.connReadFromClient i c d
      | none => s
  | .receiveError i =>
      match s.clients[i]? with
      | some c => { s with clients := s.clients.set i (udpRecvError c) }
      | none => s

/-- A server that has these clients, before the datagrams to come. -/
def serving (dispatchComId : ℕ) (clients : List UdpClient) : DatagramState where
  dispatchComId := dispatchComId
  clients := clients
  queue := []
  taken := []

/-- The messages are the datagrams read, one for one. -/
def Conserved (s : DatagramState) : Prop :=
  (s.queue.map MsgObj.bytes).Perm s.taken

/-- No listening socket gives a datagram with a positive length: every sender of one
has its connected socket. -/
def NoFirstDatagram (_ : DatagramState) : DatagramEvent → Prop
  | .accept _ d _ => d.bytes = []
  | _ => True

variable {s : DatagramState}

theorem udpRecv_bytes (c : UdpClient) (d : Datagram) (deviceId handleId : UInt8) :
    (msgObjCreate (udpRecv c d).readBuffer deviceId handleId).bytes = d.bytes := by
  apply List.ext_getElem
  · simp [MsgObj.bytes, msgObjCreate, udpRecv]
  · intro i hi hi'
    simp [MsgObj.bytes, msgObjCreate, udpRecv, hi']

/-- A message from a buffer that was not filled is empty. -/
theorem allocClient_bytes (port : UdpPort) (memory : ℕ → UInt8) (deviceId handleId : UInt8) :
    (msgObjCreate (s.allocClient port memory).readBuffer deviceId handleId).bytes = [] := rfl

/-- An accept handler adds the datagram to those read, and at most empty messages. -/
theorem accept_adds (port : UdpPort) {d : Datagram} (memory : ℕ → UInt8)
    (hpositive : 0 < d.bytes.length) :
    ∃ n, (s.step (.accept port d memory)).queue.map MsgObj.bytes =
        s.queue.map MsgObj.bytes ++ List.replicate n [] ∧
      (s.step (.accept port d memory)).taken = s.taken ++ [d.bytes] := by
  cases port with
  | obu =>
      simp only [step, connAcceptUDPHandler, netUdpAccept, hpositive, if_true]
      split_ifs
      · refine ⟨2, ?_, rfl⟩
        simp [commCreateOBUClient, commPacketEnqueue, addClient, allocClient_bytes]
      · refine ⟨1, ?_, rfl⟩
        simp [commPacketEnqueue, addClient, allocClient_bytes]
  | smartAvi =>
      refine ⟨0, ?_, ?_⟩ <;>
        simp [step, connAcceptSmartAVIHandler, connAcceptQuietly, netUdpAccept, hpositive,
          addClient]
  | pedestrian =>
      refine ⟨0, ?_, ?_⟩ <;>
        simp [step, connAcceptPedestrianHandler, connAcceptQuietly, netUdpAccept, hpositive,
          addClient]

theorem accept_empty (port : UdpPort) {d : Datagram} (memory : ℕ → UInt8)
    (hempty : d.bytes = []) : s.step (.accept port d memory) = s := by
  cases port <;> simp [step, connAcceptUDPHandler, connAcceptSmartAVIHandler,
    connAcceptPedestrianHandler, connAcceptQuietly, netUdpAccept, hempty]

theorem conserved_accept (port : UdpPort) (d : Datagram) (memory : ℕ → UInt8)
    (h : s.Conserved) :
    (s.step (.accept port d memory)).Conserved ↔ d.bytes = [] := by
  constructor
  · intro hafter
    by_contra hne
    obtain ⟨n, hqueue, htaken⟩ := accept_adds (s := s) port memory (List.length_pos_iff.mpr hne)
    have hcount := List.Perm.count_eq hafter d.bytes
    have hbefore := List.Perm.count_eq h d.bytes
    rw [hqueue, htaken, List.count_append, List.count_append, List.count_singleton_self,
      List.count_eq_zero_of_not_mem (fun hmem => hne (List.eq_of_mem_replicate hmem))] at hcount
    omega
  · intro hempty
    rwa [accept_empty port memory hempty]

theorem conserved_receive (i : ℕ) (d : Datagram) (h : s.Conserved) :
    (s.step (.receive i d)).Conserved := by
  simp only [step]
  split
  · simp only [connReadFromClient]
    split_ifs
    · simp only [Conserved, commPacketEnqueue, List.map_append, List.map_singleton,
        udpRecv_bytes]
      exact List.Perm.append_right [d.bytes] h
    · exact h
  · exact h

theorem conserved_step (event : DatagramEvent) (h : s.Conserved) :
    (s.step event).Conserved ↔ s.NoFirstDatagram event := by
  cases event with
  | accept port d memory => exact conserved_accept port d memory h
  | receive i d => exact iff_of_true (conserved_receive i d h) trivial
  | receiveError i =>
      refine iff_of_true ?_ trivial
      simp only [step]
      split <;> exact h

theorem conserved_serving (dispatchComId : ℕ) (clients : List UdpClient) :
    (serving dispatchComId clients).Conserved :=
  List.Perm.refl []

/-- Of every sequence of datagrams to a server with any clients: the messages
queued are at every moment the datagrams read, one for one, exactly if no accept
handler reads a datagram of positive length. -/
theorem datagrams_conserved_iff (dispatchComId : ℕ) (clients : List UdpClient)
    (inputs : List DatagramEvent) :
    (∀ first, first <+: inputs → (run step (serving dispatchComId clients) first).Conserved) ↔
      Guarded step NoFirstDatagram (serving dispatchComId clients) inputs :=
  (guarded_iff_invariant (fun _ event h => conserved_step event h) inputs
    (conserved_serving dispatchComId clients)).symm

/-- The first datagram of a new sender: on the OBU port a message of length 0 takes
its place, on the two others there is none. -/
theorem first_datagram_lost :
    let d : Datagram := ⟨[7], 5000, by decide⟩
    let lost (port : UdpPort) := (serving 0 []).step (.accept port d fun _ => 0)
    (lost .obu).queue.map MsgObj.bytes = [[]] ∧ (lost .obu).taken = [[7]] ∧
      ¬ (lost .obu).Conserved ∧ (lost .smartAvi).queue.length = 0 ∧
      ¬ (lost .smartAvi).Conserved ∧ ¬ (lost .pedestrian).Conserved := by
  refine ⟨rfl, rfl, ?_, rfl, ?_, ?_⟩
  all_goals
    rw [conserved_accept _ _ _ (conserved_serving 0 [])]
    decide

end DatagramState

end AdaptiveSignal.Network
