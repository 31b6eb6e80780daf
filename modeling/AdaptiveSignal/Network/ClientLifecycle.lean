import AdaptiveSignal.Network.ClientDict
import AdaptiveSignal.Network.CommEvents
import AdaptiveSignal.Network.WriteEvents

/-! # The life of a client

A client is allocated when its connection is accepted, and freed when the
connection is found closed. The table of the event loop points to it, the
dictionary of the broker does, and so does every thread that is sending to it.
-/

namespace AdaptiveSignal.Network

open Foundation

inductive CommProc
  | acceptTCP
  | acceptUDP
  | acceptSmartAVI
  | acceptPedestrian
  | readTCP
  | readUDP
  | readSmartAVI
  | readPedestrian
  | writeTCP
  | writeUDP
  deriving DecidableEq

/-- What `clientData` points to; a client is named by its com id. -/
inductive ClientData
  | server
  | client (comId : ℕ)
  deriving DecidableEq

/-- `client_t`, as far as it is looked at here. -/
structure Connection where
  fd : ℕ
  transport : Transport

/-- Where a thread is in `com_send`, and the client it has found. -/
inductive ComSendPlace
  | outside
  | pushing (comId : ℕ)
  | registering (comId : ℕ)

/-- The client that a thread in `com_send` points to. -/
def ComSendPlace.client : ComSendPlace → Option ℕ
  | .outside => none
  | .pushing comId => some comId
  | .registering comId => some comId

structure ConnServer (Thread : Type*) where
  el : EventLoop CommProc ClientData
  /-- The clients that are not freed. -/
  clients : ℕ → Option Connection
  dispatchComId : ℕ
  clientDict : ClientDict
  sender : Thread → ComSendPlace
  /-- A client was used that is freed, or a handler called that does not fit. -/
  fault : Bool

/-- A descriptor for a new connection, and whether the kernel has no room to watch it. -/
structure NewSocket where
  cfd : ℕ
  full : Bool

inductive AcceptResult
  | nothing
  /-- The socket could not be made non-blocking, or the client not allocated. -/
  | aborted (cfd : ℕ)
  /-- `obu` is the further connection after a heartbeat. -/
  | accepted (socket : NewSocket) (obu : Option NewSocket)

def AcceptResult.isAborted : AcceptResult → Bool
  | .aborted _ => true
  | _ => false

/-- What the calls of a handler return. -/
structure HandlerResult where
  accept : AcceptResult
  /-- `tcp_recv` returns 0 or -1. -/
  closed : Bool
  /-- The ring of the client is empty after the sending. -/
  emptied : Bool

inductive LoopAction (Thread : Type*)
  /-- The loop comes to an event that `epoll_wait` has reported. -/
  | process (fd : ℕ) (fired : EventMask) (result : HandlerResult)
  | comSend (t : Thread) (comId : ℕ)
  | push (t : Thread)
  | register (t : Thread) (full : Bool)
  | comUnlink (comId : ℕ)

/-- A client cannot be set up. -/
def LoopAction.aborts {Thread : Type*} : LoopAction Thread → Bool
  | .process _ _ result => result.accept.isAborted
  | _ => false

namespace ConnServer

variable {Thread : Type*}

def faulty (s : ConnServer Thread) : ConnServer Thread := { s with fault := true }

/-- The client is used. -/
def use (s : ConnServer Thread) (comId : ℕ)
    (withClient : Connection → ConnServer Thread) : ConnServer Thread :=
  match s.clients comId with
  | some conn => withClient conn
  | none => s.faulty

def deleteEvent (s : ConnServer Thread) (fd : ℕ) (mask : EventMask) : ConnServer Thread :=
  { s with el := s.el.aeDeleteCommEvent fd mask }

def close (s : ConnServer Thread) (fd : ℕ) : ConnServer Thread :=
  { s with el := { s.el with kernel := s.el.kernel.close fd } }

def connFreeClient (s : ConnServer Thread) (comId : ℕ) : ConnServer Thread :=
  s.use comId fun conn =>
    let s := { s with clients := Function.update s.clients comId none }
    if 0 < conn.fd then
      ((s.deleteEvent conn.fd .readableOnly).deleteEvent conn.fd .writableOnly).close conn.fd
    else s

/-- `comm_dict_delete` and `conn_free_client`. -/
def dropClient (s : ConnServer Thread) (comId : ℕ) : ConnServer Thread :=
  { s with clientDict := commDictDelete s.clientDict comId }.connFreeClient comId

/-- A client for a new connection; the kernel hands out no descriptor that is open. -/
def addClient (s : ConnServer Thread) (socket : NewSocket) (transport : Transport)
    (proc : CommProc) : ConnServer Thread :=
  if s.el.kernel.isOpen socket.cfd then s
  else
    let comId := s.dispatchComId + 1
    let s := { s with
      el := { s.el with kernel := s.el.kernel.opened socket.cfd }
      clients := Function.update s.clients comId (some ⟨socket.cfd, transport⟩)
      dispatchComId := comId
      clientDict := commDictAdd s.clientDict comId comId }
    match s.el.aeCreateCommEvent socket.full socket.cfd .readableOnly proc (.client comId) with
    | (true, el) => { s with el := el }
    | (false, el) => { s with el := el }.dropClient comId

/-- The four handlers of the listening sockets. Where a client cannot be set up, they
close the socket they listen on and not the new one. -/
def connAccept (s : ConnServer Thread) (transport : Transport) (proc : CommProc) (fd : ℕ) :
    AcceptResult → ConnServer Thread
  | .nothing => s
  | .aborted cfd =>
      { s with el := { s.el with kernel := s.el.kernel.opened cfd } }.close fd
  | .accepted socket obu =>
      let s := s.addClient socket transport proc
      match proc, obu with
      | .readUDP, some second => s.addClient second transport proc
      | _, _ => s

def connWriteTCP (s : ConnServer Thread) (comId : ℕ) (emptied : Bool) : ConnServer Thread :=
  s.use comId fun conn =>
    let s := if emptied then s.deleteEvent conn.fd .writableOnly else s
    s.deleteEvent conn.fd .writableOnly

def connWriteUDP (s : ConnServer Thread) (comId : ℕ) (emptied : Bool) : ConnServer Thread :=
  s.use comId fun conn => if emptied then s.deleteEvent conn.fd .writableOnly else s

/-- A handler called with what the table has for it. -/
def call (s : ConnServer Thread) (fd : ℕ) (result : HandlerResult) :
    Option CommProc → Option ClientData → ConnServer Thread
  | some .acceptTCP, some .server => s.connAccept .tcp .readTCP fd result.accept
  | some .acceptUDP, some .server => s.connAccept .udp .readUDP fd result.accept
  | some .acceptSmartAVI, some .server => s.connAccept .udp .readSmartAVI fd result.accept
  | some .acceptPedestrian, some .server => s.connAccept .udp .readPedestrian fd result.accept
  | some .readTCP, some (.client comId) =>
      s.use comId fun _ => if result.closed then s.dropClient comId else s
  | some .readUDP, some (.client comId) => s.use comId fun _ => s
  | some .readSmartAVI, some (.client comId) => s.use comId fun _ => s
  | some .readPedestrian, some (.client comId) => s.use comId fun _ => s
  | some .writeTCP, some (.client comId) => s.connWriteTCP comId result.emptied
  | some .writeUDP, some (.client comId) => s.connWriteUDP comId result.emptied
  | _, _ => s.faulty

def processWritable (s : ConnServer Thread) (fd : ℕ) (fired : EventMask) (result : HandlerResult) :
    ConnServer Thread :=
  let ce := s.el.events fd
  if (ce.mask.inter fired).writable ∧ ce.wCommProc ≠ ce.rCommProc then
    s.call fd result ce.wCommProc ce.clientData
  else s

def processReadable (s : ConnServer Thread) (fd : ℕ) (fired : EventMask) (result : HandlerResult) :
    ConnServer Thread :=
  let ce := s.el.events fd
  if (ce.mask.inter fired).readable then s.call fd result ce.rCommProc ce.clientData else s

/-- The body of the loop over the events that have fired. -/
def process (s : ConnServer Thread) (fd : ℕ) (fired : EventMask) (result : HandlerResult) :
    ConnServer Thread :=
  (s.processWritable fd fired result).processReadable fd fired result

section Sending

variable [DecidableEq Thread]

def moveTo (s : ConnServer Thread) (t : Thread) (p : ComSendPlace) : ConnServer Thread :=
  { s with sender := Function.update s.sender t p }

def writeProc : Transport → CommProc
  | .tcp => .writeTCP
  | .udp => .writeUDP

/-- The next part of `com_send`: looking the client up, pushing on its ring, or
registering it. -/
def step (s : ConnServer Thread) : LoopAction Thread → ConnServer Thread
  | .process fd fired result => s.process fd fired result
  | .comSend t comId =>
      match s.sender t, commDictFind s.clientDict comId with
      | .outside, some client => s.moveTo t (.pushing client)
      | _, _ => s
  | .push t =>
      match s.sender t with
      | .pushing client => s.use client fun _ => s.moveTo t (.registering client)
      | _ => s
  | .register t full =>
      match s.sender t with
      | .registering client => s.use client fun conn =>
          let s := s.moveTo t .outside
          match s.el.aeCreateCommEvent full conn.fd .writableOnly (writeProc conn.transport)
            (.client client) with
          | (true, el) => { s with el := el }
          | (false, el) => { s with el := el }.dropClient client
      | _ => s
  | .comUnlink comId =>
      match commDictFind s.clientDict comId with
      | some client => s.dropClient client
      | none => s

end Sending

/-! ## The start of the server -/

def setsize : ℕ := 1024

/-- The listening sockets are open, and so are the three descriptors of every process. -/
def listenOn (sockets : List (ℕ × CommProc)) : ConnServer Thread where
  el := sockets.foldl
    (fun el socket =>
      (el.aeCreateCommEvent false socket.1 .readableOnly socket.2 .server).2)
    { maxfd := -1
      setsize := setsize
      events := fun _ => ⟨.none, none, none, none⟩
      kernel := ⟨fun fd => fd < 3 || fd ∈ sockets.map Prod.fst, fun _ => none⟩ }
  clients := fun _ => none
  dispatchComId := 0
  clientDict := .empty
  sender := fun _ => .outside
  fault := false

def listeners (listenTCP listenUDP listenSmartAVI listenPedestrian : ℕ) : List (ℕ × CommProc) :=
  [(listenTCP, .acceptTCP), (listenUDP, .acceptUDP), (listenSmartAVI, .acceptSmartAVI),
    (listenPedestrian, .acceptPedestrian)]

def initServer (listenTCP listenUDP listenSmartAVI listenPedestrian : ℕ) : ConnServer Thread :=
  listenOn (listeners listenTCP listenUDP listenSmartAVI listenPedestrian)

end ConnServer

end AdaptiveSignal.Network
