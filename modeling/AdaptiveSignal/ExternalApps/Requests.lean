import AdaptiveSignal.Foundation.LittleEndian
import AdaptiveSignal.Pedestrian.SocketReceiver

/-! # Bytes that external applications hand over

A registered application writes its requests to a stream of its own: a header, a fixed part
that begins with a length, and the bytes to be sent. The proxy receives each of the three
with one `recv`, and asks for as many bytes as the length field has, not for as many as the
field says.
-/

namespace AdaptiveSignal.ExternalApps

open Foundation
open Pedestrian (Connection received)

/-! ## Requests -/

/-- The calls that hand over bytes. -/
inductive Api
  | cloudPacketTx
  | obuJ2735Tx
  | obuPacketTx
  | remoteComSend
  deriving DecidableEq, Repr

namespace Api

/-- `API_ID_OF`. -/
def id : Api → ℕ
  | cloudPacketTx => 4
  | obuJ2735Tx => 5
  | obuPacketTx => 6
  | remoteComSend => 7

def ofId : ℕ → Option Api
  | 4 => some cloudPacketTx
  | 5 => some obuJ2735Tx
  | 6 => some obuPacketTx
  | 7 => some remoteComSend
  | _ => none

/-- `sizeof` of the length field, a `uint16_t` or a `size_t`. -/
def lenSize : Api → ℕ
  | cloudPacketTx => 2
  | obuJ2735Tx | obuPacketTx | remoteComSend => 8

/-- `sizeof(payload)`. For the cloud a service id and a byte of padding follow the length. -/
def payloadSize : Api → ℕ
  | cloudPacketTx => 4
  | obuJ2735Tx | obuPacketTx | remoteComSend => 8

@[simp] theorem ofId_id (api : Api) : ofId api.id = some api := by
  cases api <;> rfl

theorem id_range (api : Api) : 3 < api.id ∧ api.id < 40 := by
  cases api <;> decide

theorem lenSize_le (api : Api) : api.lenSize ≤ api.payloadSize := by
  cases api <;> decide

theorem lenSize_pos (api : Api) : 0 < api.lenSize := by
  cases api <;> decide

end Api

/-- `GENERAL_COM_ID`. -/
def generalComId : ℕ := 0

/-- What a wrapper calls. -/
inductive ApiCall
  | cloudPacketTx (len : ℕ) (serviceId : UInt8) (specificField : List UInt8)
  | comSend (comId : ℕ) (buf : List UInt8) (sendLen : ℕ)
  deriving DecidableEq

/-- The applications encode what they send to a vehicle themselves, so that the other
wrappers only pass it on. -/
def Api.call (api : Api) (len : ℕ) (serviceId : UInt8) (buf : List UInt8) : ApiCall :=
  match api with
  | cloudPacketTx => .cloudPacketTx len serviceId buf
  | obuJ2735Tx | obuPacketTx | remoteComSend => .comSend generalComId buf len

/-! ## The proxy -/

/-- `sizeof(packet_header_to_proxy_t)`. -/
def headerSize : ℕ := 12

def eaPacketTypeReq : ℕ := 3

def eaPacketTypeReport : ℕ := 7

/-- What the proxy does with a packet. -/
inductive Handled
  | disconnected
  | badPacketType
  | heartbeat (appId : ℕ)
  | badApiId (apiId : ℕ)
  | otherApi (apiId : ℕ)
  /-- A wrapper makes its call, unless the stream ends. -/
  | request (api : Api) (call : Option ApiCall)
  deriving DecidableEq

section Proxy

variable (cuts : ℕ → ℕ) (stale : ℕ → ℕ → UInt8)

/-- The four wrappers. The buffer has room for `len` bytes; what was not received into it
is as it was before. -/
def apiWrapper (api : Api) (c : Connection) : Option ApiCall × Connection :=
  let (payload, c') := c.recv cuts api.payloadSize
  if payload = [] then (none, c')
  else
    let field := received payload (stale c.recvs)
    let len := fieldAt api.lenSize field 0
    -- `sizeof(payload.len)`, not `payload.len`: a longer buffer is left unfilled behind
    -- these bytes, and a shorter one is overrun
    let (chunk, c'') := c'.recv cuts api.lenSize
    if chunk = [] then (none, c'')
    else
      let buf := (List.range len).map (received chunk (stale c'.recvs))
      (some (api.call len (field 2) buf), c'')

variable (others : ℕ → Connection → Connection)

/-- `handle_registered_client_packet`, where `others` reads what the wrappers of the
remaining calls do. -/
def handleRegisteredClientPacket (c : Connection) : Handled × Connection :=
  let (chunk, c') := c.recv cuts headerSize
  if chunk = [] then (.disconnected, c')
  else
    let header := received chunk (stale c.recvs)
    let packetType := fieldAt 4 header 0
    let apiId := fieldAt 4 header 4
    let appId := fieldAt 4 header 8
    if packetType ≠ eaPacketTypeReq ∧ packetType ≠ eaPacketTypeReport then (.badPacketType, c')
    else if packetType = eaPacketTypeReport then (.heartbeat appId, c')
    else if apiId ≤ 2 ∨ 40 ≤ apiId then (.badApiId apiId, c')
    else
      match Api.ofId apiId with
      | none => (.otherApi apiId, others apiId c')
      | some api =>
          let (call, c'') := apiWrapper cuts stale api c'
          (.request api call, c'')

end Proxy

/-! ## Requests as they are sent -/

/-- A request of an application, with any number of bytes that its length field can say.
`fields` is what follows the length in the fixed part. -/
structure Request where
  api : Api
  appId : UInt32
  fields : List UInt8
  payload : List UInt8
  fields_length : api.lenSize + fields.length = api.payloadSize
  fits : payload.length < 256 ^ api.lenSize

namespace Request

def header (request : Request) : List UInt8 :=
  littleEndian 4 eaPacketTypeReq ++ littleEndian 4 request.api.id ++
    littleEndian 4 request.appId.toNat

def fixedPart (request : Request) : List UInt8 :=
  littleEndian request.api.lenSize request.payload.length ++ request.fields

def bytes (request : Request) : List UInt8 :=
  request.header ++ (request.fixedPart ++ request.payload)

/-- What the proxy is to call. -/
def call (request : Request) : ApiCall :=
  request.api.call request.payload.length (request.fields.getD 0 0) request.payload

end Request

def streamOf (requests : List Request) : List UInt8 :=
  requests.flatMap Request.bytes

/-! ## What is asked of the proxy -/

section Transmits

variable (cuts : ℕ → ℕ) (stale : ℕ → ℕ → UInt8) (others : ℕ → Connection → Connection)

/-- A request is transmitted: it is read from its own first byte, its wrapper consumes the
fixed part and the bytes behind it and nothing else, and the buffer of the call are those
bytes. -/
structure Transmits (request : Request) (behind : List UInt8) (c : Connection) : Prop where
  starts : c.unread = request.bytes ++ behind
  enters : (c.recv cuts headerSize).2.unread = request.fixedPart ++ request.payload ++ behind
  buffer : (((c.recv cuts headerSize).2.recv cuts request.api.payloadSize).2.recv cuts
    request.api.lenSize).1 = request.payload
  leaves : (handleRegisteredClientPacket cuts stale others c).2.unread = behind
  calls : (handleRegisteredClientPacket cuts stale others c).1 =
    .request request.api (some request.call)

/-- Every request of a sequence is transmitted, one after the other. -/
def TransmitsAll : Connection → List Request → Prop
  | _, [] => True
  | c, request :: rest =>
      Transmits cuts stale others request (streamOf rest) c ∧
        TransmitsAll (handleRegisteredClientPacket cuts stale others c).2 rest

/-- What has arrived at the three calls of `recv` for a request, counted from `recvs` on:
the header, the fixed part, and as many bytes as the wrapper may ask for. -/
structure Arrives (recvs : ℕ) (request : Request) (behind : ℕ) : Prop where
  header : headerSize ≤ cuts recvs + 1
  fixedPart : request.api.payloadSize ≤ cuts (recvs + 1) + 1
  payload : request.payload.length ≤ cuts (recvs + 2) + 1
  nonempty : 1 ≤ request.payload.length
  small : request.payload.length ≤ request.api.lenSize
  /-- With fewer bytes than the length field has, nothing else has arrived. -/
  alone : request.payload.length = request.api.lenSize ∨
    cuts (recvs + 2) + 1 = request.payload.length ∨ behind = 0

/-- So have all requests of a sequence, with three calls of `recv` for each. -/
def ArriveAll : ℕ → List Request → Prop
  | _, [] => True
  | recvs, request :: rest =>
      Arrives cuts recvs request (streamOf rest).length ∧ ArriveAll (recvs + 3) rest

end Transmits

/-! ## Parts of a stream -/

section Parts

variable {cuts : ℕ → ℕ} {c : Connection} {part behind : List UInt8} {len : ℕ}

/-- A part that comes next is received as it is if `recv` hands over so many bytes. -/
theorem recv_part (hunread : c.unread = part ++ behind)
    (hlength : min (c.handed cuts len) (part.length + behind.length) = part.length) :
    c.recv cuts len = (part, ⟨behind, c.recvs + 1⟩) := by
  rw [Connection.recv, hunread]
  rcases Nat.le_total (c.handed cuts len) part.length with hle | hle
  · have hexact : c.handed cuts len = part.length := by omega
    rw [hexact, List.take_left, List.drop_left]
  · rcases Nat.eq_or_lt_of_le hle with hexact | hmore
    · rw [← hexact, List.take_left, List.drop_left]
    · have hend : behind = [] := List.length_eq_zero_iff.mp (by omega)
      rw [hend, List.append_nil, List.take_of_length_le hle, List.drop_eq_nil_of_le hle]

theorem recv_left_iff (hunread : c.unread = part ++ behind) :
    (c.recv cuts len).1 = part ↔ (c.recv cuts len).2.unread = behind := by
  have happend := Connection.recv_append cuts c len
  rw [hunread] at happend
  constructor
  · intro hpart
    rw [hpart] at happend
    exact List.append_cancel_left happend
  · intro hbehind
    rw [hbehind] at happend
    exact List.append_cancel_right happend

/-- What `recv` hands over is the part that comes next only if it is so long. -/
theorem handed_of_recv (hunread : c.unread = part ++ behind)
    (hpart : (c.recv cuts len).1 = part) :
    min (c.handed cuts len) (part.length + behind.length) = part.length := by
  have hlength := congrArg List.length hpart
  rw [Connection.recv, hunread, List.length_take, List.length_append] at hlength
  exact hlength

/-- The part that comes next is received as it is exactly if `recv` hands over so many
bytes. -/
theorem recv_eq_iff (cuts : ℕ → ℕ) (len : ℕ) (c : Connection)
    (hunread : c.unread = part ++ behind) :
    c.recv cuts len = (part, ⟨behind, c.recvs + 1⟩) ↔
      min (min len (cuts c.recvs + 1)) (part.length + behind.length) = part.length :=
  ⟨fun heq => handed_of_recv hunread (congrArg Prod.fst heq), recv_part hunread⟩

theorem recv_eq (hunread : c.unread = part ++ behind) (hpart : (c.recv cuts len).1 = part) :
    c.recv cuts len = (part, ⟨behind, c.recvs + 1⟩) :=
  recv_part hunread (handed_of_recv hunread hpart)

end Parts

namespace Request

variable (request : Request)

@[simp] theorem length_header : request.header.length = headerSize := by
  simp [header, headerSize]

@[simp] theorem length_fixedPart : request.fixedPart.length = request.api.payloadSize := by
  rw [fixedPart, List.length_append, length_littleEndian, request.fields_length]

theorem header_ne_nil : request.header ≠ [] := by
  intro hnil
  have hlength := request.length_header
  rw [hnil] at hlength
  cases hlength

theorem fixedPart_ne_nil : request.fixedPart ≠ [] := by
  intro hnil
  have hlength := request.length_fixedPart
  have hpos := request.api.lenSize_pos
  have hle := request.api.lenSize_le
  rw [hnil, List.length_nil] at hlength
  omega

end Request

/-! ## One request -/

section Handles

variable {cuts : ℕ → ℕ} {stale : ℕ → ℕ → UInt8} {others : ℕ → Connection → Connection}
  {c : Connection} {request : Request}

/-- A number in a chunk that was received as it is. -/
theorem fieldAt_chunk {width value : ℕ} (hfits : value < 256 ^ width) {chunk : List UInt8}
    (before behind : List UInt8) (hchunk : chunk = before ++ littleEndian width value ++ behind)
    (stale : ℕ → UInt8) : fieldAt width (received chunk stale) before.length = value := by
  rw [hchunk]
  exact fieldAt_received hfits before behind stale

/-- A whole header leads to the wrapper. -/
theorem handle_header {next : Connection}
    (hheader : c.recv cuts headerSize = (request.header, next)) :
    handleRegisteredClientPacket cuts stale others c =
      (.request request.api (apiWrapper cuts stale request.api next).1,
        (apiWrapper cuts stale request.api next).2) := by
  have hid := request.api.id_range
  have htype : fieldAt 4 (received request.header (stale c.recvs)) 0 = eaPacketTypeReq :=
    fieldAt_chunk (by decide) [] _ (List.append_assoc _ _ _) _
  have hapi : fieldAt 4 (received request.header (stale c.recvs)) 4 = request.api.id :=
    fieldAt_chunk (by omega) (littleEndian 4 eaPacketTypeReq) _ rfl _
  unfold handleRegisteredClientPacket
  rw [hheader]
  dsimp only
  rw [if_neg request.header_ne_nil, htype, hapi, if_neg (by simp), if_neg (by decide),
    if_neg (by omega), Api.ofId_id]

/-- The service id follows the length; only the cloud is given one. -/
theorem call_serviceId (len : ℕ) (buf : List UInt8) (stale : ℕ → UInt8) :
    request.api.call len (received request.fixedPart stale 2) buf =
      request.api.call len (request.fields.getD 0 0) buf := by
  obtain ⟨api, appId, fields, payload, hfields, hfits⟩ := request
  cases api with
  | cloudPacketTx =>
      have hfirst : 0 < fields.length := by
        change 2 + fields.length = 4 at hfields
        omega
      have hservice : received (littleEndian 2 payload.length ++ fields) stale 2 =
          fields.getD 0 0 := by
        rw [received, List.getD_append_right _ _ _ _ (length_littleEndian _ _).le,
          length_littleEndian, Nat.sub_self, List.getD_eq_getElem _ _ hfirst,
          List.getD_eq_getElem _ _ hfirst]
      exact congrArg (ApiCall.cloudPacketTx len · buf) hservice
  | obuJ2735Tx => rfl
  | obuPacketTx => rfl
  | remoteComSend => rfl

/-- The wrapper reads the length and the fields of a whole fixed part. -/
theorem apiWrapper_fixedPart {next : Connection}
    (hfixed : c.recv cuts request.api.payloadSize = (request.fixedPart, next)) :
    apiWrapper cuts stale request.api c =
      if (next.recv cuts request.api.lenSize).1 = [] then
        (none, (next.recv cuts request.api.lenSize).2)
      else
        (some (request.api.call request.payload.length (request.fields.getD 0 0)
          ((List.range request.payload.length).map
            (received (next.recv cuts request.api.lenSize).1 (stale next.recvs)))),
          (next.recv cuts request.api.lenSize).2) := by
  have hlen : fieldAt request.api.lenSize (received request.fixedPart (stale c.recvs)) 0 =
      request.payload.length :=
    fieldAt_chunk request.fits [] request.fields rfl _
  unfold apiWrapper
  rw [hfixed]
  dsimp only
  rw [if_neg request.fixedPart_ne_nil, hlen, call_serviceId]

/-- A wrapper that receives anything leaves the connection to what its second `recv` does. -/
theorem apiWrapper_snd (stale : ℕ → ℕ → UInt8) {api : Api}
    (hchunk : (c.recv cuts api.payloadSize).1 ≠ []) :
    (apiWrapper cuts stale api c).2 =
      ((c.recv cuts api.payloadSize).2.recv cuts api.lenSize).2 := by
  unfold apiWrapper
  dsimp only
  rw [if_neg hchunk]
  split_ifs <;> rfl

/-- A wrapper that receives the bytes behind the fixed part into its buffer calls with
them. -/
theorem apiWrapper_payload {next : Connection}
    (hfixed : c.recv cuts request.api.payloadSize = (request.fixedPart, next))
    (hpayload : (next.recv cuts request.api.lenSize).1 = request.payload)
    (hnonempty : request.payload ≠ []) :
    (apiWrapper cuts stale request.api c).1 = some request.call := by
  have hbuf := map_getD_range [] request.payload [] (stale next.recvs)
  simp only [List.nil_append, List.append_nil, List.length_nil, Nat.zero_add] at hbuf
  rw [apiWrapper_fixedPart hfixed, hpayload, if_neg hnonempty, Request.call]
  exact congrArg (fun buf => some (request.api.call _ _ buf)) hbuf

/-- What the calls of `recv` for a request return while it is transmitted. -/
structure ReceivesParts (cuts : ℕ → ℕ) (request : Request) (behind : List UInt8)
    (c : Connection) : Prop where
  header : c.recv cuts headerSize = (request.header,
    ⟨request.fixedPart ++ (request.payload ++ behind), c.recvs + 1⟩)
  fixedPart : Connection.recv cuts ⟨request.fixedPart ++ (request.payload ++ behind), c.recvs + 1⟩
    request.api.payloadSize = (request.fixedPart, ⟨request.payload ++ behind, c.recvs + 2⟩)
  payload : Connection.recv cuts ⟨request.payload ++ behind, c.recvs + 2⟩ request.api.lenSize =
    (request.payload, ⟨behind, c.recvs + 3⟩)
  nonempty : request.payload ≠ []

variable {behind : List UInt8}

theorem ReceivesParts.handles (hparts : ReceivesParts cuts request behind c) :
    handleRegisteredClientPacket cuts stale others c =
      (.request request.api (some request.call), ⟨behind, c.recvs + 3⟩) := by
  obtain ⟨hheader, hfixed, hpayload, hnonempty⟩ := hparts
  have hexit := apiWrapper_snd stale
    (ne_of_eq_of_ne (congrArg Prod.fst hfixed) request.fixedPart_ne_nil)
  rw [hfixed] at hexit
  rw [handle_header hheader,
    apiWrapper_payload hfixed (congrArg Prod.fst hpayload) hnonempty, hexit]
  exact congrArg (fun received => (_, received.2)) hpayload

theorem unread_parts (hunread : c.unread = request.bytes ++ behind) :
    c.unread = request.header ++ (request.fixedPart ++ (request.payload ++ behind)) := by
  rw [hunread, Request.bytes, List.append_assoc, List.append_assoc]

/-- A wrapper that leaves what is behind the request, with its bytes in the buffer, has
received the fixed part before. -/
theorem recv_fixedPart (entry : Connection)
    (hentered : entry.unread = request.fixedPart ++ (request.payload ++ behind))
    (hbuffer : ((entry.recv cuts request.api.payloadSize).2.recv cuts request.api.lenSize).1 =
      request.payload)
    (hleaves : (apiWrapper cuts stale request.api entry).2.unread = behind) :
    entry.recv cuts request.api.payloadSize =
      (request.fixedPart, ⟨request.payload ++ behind, entry.recvs + 1⟩) := by
  have hpos := request.api.lenSize_pos
  have hle := request.api.lenSize_le
  have hchunk : (entry.recv cuts request.api.payloadSize).1 ≠ [] := by
    rw [ne_eq, Connection.recv_eq_nil_iff cuts entry (by omega), hentered]
    exact List.append_ne_nil_of_left_ne_nil request.fixedPart_ne_nil _
  rw [apiWrapper_snd stale hchunk] at hleaves
  -- before the second `recv` the payload and what is behind it are left
  have hrest := Connection.recv_append cuts (entry.recv cuts request.api.payloadSize).2
    request.api.lenSize
  rw [hbuffer, hleaves] at hrest
  exact recv_eq hentered ((recv_left_iff hentered).mpr hrest.symm)

theorem Transmits.receivesParts (htransmits : Transmits cuts stale others request behind c) :
    ReceivesParts cuts request behind c := by
  obtain ⟨hunread, henters, hbuffer, hleaves, hcalls⟩ := htransmits
  have hstart := unread_parts hunread
  rw [List.append_assoc] at henters
  have hheader := recv_eq hstart ((recv_left_iff hstart).mpr henters)
  rw [handle_header hheader] at hleaves hcalls
  rw [hheader] at hbuffer
  have hfixed := recv_fixedPart ⟨_, c.recvs + 1⟩ rfl hbuffer hleaves
  dsimp only at hbuffer hcalls
  rw [hfixed] at hbuffer
  refine ⟨hheader, hfixed, recv_eq rfl hbuffer, fun hempty => ?_⟩
  -- without any bytes the second `recv` returns nothing, and no call is made
  rw [apiWrapper_fixedPart hfixed, if_pos (hbuffer.trans hempty)] at hcalls
  cases hcalls

theorem ReceivesParts.transmits (hunread : c.unread = request.bytes ++ behind)
    (hparts : ReceivesParts cuts request behind c) :
    Transmits cuts stale others request behind c := by
  have hhandles : handleRegisteredClientPacket cuts stale others c = _ := hparts.handles
  obtain ⟨hheader, hfixed, hpayload, -⟩ := hparts
  refine ⟨hunread, ?_, ?_, ?_, ?_⟩
  · rw [hheader, List.append_assoc]
  · rw [hheader]
    dsimp only
    rw [hfixed]
    exact congrArg Prod.fst hpayload
  · rw [hhandles]
  · rw [hhandles]

/-- A request is transmitted exactly if each `recv` returns the part that it is for. -/
theorem transmits_iff_parts (hunread : c.unread = request.bytes ++ behind) :
    Transmits cuts stale others request behind c ↔ ReceivesParts cuts request behind c :=
  ⟨Transmits.receivesParts, ReceivesParts.transmits hunread⟩

/-- Each `recv` returns its part exactly if the parts arrive alone. -/
theorem receivesParts_iff (hunread : c.unread = request.bytes ++ behind) :
    ReceivesParts cuts request behind c ↔ Arrives cuts c.recvs request behind.length := by
  have hstart := unread_parts hunread
  have hpos := request.api.lenSize_pos
  have hle := request.api.lenSize_le
  have hheader := recv_eq_iff cuts headerSize c hstart
  have hfixed := recv_eq_iff cuts request.api.payloadSize
    ⟨request.fixedPart ++ (request.payload ++ behind), c.recvs + 1⟩ rfl
  have hpayload := recv_eq_iff cuts request.api.lenSize
    ⟨request.payload ++ behind, c.recvs + 2⟩ rfl
  simp only [List.length_append, Request.length_header, Request.length_fixedPart] at *
  constructor
  · rintro ⟨hheader', hfixed', hpayload', hnonempty⟩
    have := List.length_pos_of_ne_nil hnonempty
    have := hheader.mp hheader'
    have := hfixed.mp hfixed'
    have := hpayload.mp hpayload'
    constructor <;> omega
  · rintro ⟨hheader', hfixed', hpayload', hnonempty, hsmall, halone⟩
    refine ⟨hheader.mpr (by omega), hfixed.mpr (by omega), hpayload.mpr (by omega), ?_⟩
    exact List.ne_nil_of_length_pos hnonempty

end Handles

/-! ## Sequences of requests -/

/-- The requests of a sequence are transmitted one after the other exactly if their parts
arrive alone, each with no more bytes than its length field has. -/
theorem transmitsAll_iff (cuts : ℕ → ℕ) (stale : ℕ → ℕ → UInt8)
    (others : ℕ → Connection → Connection) (requests : List Request) (recvs : ℕ) :
    TransmitsAll cuts stale others ⟨streamOf requests, recvs⟩ requests ↔
      ArriveAll cuts recvs requests := by
  induction requests generalizing recvs with
  | nil => exact Iff.rfl
  | cons request rest ih =>
      have hunread : (⟨streamOf (request :: rest), recvs⟩ : Connection).unread =
          request.bytes ++ streamOf rest := List.flatMap_cons
      rw [TransmitsAll, ArriveAll, transmits_iff_parts hunread, receivesParts_iff hunread]
      refine and_congr_right fun harrives => ?_
      rw [((receivesParts_iff hunread).mpr harrives).handles, ih]

/-- Nine bytes for another device. -/
def nineBytes : Request where
  api := .remoteComSend
  appId := 1
  fields := []
  payload := [1, 2, 3, 4, 5, 6, 7, 8, 9]
  fields_length := rfl
  fits := by decide

/-- Eight of nine bytes are received, whatever has arrived, and the ninth begins the next
packet. -/
theorem ninth_byte_left :
    handleRegisteredClientPacket (fun _ => 99) (fun _ _ => 0) (fun _ c => c)
        ⟨streamOf [nineBytes], 0⟩ =
      (.request .remoteComSend (some (.comSend 0 [1, 2, 3, 4, 5, 6, 7, 8, 0] 9)), ⟨[9], 3⟩) ∧
    ¬ TransmitsAll (fun _ => 99) (fun _ _ => 0) (fun _ c => c) ⟨streamOf [nineBytes], 0⟩
      [nineBytes] := by
  have hhandles : handleRegisteredClientPacket (fun _ => 99) (fun _ _ => 0) (fun _ c => c)
      ⟨streamOf [nineBytes], 0⟩ =
      (.request .remoteComSend (some (.comSend 0 [1, 2, 3, 4, 5, 6, 7, 8, 0] 9)), ⟨[9], 3⟩) := by
    decide
  refine ⟨hhandles, fun htransmits => ?_⟩
  have hleaves := htransmits.1.leaves
  rw [hhandles] at hleaves
  exact absurd hleaves (by decide)

end AdaptiveSignal.ExternalApps
