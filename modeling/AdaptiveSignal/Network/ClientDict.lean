import AdaptiveSignal.Foundation.HashTable
import AdaptiveSignal.Foundation.Run
import AdaptiveSignal.Network.ClientBuffer
import Mathlib.Tactic.NormNum

/-! # Com ids and the client dictionary

Every accepted connection is given the next com id, which is the key of its
client in the dictionary of the broker and the handle of the messages it sends.
The key is a string of at most three digits and the handle an octet, while the
com ids grow without bound. A reply goes to the com id that the dispatcher keeps
from the message it dequeued last.
-/

namespace AdaptiveSignal.Network

open Foundation

/-! ## The dictionary -/

/-- `dictGenHashFunction` on the bytes of the key. -/
def callbackHash (key : List Char) : ℕ :=
  (key.foldl (fun (hash : UInt32) c => (hash <<< 5) + hash + UInt32.ofNat c.toNat) 5381).toNat

/-- The digits of a com id, in a string of four bytes. -/
def comKey (comId : ℕ) : List Char := (Nat.toDigits 10 comId).take 3

/-- A client is named by the com id it was given. -/
abbrev ClientDict := HashTable (List Char) ℕ

def commDictAdd (ht : ClientDict) (client comId : ℕ) : ClientDict :=
  (ht.add callbackHash (comKey comId) client).2

def commDictDelete (ht : ClientDict) (comId : ℕ) : ClientDict :=
  (ht.delete callbackHash (comKey comId)).2

def commDictFind (ht : ClientDict) (comId : ℕ) : Option ℕ :=
  ht.find callbackHash (comKey comId)

theorem comKey_of_lt {id : ℕ} (hid : id < 1000) : comKey id = Nat.toDigits 10 id :=
  List.take_of_length_le ((Nat.length_toDigits_le_iff (by decide) (by decide)).mpr hid)

theorem comKey_injective {id other : ℕ} (hid : id < 1000) (hother : other < 1000)
    (hkey : comKey id = comKey other) : id = other := by
  rw [comKey_of_lt hid, comKey_of_lt hother] at hkey
  rw [← Nat.ofDigitChars_ten_toDigits (n := id), hkey, Nat.ofDigitChars_ten_toDigits]

/-- The key of a com id below 100 is the key of no other com id, however large. -/
theorem comKey_short {id other : ℕ} (hother : other < 100) (hkey : comKey id = comKey other) :
    id = other := by
  have hlength : (comKey id).length ≤ 2 := by
    rw [hkey, comKey_of_lt (by omega)]
    exact (Nat.length_toDigits_le_iff (by decide) (by decide)).mpr hother
  have hid : id < 10 ^ 2 := by
    rw [← Nat.length_toDigits_le_iff (by decide) (by decide)]
    rw [comKey, List.length_take] at hlength
    omega
  exact comKey_injective (by omega) (by omega) hkey

/-- A fourth digit is cut off. -/
theorem comKey_div {id : ℕ} (hid : 1000 ≤ id) : comKey id = comKey (id / 10) := by
  have hlength : ¬ (Nat.toDigits 10 (id / 10)).length ≤ 2 := by
    rw [Nat.length_toDigits_le_iff (by decide) (by decide)]
    omega
  rw [comKey, Nat.toDigits_of_base_le (by decide) (by omega), List.take_append_of_le_length,
    comKey]
  omega

/-! ## Connections and messages -/

/-- A message in the queue, and the com id of the client that sent it. -/
structure Sent where
  sender : ℕ
  obj : MsgObj

structure CommServer where
  dispatchComId : ℕ
  /-- The com ids of the open connections. -/
  opened : List ℕ
  clientDict : ClientDict
  msgQueue : List Sent
  cloudComId : UInt8
  OBUComId : UInt8
  heartbeatComId : UInt8
  AVIComId : UInt8
  pedestrianId : UInt8
  /-- The senders of the messages dequeued, each with the com id of its reply. -/
  replies : List (ℕ × UInt8)

inductive ServerEvent
  | accept
  /-- The read handler of a connection finds it closed. -/
  | disconnect (comId : ℕ)
  /-- The read handler of a connection, or the accept handler right after it opened
  the connection, enqueues what is in its buffer. -/
  | message (comId : ℕ) (buf : Buffer) (fromType : UInt8)
  | dispatch
  | comUnlink (comId : ℕ)

/-- The packet length is that of a heartbeat, and the service id is 0. -/
def isHeartbeat (msg : MsgObj) : Bool :=
  (msg.msg 0).toNat * 2 ^ 24 + (msg.msg 1).toNat * 2 ^ 16 + (msg.msg 2).toNat * 2 ^ 8 +
    (msg.msg 3).toNat = 512 ∧ msg.msg 4 = 0

namespace CommServer

def initial : CommServer where
  dispatchComId := 0
  opened := []
  clientDict := .empty
  msgQueue := []
  cloudComId := 0
  OBUComId := 0
  heartbeatComId := 0
  AVIComId := 0
  pedestrianId := 0
  replies := []

def connAccept (s : CommServer) : CommServer :=
  let comId := s.dispatchComId + 1
  { s with
    dispatchComId := comId
    opened := s.opened ++ [comId]
    clientDict := commDictAdd s.clientDict comId comId }

/-- The client leaves the dictionary and is freed. -/
def connFreeClient (s : CommServer) (client : ℕ) : CommServer :=
  { s with
    opened := s.opened.filter (· ≠ client)
    clientDict := commDictDelete s.clientDict client }

def commPacketEnqueue (s : CommServer) (client : ℕ) (buf : Buffer) (fromType : UInt8) :
    CommServer :=
  { s with
    msgQueue := s.msgQueue ++ [⟨client, msgObjCreate buf fromType (UInt8.ofNat client)⟩] }

/-- The com id of the sender is kept, by the kind of the message. -/
def dispatcherHandler (s : CommServer) (msg : Sent) : CommServer :=
  let handleId := msg.obj.handleId
  if msg.obj.deviceId = fromCloud then
    { s with cloudComId := handleId, replies := s.replies ++ [(msg.sender, handleId)] }
  else if msg.obj.deviceId = fromDsrc then
    if isHeartbeat msg.obj then
      { s with heartbeatComId := handleId, replies := s.replies ++ [(msg.sender, handleId)] }
    else
      { s with OBUComId := handleId, replies := s.replies ++ [(msg.sender, handleId)] }
  else if msg.obj.deviceId = fromSmartAvi then { s with AVIComId := handleId }
  else if msg.obj.deviceId = fromPedestrian then { s with pedestrianId := handleId }
  else s

def step (s : CommServer) : ServerEvent → CommServer
  | .accept => s.connAccept
  | .disconnect comId => if comId ∈ s.opened then s.connFreeClient comId else s
  | .message comId buf fromType =>
      if comId ∈ s.opened then s.commPacketEnqueue comId buf fromType else s
  | .dispatch =>
      match s.msgQueue with
      | [] => s
      | msg :: rest => { s with msgQueue := rest }.dispatcherHandler msg
  | .comUnlink comId =>
      match commDictFind s.clientDict comId with
      | none => s
      | some client => s.connFreeClient client

/-! ## What a dictionary should find -/

/-- The client of a com id is found exactly while its connection is open. -/
def FindsOpen (s : CommServer) (id : ℕ) : Prop :=
  ∀ client, commDictFind s.clientDict id = some client ↔ id ∈ s.opened ∧ client = id

def RepliesRight (s : CommServer) : Prop :=
  ∀ reply ∈ s.replies, reply.2.toNat = reply.1

/-- The com ids that connections have been given. -/
def Given (s : CommServer) (id : ℕ) : Prop := 0 < id ∧ id ≤ s.dispatchComId

/-- The dictionary is right about the com ids asked for, and so is every reply. -/
def Right (asked : CommServer → ℕ → Prop) (s : CommServer) : Prop :=
  (∀ id, asked s id → s.FindsOpen id) ∧ s.RepliesRight

/-- A message that is dequeued can be replied to: its sender's com id is an octet. -/
def Answerable (msg : Sent) : Prop :=
  msg.obj.deviceId = fromCloud ∨ msg.obj.deviceId = fromDsrc → msg.sender < 256

/-- A connection is accepted only while its com id is below the limit, and a message
is dequeued only if it is answerable. -/
def Fits (limit : ℕ) (s : CommServer) : ServerEvent → Prop
  | .accept => s.dispatchComId + 1 < limit
  | .dispatch => ∀ msg ∈ s.msgQueue.head?, Answerable msg
  | _ => True

/-- The dictionary holds exactly the open connections. -/
structure Holds (limit : ℕ) (s : CommServer) : Prop where
  valid : s.clientDict.Valid callbackHash
  find_iff : ∀ key client, s.clientDict.find callbackHash key = some client ↔
    client ∈ s.opened ∧ key = comKey client
  opened_le : ∀ client ∈ s.opened, 0 < client ∧ client ≤ s.dispatchComId
  below : s.dispatchComId < limit
  handles : ∀ msg ∈ s.msgQueue, msg.obj.handleId = UInt8.ofNat msg.sender
  replies : s.RepliesRight

namespace Holds

variable {limit : ℕ} {s : CommServer}

theorem initial (hlimit : 0 < limit) : Holds limit initial where
  valid := HashTable.Valid.empty
  find_iff key client := iff_of_false (Option.some_ne_none client).symm fun h => by cases h.1
  opened_le client hclient := by simp [CommServer.initial] at hclient
  below := hlimit
  handles msg hmsg := by simp [CommServer.initial] at hmsg
  replies reply hreply := by simp [CommServer.initial] at hreply

theorem connAccept (h : Holds limit s) (hlimit : limit ≤ 1000)
    (hroom : s.dispatchComId + 1 < limit) : Holds limit s.connAccept := by
  obtain ⟨hvalid, hfind⟩ := h.valid.add (comKey (s.dispatchComId + 1)) (s.dispatchComId + 1)
  have hfresh : s.clientDict.find callbackHash (comKey (s.dispatchComId + 1)) = none := by
    refine Option.eq_none_iff_forall_ne_some.mpr fun client hclient => ?_
    obtain ⟨hopen, hkey⟩ := (h.find_iff _ _).mp hclient
    have hle := (h.opened_le client hopen).2
    have := comKey_injective (by omega) (by omega) hkey
    omega
  refine ⟨hvalid, fun key client => ?_, fun client hclient => ?_, hroom, h.handles, h.replies⟩
  · rw [show s.connAccept.clientDict.find callbackHash key = _ from hfind key, hfresh]
    simp only [CommServer.connAccept, List.mem_append, List.mem_singleton, Option.getD_none]
    split_ifs with hkey
    · rw [Option.some.injEq]
      constructor
      · rintro rfl
        exact ⟨Or.inr rfl, hkey⟩
      · rintro ⟨hopen | hopen, hclient⟩
        · have hle := (h.opened_le client hopen).2
          exact comKey_injective (by omega) (by omega) (hkey.symm.trans hclient)
        · exact hopen.symm
    · rw [h.find_iff]
      refine and_congr_left fun hclient => (or_iff_left ?_).symm
      rintro rfl
      exact hkey hclient
  · rcases List.mem_append.mp hclient with hopen | hopen
    · exact ⟨(h.opened_le client hopen).1, Nat.le_succ_of_le (h.opened_le client hopen).2⟩
    · rw [List.mem_singleton.mp hopen]
      exact ⟨Nat.succ_pos _, le_rfl⟩

theorem connFreeClient (h : Holds limit s) (hlimit : limit ≤ 1000) {client : ℕ}
    (hclient : client ∈ s.opened) : Holds limit (s.connFreeClient client) := by
  obtain ⟨hvalid, hfind⟩ := h.valid.delete (comKey client)
  have hbelow := h.below
  have hle := (h.opened_le client hclient).2
  refine ⟨hvalid, fun key other => ?_, fun other hother => ?_, h.below, h.handles, h.replies⟩
  · rw [show (s.connFreeClient client).clientDict.find callbackHash key = _ from hfind key]
    simp only [CommServer.connFreeClient, List.mem_filter, decide_eq_true_eq]
    split_ifs with hkey
    · refine iff_of_false (by simp) ?_
      rintro ⟨⟨hopen, hne⟩, hother⟩
      have hle' := (h.opened_le other hopen).2
      exact hne (comKey_injective (by omega) (by omega) (hother.symm.trans hkey))
    · rw [h.find_iff, and_assoc]
      refine and_congr_right fun _ => (and_iff_right_of_imp ?_).symm
      rintro rfl rfl
      exact hkey rfl
  · exact h.opened_le other (List.mem_filter.mp hother).1

/-- The com id kept for a message that is replied to becomes that of the reply. -/
theorem dispatcherHandler_replies (s : CommServer) (msg : Sent) :
    (s.dispatcherHandler msg).replies = s.replies ++
      if msg.obj.deviceId = fromCloud ∨ msg.obj.deviceId = fromDsrc
      then [(msg.sender, msg.obj.handleId)] else [] := by
  unfold dispatcherHandler
  by_cases hcloud : msg.obj.deviceId = fromCloud
  · simp only [hcloud, if_true, true_or]
  by_cases hdsrc : msg.obj.deviceId = fromDsrc
  · rw [if_neg hcloud, if_pos hdsrc, if_pos (Or.inr hdsrc)]
    split <;> rfl
  · simp only [hcloud, hdsrc, if_false, or_false, List.append_nil]
    split_ifs <;> rfl

/-- The dispatcher touches neither the connections nor the queue. -/
theorem dispatcherHandler_frame (s : CommServer) (msg : Sent) :
    (s.dispatcherHandler msg).clientDict = s.clientDict ∧
      (s.dispatcherHandler msg).opened = s.opened ∧
      (s.dispatcherHandler msg).dispatchComId = s.dispatchComId ∧
      (s.dispatcherHandler msg).msgQueue = s.msgQueue := by
  unfold dispatcherHandler
  split_ifs <;> exact ⟨rfl, rfl, rfl, rfl⟩

/-- The reply to a message is right exactly if the message is answerable. -/
theorem repliesRight_dispatch_iff (h : Holds limit s) {msg : Sent} (hmsg : msg ∈ s.msgQueue)
    {rest : List Sent} :
    ({ s with msgQueue := rest }.dispatcherHandler msg).RepliesRight ↔ Answerable msg := by
  unfold RepliesRight Answerable
  rw [dispatcherHandler_replies]
  split_ifs with hkind
  · simp only [List.mem_append, List.mem_singleton, or_imp, forall_and, forall_eq, hkind]
    rw [h.handles msg hmsg, UInt8.toNat_ofNat']
    refine (and_iff_right h.replies).trans ?_
    rw [true_imp_iff]
    omega
  · rw [List.append_nil]
    exact iff_of_true h.replies fun hcontra => absurd hcontra hkind

theorem step_dispatch {msg : Sent} {rest : List Sent} (hqueue : s.msgQueue = msg :: rest) :
    s.step .dispatch = { s with msgQueue := rest }.dispatcherHandler msg := by
  simp only [CommServer.step, hqueue]

theorem dispatch (h : Holds limit s) (hfits : Fits limit s .dispatch) :
    Holds limit (s.step .dispatch) := by
  cases hqueue : s.msgQueue with
  | nil =>
      simp only [CommServer.step, hqueue]
      exact h
  | cons msg rest =>
      have hmsg : msg ∈ s.msgQueue := hqueue ▸ List.mem_cons_self
      obtain ⟨hdict, hopened, hcomId, hrest⟩ :=
        dispatcherHandler_frame { s with msgQueue := rest } msg
      rw [step_dispatch hqueue]
      refine ⟨?_, ?_, ?_, ?_, ?_, ?_⟩
      · rw [hdict]
        exact h.valid
      · rw [hdict, hopened]
        exact h.find_iff
      · rw [hopened, hcomId]
        exact h.opened_le
      · rw [hcomId]
        exact h.below
      · intro later hlater
        rw [hrest] at hlater
        exact h.handles later (hqueue ▸ List.mem_cons_of_mem msg hlater)
      · exact (h.repliesRight_dispatch_iff hmsg).mpr (hfits msg (by simp [hqueue]))

theorem step (h : Holds limit s) (hlimit : limit ≤ 1000) (event : ServerEvent)
    (hfits : Fits limit s event) : Holds limit (s.step event) := by
  cases event with
  | accept => exact h.connAccept hlimit hfits
  | disconnect comId =>
      simp only [CommServer.step]
      split_ifs with hopen
      · exact h.connFreeClient hlimit hopen
      · exact h
  | message comId buf fromType =>
      simp only [CommServer.step]
      split_ifs with hopen
      · refine ⟨h.valid, h.find_iff, h.opened_le, h.below, ?_, h.replies⟩
        intro msg hmsg
        rcases List.mem_append.mp hmsg with hmsg | hmsg
        · exact h.handles msg hmsg
        · rw [List.mem_singleton.mp hmsg]
          rfl
      · exact h
  | dispatch => exact h.dispatch hfits
  | comUnlink comId =>
      simp only [CommServer.step]
      split
      · exact h
      · next client hfind => exact h.connFreeClient hlimit ((h.find_iff _ _).mp hfind).1

end Holds

/-- The com ids asked for have keys of their own up to the limit, and not beyond. -/
structure Separated (limit : ℕ) (asked : CommServer → ℕ → Prop) : Prop where
  le : limit ≤ 1000
  key_inj : ∀ s : CommServer, s.dispatchComId < limit → ∀ id client, asked s id →
    client ≤ s.dispatchComId → comKey id = comKey client → id = client
  shared : comKey limit = comKey 100
  both : ∀ s : CommServer, s.dispatchComId = limit → asked s 100 ∧ asked s 1000

namespace Separated

variable {limit : ℕ} {asked : CommServer → ℕ → Prop} {s : CommServer}

theorem right (hasked : Separated limit asked) (h : Holds limit s) : Right asked s := by
  refine ⟨fun id hid client => ?_, h.replies⟩
  rw [commDictFind, h.find_iff]
  constructor
  · rintro ⟨hopen, hkey⟩
    have heq := hasked.key_inj s h.below id client hid (h.opened_le client hopen).2 hkey
    exact ⟨heq ▸ hopen, heq.symm⟩
  · rintro ⟨hopen, rfl⟩
    exact ⟨hopen, rfl⟩

/-- The connection with the com id of the limit has the key of two com ids. -/
theorem not_right_connAccept (hasked : Separated limit asked) (h : Holds limit s)
    (hfull : s.dispatchComId + 1 = limit) : ¬ Right asked s.connAccept := by
  rintro ⟨hfinds, -⟩
  obtain ⟨hhundred, hthousand⟩ := hasked.both s.connAccept hfull
  have hfound : ∃ client, commDictFind s.connAccept.clientDict 100 = some client := by
    have hkey : comKey 100 = comKey (s.dispatchComId + 1) := by rw [hfull, hasked.shared]
    refine ⟨_, ((h.valid.add _ _).2 (comKey 100)).trans (if_pos hkey)⟩
  obtain ⟨client, hclient⟩ := hfound
  have hsame : commDictFind s.connAccept.clientDict 1000 = some client := hclient
  have hfirst := ((hfinds 100 hhundred client).mp hclient).2
  have hsecond := ((hfinds 1000 hthousand client).mp hsame).2
  omega

theorem fits (hasked : Separated limit asked) (h : Holds limit s) (event : ServerEvent)
    (hright : Right asked (s.step event)) : Fits limit s event := by
  cases event with
  | accept =>
      refine Nat.lt_of_le_of_ne h.below fun hfull => ?_
      exact hasked.not_right_connAccept h hfull hright
  | dispatch =>
      intro msg hmsg
      obtain ⟨rest, hrest⟩ := List.head?_eq_some_iff.mp hmsg
      rw [Holds.step_dispatch hrest] at hright
      exact (h.repliesRight_dispatch_iff (hrest ▸ List.mem_cons_self)).mp hright.2
  | disconnect | message | comUnlink => trivial

theorem run_iff (hasked : Separated limit asked) (hlimit : 0 < limit)
    (events : List ServerEvent) :
    (∀ first, first <+: events → Right asked (run step initial first)) ↔
      Guarded step (Fits limit) initial events := by
  refine (guarded_iff_always (s := initial) ?_ ?_ ?_ events (Holds.initial hlimit)).symm
  · exact fun _ h => hasked.right h
  · exact fun _ event h => h.step hasked.le event
  · exact fun _ event h => hasked.fits h event

end Separated

theorem separated_given : Separated 1000 Given where
  le := le_rfl
  key_inj s hbelow id client hid hclient :=
    comKey_injective (Nat.lt_of_le_of_lt hid.2 hbelow) (Nat.lt_of_le_of_lt hclient hbelow)
  shared := by decide
  both s hfull := by
    unfold Given
    omega

theorem separated_any : Separated 100 fun _ _ => True where
  le := by decide
  key_inj s hbelow id client _ hclient := comKey_short (Nat.lt_of_le_of_lt hclient hbelow)
  shared := rfl
  both _ _ := ⟨trivial, trivial⟩

/-- Of every history of the server: the dictionary is right about every com id that
was given, and every reply goes to the sender, exactly if fewer than 1000
connections are accepted and every message replied to is from a com id below 256.
About com ids that were not given as well the dictionary is right exactly if fewer
than 100 connections are accepted. -/
theorem replies_reach_sender_iff (events : List ServerEvent) :
    ((∀ first, first <+: events → Right Given (run step initial first)) ↔
        Guarded step (Fits 1000) initial events) ∧
      ((∀ first, first <+: events → Right (fun _ _ => True) (run step initial first)) ↔
        Guarded step (Fits 100) initial events) :=
  ⟨separated_given.run_iff (by decide) events, separated_any.run_iff (by decide) events⟩

/-- After some accepts, none of which has a key of another connection. -/
theorem holds_accepts {limit n : ℕ} (hlimit : limit ≤ 1000) (hn : n < limit) :
    Holds limit (run step initial (List.replicate n .accept)) ∧
      (run step initial (List.replicate n .accept)).dispatchComId = n ∧
      (0 < n → n ∈ (run step initial (List.replicate n .accept)).opened) ∧
      (run step initial (List.replicate n .accept)).msgQueue = [] := by
  induction n with
  | zero => exact ⟨Holds.initial (by omega), rfl, fun h => absurd h (by decide), rfl⟩
  | succ n ih =>
      obtain ⟨h, hcomId, -, hqueue⟩ := ih (by omega)
      rw [List.replicate_succ', run_concat]
      refine ⟨h.step hlimit .accept (by rw [Fits, hcomId]; exact hn), ?_, fun _ => ?_, hqueue⟩
      · rw [step, connAccept, hcomId]
      · simp [step, connAccept, hcomId]

/-- The thousandth connection takes the key of the hundredth, or is refused it. The
reply to a datagram of connection 256 goes to com id 0. -/
theorem com_ids_collide :
    ¬ Right Given (run step initial (List.replicate 1000 .accept)) ∧
      ¬ (run step initial (List.replicate 256 .accept ++
        [.message 256 ⟨fun _ => 0, 46⟩ fromDsrc, .dispatch])).RepliesRight := by
  constructor
  · obtain ⟨h, hcomId, -, -⟩ := holds_accepts (n := 999) le_rfl (by decide)
    rw [show 1000 = 999 + 1 from rfl, List.replicate_succ', run_concat]
    exact separated_given.not_right_connAccept h (by rw [hcomId])
  · obtain ⟨h, -, hopen, hqueue⟩ := holds_accepts (n := 256) le_rfl (by decide)
    rw [run_append]
    generalize run step initial (List.replicate 256 .accept) = s at *
    let buf : Buffer := ⟨fun _ => 0, 46⟩
    have hsent : s.step (.message 256 buf fromDsrc) = s.commPacketEnqueue 256 buf fromDsrc :=
      if_pos (hopen (by decide))
    have h' : Holds 1000 (s.commPacketEnqueue 256 buf fromDsrc) :=
      hsent ▸ h.step le_rfl (.message 256 buf fromDsrc) trivial
    have hqueue' : (s.commPacketEnqueue 256 buf fromDsrc).msgQueue =
        [⟨256, msgObjCreate buf fromDsrc 0⟩] := by
      simp [commPacketEnqueue, hqueue]
    rw [run_cons, run_cons, run_nil, hsent, Holds.step_dispatch hqueue',
      h'.repliesRight_dispatch_iff (hqueue' ▸ List.mem_cons_self)]
    exact fun hanswerable => Nat.lt_irrefl 256 (hanswerable (Or.inr rfl))

end CommServer

end AdaptiveSignal.Network
