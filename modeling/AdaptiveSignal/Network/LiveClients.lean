import AdaptiveSignal.Network.ClientLifecycle
import Mathlib.Data.Fintype.Basic

/-! # Handlers find their client

While no client is freed that a thread is sending to, every handler that the
event loop calls is one of those for the descriptor, and its client is alive.
-/

namespace AdaptiveSignal.Network

open Foundation

def CommProc.accepts : CommProc → Bool
  | .acceptTCP | .acceptUDP | .acceptSmartAVI | .acceptPedestrian => true
  | _ => false

def CommProc.reads : CommProc → Bool
  | .readTCP | .readUDP | .readSmartAVI | .readPedestrian => true
  | _ => false

/-- The entry of a listening socket. -/
structure Listens (ce : CommEvent CommProc ClientData) : Prop where
  data : ce.clientData = some .server
  mask : ce.mask = .readableOnly
  proc : ∃ proc, ce.rCommProc = some proc ∧ proc.accepts = true

/-- The entry of a client's socket. -/
structure Serves (ce : CommEvent CommProc ClientData) (comId : ℕ) (transport : Transport) :
    Prop where
  data : ce.clientData = some (.client comId)
  readable : ce.mask.readable = true
  proc : ∃ proc, ce.rCommProc = some proc ∧ proc.reads = true
  writes : ce.mask.writable = true → ce.wCommProc = some (ConnServer.writeProc transport)

namespace ConnServer

variable {Thread : Type*}

/-- The table, the dictionary and the threads point to clients that are alive, and
every client that is alive is listened to. -/
structure Sound (listening : List ℕ) (s : ConnServer Thread) : Prop where
  agrees : s.el.Agrees
  zero : s.el.kernel.isOpen 0 = true
  listens : ∀ fd ∈ listening, Listens (s.el.events fd)
  positive : ∀ c conn, s.clients c = some conn → 0 < conn.fd
  serves : ∀ c conn, s.clients c = some conn → Serves (s.el.events conn.fd) c conn.transport
  entries : ∀ fd, s.el.mask fd ≠ .none →
    fd ∈ listening ∨ ∃ c conn, s.clients c = some conn ∧ conn.fd = fd
  given : ∀ c, s.clients c ≠ none → c ≤ s.dispatchComId
  valid : s.clientDict.Valid callbackHash
  found : ∀ key c, s.clientDict.find callbackHash key = some c →
    s.clients c ≠ none ∧ key = comKey c
  senders : ∀ t c, (s.sender t).client = some c → s.clients c ≠ none
  faultless : s.fault = false

namespace Sound

variable {listening : List ℕ} {s : ConnServer Thread}

theorem mask_client (h : Sound listening s) {c : ℕ} {conn : Connection}
    (hclient : s.clients c = some conn) : s.el.mask conn.fd ≠ .none := by
  intro hnone
  have hreadable := (h.serves c conn hclient).readable
  rw [show (s.el.events conn.fd).mask = .none from hnone] at hreadable
  cases hreadable

theorem fd_injective (h : Sound listening s) {c c' : ℕ} {conn conn' : Connection}
    (hclient : s.clients c = some conn) (hclient' : s.clients c' = some conn')
    (hfd : conn'.fd = conn.fd) : c' = c := by
  have hdata := (h.serves c conn hclient).data
  rw [← hfd, (h.serves c' conn' hclient').data] at hdata
  exact ClientData.client.inj (Option.some.inj hdata)

theorem fd_notMem (h : Sound listening s) {c : ℕ} {conn : Connection}
    (hclient : s.clients c = some conn) : conn.fd ∉ listening := by
  intro hmem
  have hdata := (h.serves c conn hclient).data
  rw [(h.listens conn.fd hmem).data] at hdata
  cases hdata

/-! ## Freeing a client -/

theorem dropClient (h : Sound listening s) {c : ℕ} {conn : Connection}
    (hclient : s.clients c = some conn) (hfree : ∀ t, (s.sender t).client ≠ some c) :
    Sound listening (s.dropClient c) := by
  obtain ⟨hvalid, hfind⟩ := h.valid.delete (comKey c)
  obtain ⟨hagrees, hopen, hmask, hevents⟩ := h.agrees.delete_both conn.fd
  have hpositive := h.positive c conn hclient
  have heq : s.dropClient c = { s with
      clientDict := commDictDelete s.clientDict c
      clients := Function.update s.clients c none
      el :=
        let el := (s.el.aeDeleteCommEvent conn.fd .readableOnly).aeDeleteCommEvent conn.fd
          .writableOnly
        { el with kernel := el.kernel.close conn.fd } } := by
    simp only [ConnServer.dropClient, connFreeClient, use, hclient, if_pos hpositive, deleteEvent,
      close]
  have hclients : ∀ c' conn', Function.update s.clients c none c' = some conn' →
      s.clients c' = some conn' ∧ c' ≠ c := by
    intro c' conn' hclient'
    by_cases hc : c' = c
    · rw [hc, Function.update_self] at hclient'
      cases hclient'
    · rw [Function.update_of_ne hc] at hclient'
      exact ⟨hclient', hc⟩
  have hkept : ∀ c', s.clients c' ≠ none → c' ≠ c → Function.update s.clients c none c' ≠ none := by
    intro c' hlive hc
    rw [Function.update_of_ne hc]
    exact hlive
  rw [heq]
  refine ⟨hagrees.close hmask, ?_, fun fd hfd => ?_, fun c' conn' hclient' => ?_,
    fun c' conn' hclient' => ?_, fun fd hfd => ?_, fun c' hlive => ?_, hvalid,
    fun key c' hkey => ?_, fun t c' hsender => ?_, h.faultless⟩
  · have hne : (0 : ℕ) ≠ conn.fd := Nat.ne_of_lt hpositive
    simp only [Kernel.close, Function.update_of_ne hne, hopen]
    exact h.zero
  · have hne : fd ≠ conn.fd := fun heq => h.fd_notMem hclient (heq ▸ hfd)
    simp only [hevents fd hne]
    exact h.listens fd hfd
  · exact h.positive c' conn' (hclients c' conn' hclient').1
  · obtain ⟨hclient', hc⟩ := hclients c' conn' hclient'
    have hne : conn'.fd ≠ conn.fd := fun heq => hc (h.fd_injective hclient hclient' heq)
    simp only [hevents conn'.fd hne]
    exact h.serves c' conn' hclient'
  · have hne : fd ≠ conn.fd := fun heq => hfd (heq ▸ hmask)
    have hwatched : s.el.mask fd ≠ .none := by
      rw [EventLoop.mask, ← hevents fd hne]
      exact hfd
    rcases h.entries fd hwatched with hmem | ⟨c', conn', hclient', rfl⟩
    · exact Or.inl hmem
    · refine Or.inr ⟨c', conn', ?_, rfl⟩
      have hc : c' ≠ c := by
        rintro rfl
        rw [hclient] at hclient'
        exact hne (Option.some.inj hclient' ▸ rfl)
      exact (Function.update_of_ne hc _ _).trans hclient'
  · obtain ⟨conn', hconn'⟩ := Option.ne_none_iff_exists'.mp hlive
    have hold := (hclients c' conn' hconn').1
    exact h.given c' (by rw [hold]; exact Option.some_ne_none _)
  · rw [show (commDictDelete s.clientDict c).find callbackHash key = _ from hfind key] at hkey
    split_ifs at hkey with hsame
    obtain ⟨hlive, rfl⟩ := h.found key c' hkey
    exact ⟨hkept c' hlive fun hc => hsame (hc ▸ rfl), rfl⟩
  · exact hkept c' (h.senders t c' hsender) fun hc => hfree t (hc ▸ hsender)

theorem dropClient_clients (h : Sound listening s) {c : ℕ} {conn : Connection}
    (hclient : s.clients c = some conn) : (s.dropClient c).clients c = none := by
  simp only [ConnServer.dropClient, connFreeClient, use, hclient,
    if_pos (h.positive c conn hclient), deleteEvent, close, Function.update_self]

/-! ## Accepting a connection -/

/-- Adding a client whose socket is not watched then changes nothing but the com id
and the dictionary. -/
theorem addClient_failed (h : Sound listening s) {socket : NewSocket} {transport : Transport}
    {proc : CommProc} (hclosed : s.el.kernel.isOpen socket.cfd = false)
    (hmask : s.el.mask socket.cfd = .none) (hpositive : 0 < socket.cfd)
    (hfresh : s.clients (s.dispatchComId + 1) = none)
    (hfailed : { s.el with kernel := s.el.kernel.opened socket.cfd }.aeCreateCommEvent socket.full
      socket.cfd .readableOnly proc (.client (s.dispatchComId + 1)) =
        (false, { s.el with kernel := s.el.kernel.opened socket.cfd })) :
    s.addClient socket transport proc = { s with
      dispatchComId := s.dispatchComId + 1
      clientDict := commDictDelete
        (commDictAdd s.clientDict (s.dispatchComId + 1) (s.dispatchComId + 1))
        (s.dispatchComId + 1) } := by
  have hopened := h.agrees.opened socket.cfd
  have hinterest := h.agrees.interest socket.cfd
  rw [if_pos hmask] at hinterest
  have hdelete : ∀ mask, { s.el with kernel := s.el.kernel.opened socket.cfd }.aeDeleteCommEvent
      socket.cfd mask = { s.el with kernel := s.el.kernel.opened socket.cfd } := by
    intro mask
    rw [hopened.aeDeleteCommEvent_eq]
    exact if_pos hmask
  have hclients : Function.update s.clients (s.dispatchComId + 1) none = s.clients := by
    rw [← hfresh, Function.update_eq_self]
  simp only [ConnServer.addClient, hclosed, Bool.false_eq_true, if_false, hfailed,
    ConnServer.dropClient, connFreeClient, use, Function.update_self, if_pos hpositive, deleteEvent,
    hdelete, close, Kernel.close_opened hclosed hinterest, Function.update_idem, hclients]

/-- The server with a new client. -/
theorem added (h : Sound listening s) {socket : NewSocket} {transport : Transport}
    {proc : CommProc} (hmask : s.el.mask socket.cfd = .none) (hpositive : 0 < socket.cfd)
    (hsize : socket.cfd < s.el.setsize) (hfresh : s.clients (s.dispatchComId + 1) = none)
    (hproc : proc.reads = true) :
    Sound listening { s with
      el := { s.el with kernel := s.el.kernel.opened socket.cfd }.watching socket.cfd
        .readableOnly proc (.client (s.dispatchComId + 1))
      clients := Function.update s.clients (s.dispatchComId + 1) (some ⟨socket.cfd, transport⟩)
      dispatchComId := s.dispatchComId + 1
      clientDict := commDictAdd s.clientDict (s.dispatchComId + 1) (s.dispatchComId + 1) } := by
  obtain ⟨hvalid, hfind⟩ := h.valid.add (comKey (s.dispatchComId + 1)) (s.dispatchComId + 1)
  have hopen : (s.el.kernel.opened socket.cfd).isOpen socket.cfd = true :=
    Function.update_self _ _ _
  have hother : ∀ fd, s.el.mask fd ≠ .none → fd ≠ socket.cfd := fun fd hwatched heq =>
    hwatched (heq ▸ hmask)
  have hkept : ∀ c, s.clients c ≠ none →
      Function.update s.clients (s.dispatchComId + 1) (some ⟨socket.cfd, transport⟩) c =
        s.clients c := by
    intro c hlive
    refine Function.update_of_ne ?_ _ _
    rintro rfl
    exact hlive hfresh
  have hlive : ∀ c, s.clients c ≠ none →
      Function.update s.clients (s.dispatchComId + 1) (some ⟨socket.cfd, transport⟩) c ≠ none := by
    intro c hlive
    rw [hkept c hlive]
    exact hlive
  have hcases : ∀ c conn, Function.update s.clients (s.dispatchComId + 1)
      (some ⟨socket.cfd, transport⟩) c = some conn →
        c = s.dispatchComId + 1 ∧ conn = ⟨socket.cfd, transport⟩ ∨ s.clients c = some conn := by
    intro c conn hclient
    by_cases hc : c = s.dispatchComId + 1
    · rw [hc, Function.update_self] at hclient
      exact Or.inl ⟨hc, (Option.some.inj hclient).symm⟩
    · rw [Function.update_of_ne hc] at hclient
      exact Or.inr hclient
  refine ⟨(h.agrees.opened socket.cfd).watching hopen hsize (by decide) proc _, ?_,
    fun fd hfd => ?_, fun c conn hclient => ?_, fun c conn hclient => ?_, fun fd hfd => ?_,
    fun c hclient => ?_, hvalid, fun key c hkey => ?_, fun t c hsender => ?_, h.faultless⟩
  · have hne : (0 : ℕ) ≠ socket.cfd := Nat.ne_of_lt hpositive
    simp only [EventLoop.watching, Kernel.opened, Function.update_of_ne hne]
    exact h.zero
  · have hwatched : s.el.mask fd ≠ .none := by
      rw [EventLoop.mask, (h.listens fd hfd).mask]
      decide
    simp only [EventLoop.watching, Function.update_of_ne (hother fd hwatched)]
    exact h.listens fd hfd
  · rcases hcases c conn hclient with ⟨_, rfl⟩ | hold
    · exact hpositive
    · exact h.positive c conn hold
  · rcases hcases c conn hclient with ⟨rfl, rfl⟩ | hold
    · simp only [EventLoop.watching, Function.update_self]
      have hunion : (EventLoop.CommEvent.merged (s.el.events socket.cfd) .readableOnly proc
          (ClientData.client (s.dispatchComId + 1))).mask = .readableOnly := by
        rw [EventLoop.CommEvent.merged, show (s.el.events socket.cfd).mask = .none from hmask]
        rfl
      exact ⟨rfl, by rw [hunion]; rfl, ⟨proc, rfl, hproc⟩, fun hwritable => by
        rw [hunion] at hwritable
        cases hwritable⟩
    · simp only [EventLoop.watching, Function.update_of_ne (hother conn.fd (h.mask_client hold))]
      exact h.serves c conn hold
  · rw [EventLoop.mask_watching] at hfd
    split_ifs at hfd with heq
    · exact Or.inr ⟨s.dispatchComId + 1, _, Function.update_self _ _ _, heq.symm⟩
    · rcases h.entries fd hfd with hmem | ⟨c, conn, hclient, rfl⟩
      · exact Or.inl hmem
      · have hold : s.clients c ≠ none := by
          rw [hclient]
          exact Option.some_ne_none _
        exact Or.inr ⟨c, conn, (hkept c hold).trans hclient, rfl⟩
  · obtain ⟨conn, hconn⟩ := Option.ne_none_iff_exists'.mp hclient
    rcases hcases c conn hconn with ⟨rfl, _⟩ | hold
    · exact Nat.le_refl _
    · exact Nat.le_succ_of_le (h.given c (by rw [hold]; exact Option.some_ne_none _))
  · rw [show (commDictAdd s.clientDict _ _).find callbackHash key = _ from hfind key] at hkey
    split_ifs at hkey with hsame
    · cases hfound : s.clientDict.find callbackHash (comKey (s.dispatchComId + 1)) with
      | none =>
          rw [hfound] at hkey
          obtain rfl : s.dispatchComId + 1 = c := Option.some.inj hkey
          refine ⟨?_, hsame⟩
          simp only [Function.update_self]
          exact Option.some_ne_none _
      | some old =>
          rw [hfound] at hkey
          obtain rfl : old = c := Option.some.inj hkey
          obtain ⟨hold, hkeyOld⟩ := h.found _ _ hfound
          exact ⟨hlive old hold, hsame.trans hkeyOld⟩
    · obtain ⟨hold, hkeyOld⟩ := h.found key c hkey
      exact ⟨hlive c hold, hkeyOld⟩
  · exact hlive c (h.senders t c hsender)

theorem addClient (h : Sound listening s) (socket : NewSocket) (transport : Transport)
    {proc : CommProc} (hproc : proc.reads = true) :
    Sound listening (s.addClient socket transport proc) := by
  cases hclosed : s.el.kernel.isOpen socket.cfd with
  | true =>
      rw [ConnServer.addClient, if_pos hclosed]
      exact h
  | false =>
      have hmask : s.el.mask socket.cfd = .none := by
        by_contra hwatched
        rw [(h.agrees.inTable socket.cfd hwatched).2] at hclosed
        cases hclosed
      have hpositive : 0 < socket.cfd := by
        refine Nat.pos_of_ne_zero fun hzero => ?_
        rw [hzero, h.zero] at hclosed
        cases hclosed
      have hfresh : s.clients (s.dispatchComId + 1) = none := by
        by_contra hlive
        have := h.given _ hlive
        omega
      obtain ⟨hvalid, hfind⟩ := h.valid.add (comKey (s.dispatchComId + 1)) (s.dispatchComId + 1)
      have hopen : (s.el.kernel.opened socket.cfd).isOpen socket.cfd = true :=
        Function.update_self _ _ _
      rcases (h.agrees.opened socket.cfd).aeCreateCommEvent_cases hopen socket.full .readableOnly
        proc (.client (s.dispatchComId + 1)) with ⟨hfailed, _⟩ | ⟨hcreated, hsize⟩
      · obtain ⟨hvalid', hfind'⟩ := hvalid.delete (comKey (s.dispatchComId + 1))
        rw [h.addClient_failed hclosed hmask hpositive hfresh hfailed]
        refine ⟨h.agrees, h.zero, h.listens, h.positive, h.serves, h.entries,
          fun c hlive => Nat.le_succ_of_le (h.given c hlive), hvalid', fun key c hkey => ?_,
          h.senders, h.faultless⟩
        rw [show HashTable.find callbackHash (commDictDelete (commDictAdd s.clientDict _ _) _) key
          = _ from hfind' key] at hkey
        split_ifs at hkey with hsame
        rw [hfind, if_neg hsame] at hkey
        exact h.found key c hkey
      · have heq : s.addClient socket transport proc = { s with
            el := { s.el with kernel := s.el.kernel.opened socket.cfd }.watching socket.cfd
              .readableOnly proc (.client (s.dispatchComId + 1))
            clients := Function.update s.clients (s.dispatchComId + 1)
              (some ⟨socket.cfd, transport⟩)
            dispatchComId := s.dispatchComId + 1
            clientDict :=
              commDictAdd s.clientDict (s.dispatchComId + 1) (s.dispatchComId + 1) } := by
          simp only [ConnServer.addClient, hclosed, Bool.false_eq_true, if_false, hcreated]
        rw [heq]
        exact h.added hmask hpositive hsize hfresh hproc

/-! ## The events of a client -/

/-- The entry of a client may change as long as it still serves the client. -/
theorem withEntry (h : Sound listening s) {c : ℕ} {conn : Connection}
    (hclient : s.clients c = some conn) {el : EventLoop CommProc ClientData} (hagrees : el.Agrees)
    (hopen : el.kernel.isOpen = s.el.kernel.isOpen)
    (hother : ∀ fd, fd ≠ conn.fd → el.events fd = s.el.events fd)
    (hserves : Serves (el.events conn.fd) c conn.transport) :
    Sound listening { s with el := el } := by
  refine ⟨hagrees, by rw [hopen]; exact h.zero, fun fd hfd => ?_, h.positive,
    fun c' conn' hclient' => ?_, fun fd hfd => ?_, h.given, h.valid, h.found, h.senders,
    h.faultless⟩
  · rw [hother fd fun heq => h.fd_notMem hclient (heq ▸ hfd)]
    exact h.listens fd hfd
  · by_cases heq : conn'.fd = conn.fd
    · obtain rfl := h.fd_injective hclient hclient' heq
      obtain rfl := Option.some.inj (hclient.symm.trans hclient')
      exact hserves
    · rw [hother conn'.fd heq]
      exact h.serves c' conn' hclient'
  · by_cases heq : fd = conn.fd
    · exact Or.inr ⟨c, conn, hclient, heq.symm⟩
    · refine h.entries fd ?_
      rw [EventLoop.mask, ← hother fd heq]
      exact hfd

theorem deleteWritable (h : Sound listening s) {c : ℕ} {conn : Connection}
    (hclient : s.clients c = some conn) :
    Sound listening (s.deleteEvent conn.fd .writableOnly) := by
  obtain ⟨_, hopen, hevents⟩ := h.agrees.aeDeleteCommEvent_frame conn.fd .writableOnly
  have hserves := h.serves c conn hclient
  refine h.withEntry hclient (h.agrees.aeDeleteCommEvent conn.fd _) hopen
    (fun fd hfd => by rw [hevents, if_neg hfd]) ?_
  rw [hevents, if_pos rfl]
  refine ⟨hserves.data, ?_, hserves.proc, fun hwritable => ?_⟩
  · simpa [EventMask.diff, EventMask.writableOnly, EventLoop.mask] using hserves.readable
  · simp [EventMask.diff, EventMask.writableOnly] at hwritable

/-- A client that is alive can always be registered. -/
theorem registerWritable (h : Sound listening s) {c : ℕ} {conn : Connection}
    (hclient : s.clients c = some conn) (full : Bool) :
    ∃ el, s.el.aeCreateCommEvent full conn.fd .writableOnly (writeProc conn.transport) (.client c) =
        (true, el) ∧ Sound listening { s with el := el } := by
  have hwatched := h.mask_client hclient
  obtain ⟨hsize, hopen⟩ := h.agrees.inTable conn.fd hwatched
  rcases h.agrees.aeCreateCommEvent_cases hopen full .writableOnly (writeProc conn.transport)
    (.client c) with ⟨_, hnone, _⟩ | ⟨hcreated, _⟩
  · exact absurd hnone hwatched
  · have hserves := h.serves c conn hclient
    refine ⟨_, hcreated, h.withEntry hclient (h.agrees.watching hopen hsize (by decide) _ _) rfl
      (fun fd hfd => Function.update_of_ne hfd _ _) ?_⟩
    simp only [EventLoop.watching, Function.update_self]
    refine ⟨rfl, ?_, hserves.proc, fun _ => rfl⟩
    simpa [EventLoop.CommEvent.merged, EventMask.union, EventMask.writableOnly, EventLoop.mask]
      using hserves.readable

/-! ## Calling a handler -/

theorem connWriteTCP (h : Sound listening s) {c : ℕ} {conn : Connection}
    (hclient : s.clients c = some conn) (emptied : Bool) :
    Sound listening (s.connWriteTCP c emptied) := by
  have hdeleted := h.deleteWritable hclient
  simp only [ConnServer.connWriteTCP, use, hclient]
  cases emptied with
  | true => exact hdeleted.deleteWritable hclient
  | false => exact hdeleted

theorem connWriteUDP (h : Sound listening s) {c : ℕ} {conn : Connection}
    (hclient : s.clients c = some conn) (emptied : Bool) :
    Sound listening (s.connWriteUDP c emptied) := by
  simp only [ConnServer.connWriteUDP, use, hclient]
  cases emptied with
  | true => exact h.deleteWritable hclient
  | false => exact h

theorem connAccept (h : Sound listening s) (transport : Transport) {proc : CommProc}
    (hproc : proc.reads = true) (fd : ℕ) {accept : AcceptResult}
    (hsetUp : accept.isAborted = false) :
    Sound listening (s.connAccept transport proc fd accept) := by
  cases accept with
  | nothing => exact h
  | aborted cfd => cases hsetUp
  | accepted socket obu =>
      have hadded := h.addClient socket transport hproc
      unfold ConnServer.connAccept
      dsimp only
      split
      · exact hadded.addClient _ transport hproc
      · exact hadded

theorem watched_of_inter {fd : ℕ} {fired : EventMask}
    (hbit : ((s.el.events fd).mask.inter fired).readable = true ∨
      ((s.el.events fd).mask.inter fired).writable = true) : s.el.mask fd ≠ .none := by
  intro hnone
  rw [show (s.el.events fd).mask = .none from hnone] at hbit
  rcases hbit with hbit | hbit <;> cases hbit

/-- A write handler sends for a client that is alive, and frees none. -/
theorem processWritable (h : Sound listening s) (fd : ℕ) (fired : EventMask)
    (result : HandlerResult) :
    Sound listening (s.processWritable fd fired result) ∧
      (s.processWritable fd fired result).clients = s.clients ∧
      (s.processWritable fd fired result).sender = s.sender := by
  unfold ConnServer.processWritable
  dsimp only
  split_ifs with hcall
  · have hwritable : (s.el.events fd).mask.writable = true := by
      have hboth := hcall.1
      simp only [EventMask.inter, Bool.and_eq_true] at hboth
      exact hboth.1
    rcases h.entries fd (watched_of_inter (Or.inr hcall.1)) with hmem | ⟨c, conn, hclient, rfl⟩
    · rw [(h.listens fd hmem).mask] at hwritable
      cases hwritable
    · have hserves := h.serves c conn hclient
      rw [hserves.data, hserves.writes hwritable]
      cases conn.transport with
      | tcp =>
          refine ⟨h.connWriteTCP hclient result.emptied, ?_, ?_⟩ <;>
            · simp only [writeProc, call, ConnServer.connWriteTCP, use, hclient, deleteEvent]
              split_ifs <;> rfl
      | udp =>
          refine ⟨h.connWriteUDP hclient result.emptied, ?_, ?_⟩ <;>
            · simp only [writeProc, call, ConnServer.connWriteUDP, use, hclient, deleteEvent]
              split_ifs <;> rfl
  · exact ⟨h, rfl, rfl⟩

/-- A read handler reads for a client that is alive, or accepts a connection. -/
theorem processReadable (h : Sound listening s) (fd : ℕ) (fired : EventMask)
    {result : HandlerResult} (hsetUp : result.accept.isAborted = false)
    (hfree : ∀ t c, (s.sender t).client = some c →
      (s.processReadable fd fired result).clients c ≠ none) :
    Sound listening (s.processReadable fd fired result) := by
  unfold ConnServer.processReadable at hfree ⊢
  dsimp only at hfree ⊢
  split_ifs at hfree ⊢ with hbit
  · rcases h.entries fd (watched_of_inter (Or.inl hbit)) with hmem | ⟨c, conn, hclient, rfl⟩
    · obtain ⟨hdata, _, proc, hproc, haccepts⟩ := h.listens fd hmem
      rw [hdata, hproc]
      cases proc with
      | acceptTCP => exact h.connAccept .tcp (rfl : CommProc.readTCP.reads = true) fd hsetUp
      | acceptUDP => exact h.connAccept .udp (rfl : CommProc.readUDP.reads = true) fd hsetUp
      | acceptSmartAVI =>
          exact h.connAccept .udp (rfl : CommProc.readSmartAVI.reads = true) fd hsetUp
      | acceptPedestrian =>
          exact h.connAccept .udp (rfl : CommProc.readPedestrian.reads = true) fd hsetUp
      | _ => cases haccepts
    · obtain ⟨hdata, _, ⟨proc, hproc, hreads⟩, _⟩ := h.serves c conn hclient
      rw [hdata, hproc] at hfree ⊢
      cases proc with
      | readTCP =>
          simp only [call, use, hclient] at hfree ⊢
          split_ifs at hfree ⊢ with hclosed
          · exact h.dropClient hclient fun t hsender =>
              hfree t c hsender (h.dropClient_clients hclient)
          · exact h
      | readUDP => simpa only [call, use, hclient] using h
      | readSmartAVI => simpa only [call, use, hclient] using h
      | readPedestrian => simpa only [call, use, hclient] using h
      | _ => cases hreads
  · exact h

end Sound

/-! ## The listening sockets -/

theorem listens_merged {ce : CommEvent CommProc ClientData} {proc : CommProc}
    (hproc : proc.accepts = true) (hce : ce.mask = .none ∨ ce.mask = .readableOnly) :
    Listens (EventLoop.CommEvent.merged ce .readableOnly proc .server) := by
  refine ⟨rfl, ?_, proc, rfl, hproc⟩
  rcases hce with hmask | hmask
  · rw [EventLoop.CommEvent.merged, hmask]
    rfl
  · rw [EventLoop.CommEvent.merged, hmask]
    rfl

/-- The sockets of the list are registered one after the other. -/
theorem foldl_listens (sockets : List (ℕ × CommProc)) {el : EventLoop CommProc ClientData}
    (done : List ℕ) (hagrees : el.Agrees) (hdone : ∀ fd ∈ done, Listens (el.events fd))
    (hentries : ∀ fd, el.mask fd ≠ .none → fd ∈ done)
    (hsockets : ∀ socket ∈ sockets,
      socket.1 < el.setsize ∧ el.kernel.isOpen socket.1 = true ∧ socket.2.accepts = true) :
    let el' := sockets.foldl
      (fun el socket =>
        (el.aeCreateCommEvent false socket.1 .readableOnly socket.2 ClientData.server).2) el
    el'.Agrees ∧ el'.kernel.isOpen = el.kernel.isOpen ∧
      (∀ fd ∈ done ++ sockets.map Prod.fst, Listens (el'.events fd)) ∧
      ∀ fd, el'.mask fd ≠ .none → fd ∈ done ++ sockets.map Prod.fst := by
  induction sockets generalizing el done with
  | nil => simpa using ⟨hagrees, hdone, hentries⟩
  | cons socket rest ih =>
      obtain ⟨fd, proc⟩ := socket
      obtain ⟨hsize, hopen, hproc⟩ := hsockets (fd, proc) List.mem_cons_self
      have hcreated : el.aeCreateCommEvent false fd .readableOnly proc ClientData.server =
          (true, el.watching fd .readableOnly proc ClientData.server) := by
        rcases hagrees.aeCreateCommEvent_cases hopen false .readableOnly proc ClientData.server
          with ⟨_, _, hnot⟩ | ⟨hcreated, _⟩
        · rcases hnot with hlarge | hfull
          · exact absurd hsize (Nat.not_lt.mpr hlarge)
          · cases hfull
        · exact hcreated
      have hce : (el.events fd).mask = .none ∨ (el.events fd).mask = .readableOnly := by
        by_cases hwatched : el.mask fd = .none
        · exact Or.inl hwatched
        · exact Or.inr (hdone fd (hentries fd hwatched)).mask
      have hdone' : ∀ other ∈ done ++ [fd],
          Listens ((el.watching fd .readableOnly proc ClientData.server).events other) := by
        intro other hother
        by_cases heq : other = fd
        · simp only [EventLoop.watching, heq, Function.update_self]
          exact listens_merged hproc hce
        · simp only [EventLoop.watching, Function.update_of_ne heq]
          refine hdone other ?_
          simpa [heq] using hother
      have hentries' : ∀ other,
          (el.watching fd .readableOnly proc ClientData.server).mask other ≠ .none →
            other ∈ done ++ [fd] := by
        intro other hother
        rw [EventLoop.mask_watching] at hother
        split_ifs at hother with heq
        · simp [heq]
        · exact List.mem_append_left _ (hentries other hother)
      obtain ⟨hagrees', hopen', hlistens', hwatched'⟩ :=
        ih _ (hagrees.watching hopen hsize (by decide) proc ClientData.server) hdone' hentries'
          fun socket hsocket => hsockets socket (List.mem_cons_of_mem _ hsocket)
      simp only [List.foldl_cons, hcreated, List.map_cons]
      rw [List.append_assoc, List.singleton_append] at hlistens' hwatched'
      exact ⟨hagrees', hopen', hlistens', hwatched'⟩

theorem sound_listenOn {sockets : List (ℕ × CommProc)}
    (hsockets : ∀ socket ∈ sockets, socket.1 < setsize ∧ socket.2.accepts = true) :
    Sound (sockets.map Prod.fst) (listenOn sockets : ConnServer Thread) := by
  have hempty : EventLoop.Agrees
      { maxfd := -1
        setsize := setsize
        events := fun _ => ⟨.none, none, none, none⟩
        kernel := ⟨fun fd => fd < 3 || fd ∈ sockets.map Prod.fst, fun _ => none⟩ :
          EventLoop CommProc ClientData } :=
    ⟨fun _ => rfl, fun _ hmask => absurd rfl hmask, fun _ hmask => absurd rfl hmask, Or.inl rfl⟩
  obtain ⟨hagrees, hopen, hlistens, hentries⟩ := foldl_listens sockets [] hempty (by simp)
    (fun _ hmask => absurd rfl hmask) fun socket hsocket => by
      refine ⟨(hsockets socket hsocket).1, ?_, (hsockets socket hsocket).2⟩
      simp only [Bool.or_eq_true, decide_eq_true_eq]
      exact Or.inr (List.mem_map_of_mem hsocket)
  refine ⟨hagrees, ?_, hlistens, fun c conn hclient => ?_, fun c conn hclient => ?_,
    fun fd hfd => Or.inl (hentries fd hfd), fun c hclient => ?_, HashTable.Valid.empty,
    fun key c hkey => ?_, fun t c hsender => ?_, rfl⟩
  · simp only [listenOn, hopen]
    rfl
  · cases hclient
  · cases hclient
  · exact absurd rfl hclient
  · cases hkey
  · cases hsender

/-! ## What a handler leaves alone -/

theorem use_sender (s : ConnServer Thread) (c : ℕ) {withClient : Connection → ConnServer Thread}
    (h : ∀ conn, (withClient conn).sender = s.sender) :
    (s.use c withClient).sender = s.sender := by
  unfold use
  split
  · exact h _
  · rfl

theorem dropClient_sender (s : ConnServer Thread) (c : ℕ) :
    (s.dropClient c).sender = s.sender := by
  refine use_sender _ _ fun _ => ?_
  dsimp only
  split_ifs <;> rfl

theorem addClient_sender (s : ConnServer Thread) (socket : NewSocket) (transport : Transport)
    (proc : CommProc) : (s.addClient socket transport proc).sender = s.sender := by
  unfold addClient
  split_ifs
  · rfl
  · dsimp only
    split
    · rfl
    · exact dropClient_sender _ _

theorem connAccept_sender (s : ConnServer Thread) (transport : Transport) (proc : CommProc)
    (fd : ℕ) (accept : AcceptResult) :
    (s.connAccept transport proc fd accept).sender = s.sender := by
  cases accept with
  | nothing => rfl
  | aborted cfd => rfl
  | accepted socket obu =>
      unfold connAccept
      dsimp only
      split
      · rw [addClient_sender, addClient_sender]
      · rw [addClient_sender]

/-- The handlers leave the threads alone. -/
theorem call_sender (s : ConnServer Thread) (fd : ℕ) (result : HandlerResult)
    (proc : Option CommProc) (data : Option ClientData) :
    (s.call fd result proc data).sender = s.sender := by
  unfold call
  split
  · exact connAccept_sender _ _ _ _ _
  · exact connAccept_sender _ _ _ _ _
  · exact connAccept_sender _ _ _ _ _
  · exact connAccept_sender _ _ _ _ _
  · refine use_sender _ _ fun _ => ?_
    split_ifs
    · exact dropClient_sender _ _
    · rfl
  · exact use_sender _ _ fun _ => rfl
  · exact use_sender _ _ fun _ => rfl
  · exact use_sender _ _ fun _ => rfl
  · refine use_sender _ _ fun _ => ?_
    split_ifs <;> rfl
  · refine use_sender _ _ fun _ => ?_
    split_ifs <;> rfl
  · rfl

theorem processReadable_sender (s : ConnServer Thread) (fd : ℕ) (fired : EventMask)
    (result : HandlerResult) : (s.processReadable fd fired result).sender = s.sender := by
  unfold processReadable
  dsimp only
  split_ifs
  · exact call_sender _ _ _ _ _
  · rfl

/-! ## Runs -/

variable [DecidableEq Thread]

/-- No listening socket is closed because a client could not be set up, and no client
is freed that a thread is sending to. -/
def Undisturbed (s : ConnServer Thread) (action : LoopAction Thread) : Prop :=
  action.aborts = false ∧ ∀ t, ∀ c ∈ ((s.step action).sender t).client,
    (s.clients c).isSome → ((s.step action).clients c).isSome

instance [Fintype Thread] (s : ConnServer Thread) (action : LoopAction Thread) :
    Decidable (Undisturbed s action) :=
  inferInstanceAs (Decidable (_ ∧ _))

namespace Sound

variable {listening : List ℕ} {s : ConnServer Thread}

theorem moveTo (h : Sound listening s) (t : Thread) {p : ComSendPlace}
    (hp : ∀ c, p.client = some c → s.clients c ≠ none) : Sound listening (s.moveTo t p) := by
  refine ⟨h.agrees, h.zero, h.listens, h.positive, h.serves, h.entries, h.given, h.valid, h.found,
    fun t' c hsender => ?_, h.faultless⟩
  by_cases ht : t' = t
  · simp only [ConnServer.moveTo, ht, Function.update_self] at hsender
    exact hp c hsender
  · simp only [ConnServer.moveTo, Function.update_of_ne ht] at hsender
    exact h.senders t' c hsender

theorem step (h : Sound listening s) {action : LoopAction Thread} (hok : Undisturbed s action) :
    Sound listening (s.step action) := by
  cases action with
  | process fd fired result =>
      obtain ⟨hwritten, hclients, _⟩ := h.processWritable fd fired result
      refine hwritten.processReadable fd fired hok.1 fun t c hc => ?_
      have hlive := hwritten.senders t c hc
      rw [hclients] at hlive
      refine Option.isSome_iff_ne_none.mp (hok.2 t c ?_ (Option.isSome_iff_ne_none.mpr hlive))
      rw [Option.mem_def, ← hc]
      exact congrArg (fun sender => (sender t).client) (processReadable_sender _ _ _ _)
  | comSend t comId =>
      simp only [ConnServer.step]
      split
      · rename_i client _ hfound
        refine h.moveTo t fun c hc => ?_
        obtain rfl := Option.some.inj hc
        exact (h.found _ _ hfound).1
      · exact h
  | push t =>
      simp only [ConnServer.step]
      split
      · rename_i client hplace
        have hlive := h.senders t client (by rw [hplace]; rfl)
        obtain ⟨conn, hclient⟩ := Option.ne_none_iff_exists'.mp hlive
        simp only [use, hclient]
        refine h.moveTo t fun c hc => ?_
        obtain rfl := Option.some.inj hc
        exact hlive
      · exact h
  | register t full =>
      simp only [ConnServer.step]
      split
      · rename_i client hplace
        have hlive := h.senders t client (by rw [hplace]; rfl)
        obtain ⟨conn, hclient⟩ := Option.ne_none_iff_exists'.mp hlive
        have hmoved := h.moveTo t (p := .outside) fun c hc => by cases hc
        obtain ⟨el, hcreated, hsound⟩ := hmoved.registerWritable hclient full
        simp only [use, hclient, hcreated]
        exact hsound
      · exact h
  | comUnlink comId =>
      simp only [ConnServer.step]
      split
      · rename_i client hfound
        obtain ⟨conn, hclient⟩ := Option.ne_none_iff_exists'.mp (h.found _ _ hfound).1
        refine h.dropClient hclient fun t hsender => ?_
        have hstep : s.step (.comUnlink comId) = s.dropClient client := by
          simp only [ConnServer.step, hfound]
        have hkept := hok.2 t client (by rw [hstep, dropClient_sender]; exact hsender)
          (by rw [hclient]; rfl)
        rw [hstep, h.dropClient_clients hclient] at hkept
        cases hkept
      · exact h

end Sound

end ConnServer

end AdaptiveSignal.Network
