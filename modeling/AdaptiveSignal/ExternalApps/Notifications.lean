import AdaptiveSignal.ExternalApps.Proxy
import AdaptiveSignal.Foundation.Run
import Mathlib.Data.Fintype.Basic

/-! # Notifications of the external applications

A thread that calls the callbacks of an event names the application it has come to in a
variable of all threads. The callback of an external application takes from it where to
send what the application is told, and for a packet of a vehicle the form of the parameter
depends on it. No mutex is held meanwhile.
-/

namespace AdaptiveSignal.ExternalApps

open Foundation Registration

/-! ## What is sent -/

inductive NotifyPacket
  /-- `packet_header_from_proxy_t` with `EA_PACKET_TYPE_NM_NTF`. -/
  | header (callbackEvent : EventType)
  | size (n : ℕ)
  | memory (bytes : List UInt8)
  deriving DecidableEq

/-- The packets of a callback that forwards its parameter. -/
def notification (event : EventType) (parts : List NotifyPacket) : List NotifyPacket :=
  .header event :: parts

def onObuPacketRxSameFormat (msg obuObject privateSpace : List UInt8) : List NotifyPacket :=
  notification .obuPacketRx
    [.size msg.length, .memory msg, .memory obuObject, .memory privateSpace]

def onCloudPacketRx (appSection payload : List UInt8) : List NotifyPacket :=
  notification .cloudPacketRx [.memory appSection, .memory payload]

def onCameraPacketRx (obstacleList tab : List UInt8) : List NotifyPacket :=
  notification .cameraPacketRx [.memory obstacleList, .memory tab]

def onTrafficSignalCommandTx (command : List UInt8) : List NotifyPacket :=
  notification .trafficSignalCommandTx [.memory command]

/-! ## The loops over a callback list -/

/-- An entry that a loop comes to, with the application it belongs to and what the loop has
for its callback. -/
inductive Turn
  /-- `selected` is whether the entry is for the kind of the message. -/
  | obuPacketRx (app : UInt8) (selected : Bool) (msg obuObject privateSpace : List UInt8)
  | cloudPacketRx (app : UInt8) (appSection payload : List UInt8)
  | cameraPacketRx (app : UInt8) (obstacleList tab : List UInt8)
  | trafficSignalCommandTx (app : UInt8) (command : List UInt8)
  deriving DecidableEq

namespace Turn

def app : Turn → UInt8
  | obuPacketRx app .. | cloudPacketRx app .. | cameraPacketRx app ..
  | trafficSignalCommandTx app _ => app

/-- The callback is called. -/
def selected : Turn → Bool
  | obuPacketRx _ selected .. => selected
  | _ => true

/-- There is a form of the parameter for external applications and one for the others. -/
def twoForms : Turn → Bool
  | obuPacketRx .. => true
  | _ => false

def packets : Turn → List NotifyPacket
  | obuPacketRx _ _ msg obuObject privateSpace =>
      onObuPacketRxSameFormat msg obuObject privateSpace
  | cloudPacketRx _ appSection payload => onCloudPacketRx appSection payload
  | cameraPacketRx _ obstacleList tab => onCameraPacketRx obstacleList tab
  | trafficSignalCommandTx _ command => onTrafficSignalCommandTx command

end Turn

/-- A header, and something else behind it. -/
theorem Turn.packets_eq (turn : Turn) : ∃ event part rest,
    turn.packets = .header event :: part :: rest ∧ ∀ other, part ≠ .header other := by
  cases turn <;> exact ⟨_, _, _, rfl, fun _ => by simp⟩

theorem Turn.packets_ne_nil (turn : Turn) : turn.packets ≠ [] := by
  obtain ⟨event, part, rest, heq, -⟩ := turn.packets_eq
  simp [heq]

/-! ## The threads -/

/-- The records of the external applications, none of an internal one, while no application
is linked or unlinked. -/
structure Links where
  eaInfo : UInt8 → Option EaInfo
  /-- The kernel gives a descriptor once. -/
  distinct : ∀ {a b : UInt8} {infoA infoB : EaInfo}, eaInfo a = some infoA →
    eaInfo b = some infoB → infoA.notifyFd = infoB.notifyFd → infoA.notifyFd ≠ 0 → a = b

namespace Links

variable (links : Links)

abbrev External (app : UInt8) : Prop := (links.eaInfo app).isSome

/-- The socket that the notifications of an application go to. -/
def socket (app : UInt8) : Option ℕ :=
  (links.eaInfo app).bind fun info => if info.notifyFd = 0 then none else some info.notifyFd

variable {links} {app other : UInt8} {fd : ℕ}

theorem socket_eq_some_iff : links.socket app = some fd ↔
    fd ≠ 0 ∧ ∃ info, links.eaInfo app = some info ∧ info.notifyFd = fd := by
  unfold socket
  cases links.eaInfo app with
  | none => simp
  | some info => aesop

theorem external_of_socket (hsocket : links.socket app = some fd) : links.External app := by
  obtain ⟨-, info, hinfo, -⟩ := socket_eq_some_iff.mp hsocket
  simp [External, hinfo]

theorem eq_of_socket (happ : links.socket app = some fd) (hother : links.socket other = some fd) :
    app = other := by
  obtain ⟨hfd, info, hinfo, heq⟩ := socket_eq_some_iff.mp happ
  obtain ⟨-, info', hinfo', heq'⟩ := socket_eq_some_iff.mp hother
  exact links.distinct hinfo hinfo' (heq.trans heq'.symm) (heq ▸ hfd)

end Links

/-- Where a thread is with the entry it has come to. -/
inductive TurnPlace
  | before
  | choosing
  /-- In `forward_function_parameter_check`, which looks at the application twice. -/
  | checking
  | checkingFd
  | fetching
  | sending (fd : ℕ) (left : List NotifyPacket)
  deriving DecidableEq

structure Notifier (Thread : Type*) where
  proxyHandlingApp : Option UInt8
  /-- The entries that a thread has yet to come to or is at. -/
  waiting : Thread → List Turn
  place : Thread → TurnPlace
  received : ℕ → List NotifyPacket
  /-- The entries that the threads are done with, in that order. -/
  finished : List (Thread × Turn)
  /-- A null pointer was read, or a callback took a parameter in the other form. -/
  fault : Bool

namespace Notifier

variable {Thread : Type*} [DecidableEq Thread] (links : Links)

def initial (program : Thread → List Turn) : Notifier Thread where
  proxyHandlingApp := none
  waiting := program
  place _ := .before
  received _ := []
  finished := []
  fault := false

def goTo (s : Notifier Thread) (t : Thread) (p : TurnPlace) : Notifier Thread :=
  { s with place := Function.update s.place t p }

def finish (s : Notifier Thread) (t : Thread) (turn : Turn) (rest : List Turn) :
    Notifier Thread :=
  { s with
    waiting := Function.update s.waiting t rest
    place := Function.update s.place t .before
    finished := s.finished ++ [(t, turn)] }

def send (s : Notifier Thread) (fd : ℕ) (packets : List NotifyPacket) : Notifier Thread :=
  { s with received := Function.update s.received fd (s.received fd ++ packets) }

omit [DecidableEq Thread] in
@[simp] theorem received_send_self (s : Notifier Thread) (fd : ℕ) (packets : List NotifyPacket) :
    (s.send fd packets).received fd = s.received fd ++ packets :=
  Function.update_self ..

omit [DecidableEq Thread] in
theorem received_send_of_ne (s : Notifier Thread) {fd other : ℕ} (packets : List NotifyPacket)
    (hne : other ≠ fd) : (s.send fd packets).received other = s.received other :=
  Function.update_of_ne hne ..

/-- The callback is called: one of the middleware's own, or one that forwards. -/
def call (s : Notifier Thread) (t : Thread) (turn : Turn) (rest : List Turn) : Notifier Thread :=
  if links.External turn.app then s.goTo t .checking else s.finish t turn rest

/-- What a thread does next at an entry. -/
def proceed (s : Notifier Thread) (t : Thread) (turn : Turn) (rest : List Turn) :
    Notifier Thread :=
  match s.place t with
  | .before =>
      let s := { s with proxyHandlingApp := some turn.app }
      if turn.selected then
        if turn.twoForms then s.goTo t .choosing else s.call links t turn rest
      else s.finish t turn rest
  | .choosing =>
      match s.proxyHandlingApp with
      | none => { s with fault := true }
      | some app =>
          if links.External app ↔ links.External turn.app then s.call links t turn rest
          else { s with fault := true }
  | .checking =>
      match s.proxyHandlingApp.bind links.eaInfo with
      | none => s.finish t turn rest
      | some _ => s.goTo t .checkingFd
  | .checkingFd =>
      match s.proxyHandlingApp.bind links.eaInfo with
      | none => { s with fault := true }
      | some info => if info.notifyFd = 0 then s.finish t turn rest else s.goTo t .fetching
  | .fetching =>
      match s.proxyHandlingApp.bind links.eaInfo with
      | none => { s with fault := true }
      | some info => s.goTo t (.sending info.notifyFd turn.packets)
  | .sending _ [] => s.finish t turn rest
  | .sending fd [packet] => (s.send fd [packet]).finish t turn rest
  | .sending fd (packet :: left) => (s.send fd [packet]).goTo t (.sending fd left)

/-- One step of one of the threads. -/
def step (s : Notifier Thread) (t : Thread) : Notifier Thread :=
  if s.fault then s
  else
    match s.waiting t with
    | [] => s
    | turn :: rest => s.proceed links t turn rest

/-! ## What is due -/

/-- An entry whose callback has something for the socket. -/
def Due (turn : Turn) (fd : ℕ) : Prop :=
  turn.selected ∧ links.socket turn.app = some fd

instance (turn : Turn) (fd : ℕ) : Decidable (Due links turn fd) :=
  inferInstanceAs (Decidable (turn.selected = true ∧ links.socket turn.app = some fd))

/-- What the entries are to send to a socket. -/
def due (finished : List (Thread × Turn)) (fd : ℕ) : List NotifyPacket :=
  (finished.filter fun entry => Due links entry.2 fd).flatMap fun entry => entry.2.packets

/-- Nothing went wrong, the threads went through their entries in order, and whenever none of
them is at an entry every socket has got the notifications of its application one after
another. -/
structure Delivers (program : Thread → List Turn) (s : Notifier Thread) : Prop where
  fault : s.fault = false
  order : ∀ t, (s.finished.filter fun entry => entry.1 = t).map Prod.snd ++ s.waiting t = program t
  whole : (∀ t, s.place t = .before) → ∀ fd, s.received fd = due links s.finished fd

/-- Coming to one entry while another thread is at `current` changes what that thread finds or
puts something among what it sends. -/
def Disturbs (turn current : Turn) : Prop :=
  current.selected ∧
    if links.External current.app then turn.app ≠ current.app ∨ turn.selected
    else current.twoForms ∧ links.External turn.app

/-- A thread is at an entry. -/
def At (s : Notifier Thread) (t : Thread) (turn : Turn) : Prop :=
  s.place t ≠ .before ∧ (s.waiting t).head? = some turn

instance (turn current : Turn) : Decidable (Disturbs links turn current) := by
  unfold Disturbs
  infer_instance

/-- The next step of the thread does not disturb any other thread. -/
def Undisturbed (s : Notifier Thread) (t : Thread) : Prop :=
  s.place t = .before → ∀ turn ∈ (s.waiting t).head?, ∀ other ≠ t, s.place other ≠ .before →
    ∀ current ∈ (s.waiting other).head?, ¬ Disturbs links turn current

instance [Fintype Thread] (s : Notifier Thread) (t : Thread) :
    Decidable (Undisturbed links s t) := by
  unfold Undisturbed
  infer_instance

/-! ## Runs without a disturbance -/

/-- What a thread at a place in the callback of an entry relies on. -/
def Suits (s : Notifier Thread) (turn : Turn) : TurnPlace → Prop
  | .before => True
  | .choosing => turn.twoForms ∧ ∃ app, s.proxyHandlingApp = some app ∧
      (links.External turn.app → app = turn.app) ∧ (links.External app → links.External turn.app)
  | .checking | .checkingFd => links.External turn.app ∧ s.proxyHandlingApp = some turn.app
  | .fetching => (∃ fd, links.socket turn.app = some fd) ∧ s.proxyHandlingApp = some turn.app
  | .sending fd left => links.socket turn.app = some fd ∧ left ≠ [] ∧
      s.received fd ++ left = due links s.finished fd ++ turn.packets

structure Sound (s : Notifier Thread) : Prop where
  fault : s.fault = false
  current : ∀ t, s.place t ≠ .before →
    ∃ turn, (s.waiting t).head? = some turn ∧ turn.selected ∧ Suits links s turn (s.place t)
  apart : ∀ t u turn other, s.At t turn → s.At u other → links.External turn.app →
    turn.app = other.app → t = u
  whole : ∀ fd, (∀ t left, s.place t ≠ .sending fd left) → s.received fd = due links s.finished fd

variable {links} {program : Thread → List Turn} {s s' : Notifier Thread} {t : Thread}
  {turn : Turn} {rest : List Turn}

omit [DecidableEq Thread] in
theorem due_append (first second : List (Thread × Turn)) (fd : ℕ) :
    due links (first ++ second) fd = due links first fd ++ due links second fd := by
  rw [due, due, due, List.filter_append, List.flatMap_append]

omit [DecidableEq Thread] in
theorem due_concat (finished : List (Thread × Turn)) (t : Thread) (turn : Turn) (fd : ℕ) :
    due links (finished ++ [(t, turn)]) fd =
      due links finished fd ++ if Due links turn fd then turn.packets else [] := by
  rw [due_append]
  by_cases hdue : Due links turn fd
  · simp [due, hdue]
  · simp [due, hdue]

omit [DecidableEq Thread] in
/-- One thread is at one entry. -/
theorem At.unique {other : Turn} (h : s.At t turn) (hother : s.At t other) : turn = other :=
  Option.some_inj.mp (h.2.symm.trans hother.2)

omit [DecidableEq Thread] in
/-- What is relied on is the variable and what the socket of the application has got. -/
theorem suits_congr {p : TurnPlace} (hname : s'.proxyHandlingApp = s.proxyHandlingApp)
    (hsocket : ∀ fd left, p = .sending fd left → links.socket turn.app = some fd →
      s'.received fd = s.received fd ∧ due links s'.finished fd = due links s.finished fd)
    (hsuits : Suits links s turn p) : Suits links s' turn p := by
  cases p with
  | before => trivial
  | choosing => exact ⟨hsuits.1, hname ▸ hsuits.2⟩
  | checking | checkingFd | fetching => exact ⟨hsuits.1, hname ▸ hsuits.2⟩
  | sending fd left =>
      obtain ⟨hreceived, hdue⟩ := hsocket fd left rfl hsuits.1
      exact ⟨hsuits.1, hsuits.2.1, by rw [hreceived, hdue, hsuits.2.2]⟩

namespace Sound

omit [DecidableEq Thread] in
theorem suits (h : Sound links s) (hat : s.At t turn) :
    turn.selected ∧ Suits links s turn (s.place t) := by
  obtain ⟨current, hhead, hselected, hsuits⟩ := h.current t hat.1
  rw [Option.some_inj.mp (hat.2.symm.trans hhead)]
  exact ⟨hselected, hsuits⟩

/-- A step of one thread, which the others rely on as before. -/
theorem of_step (h : Sound links s) (hfault : s'.fault = false)
    (hwaiting : ∀ u ≠ t, s'.waiting u = s.waiting u) (hplace : ∀ u ≠ t, s'.place u = s.place u)
    (hmine : s'.place t ≠ .before →
      ∃ turn, (s'.waiting t).head? = some turn ∧ turn.selected ∧ Suits links s' turn (s'.place t))
    (happart : ∀ turn u other, s'.At t turn → u ≠ t → s.At u other → links.External turn.app →
      turn.app ≠ other.app)
    (hothers : ∀ u ≠ t, ∀ turn, s.At u turn → Suits links s turn (s.place u) →
      Suits links s' turn (s.place u))
    (hwhole : ∀ fd, (∀ u left, s'.place u ≠ .sending fd left) →
      s'.received fd = due links s'.finished fd) : Sound links s' := by
  have hat {u : Thread} (hne : u ≠ t) {turn : Turn} : s'.At u turn ↔ s.At u turn := by
    rw [At, At, hplace u hne, hwaiting u hne]
  refine ⟨hfault, fun u hu => ?_, fun u v turn other hu hv hexternal heq => ?_, hwhole⟩
  · rcases eq_or_ne u t with rfl | hne
    · exact hmine hu
    · rw [hplace u hne] at hu
      obtain ⟨turn, hhead, hselected, hsuits⟩ := h.current u hu
      rw [hwaiting u hne, hplace u hne]
      exact ⟨turn, hhead, hselected, hothers u hne turn ⟨hu, hhead⟩ hsuits⟩
  · rcases eq_or_ne u t with rfl | hne
    · by_contra hother
      have hv := (hat (Ne.symm hother)).mp hv
      exact happart turn v other hu (Ne.symm hother) hv hexternal heq
    · rcases eq_or_ne v t with rfl | hne'
      · exact absurd heq.symm
          (happart other u turn hv hne ((hat hne).mp hu) (heq ▸ hexternal))
      · exact h.apart u v turn other ((hat hne).mp hu) ((hat hne').mp hv) hexternal heq

omit [DecidableEq Thread] in
/-- Coming to an entry, as far as the variable goes. -/
theorem name (h : Sound links s)
    (hfree : ∀ u current, s.At u current → ¬ Disturbs links turn current) :
    Sound links { s with proxyHandlingApp := some turn.app } := by
  refine { h with current := fun u hu => ?_ }
  obtain ⟨current, hhead, hselected, hsuits⟩ := h.current u hu
  refine ⟨current, hhead, hselected, ?_⟩
  have hnot := hfree u current ⟨hu, hhead⟩
  rw [Disturbs, not_and] at hnot
  have hnot := hnot hselected
  have hsame (hexternal : links.External current.app) : turn.app = current.app := by
    rw [if_pos hexternal, not_or] at hnot
    exact not_not.mp hnot.1
  change Suits links _ current (s.place u)
  cases hplace : s.place u with
  | before => trivial
  | choosing =>
      rw [hplace] at hsuits
      refine ⟨hsuits.1, turn.app, rfl, hsame, fun hexternal => ?_⟩
      by_contra hinternal
      rw [if_neg hinternal] at hnot
      exact hnot ⟨hsuits.1, hexternal⟩
  | checking | checkingFd =>
      rw [hplace] at hsuits
      exact ⟨hsuits.1, by rw [hsame hsuits.1]⟩
  | fetching =>
      rw [hplace] at hsuits
      obtain ⟨⟨fd, hfd⟩, -⟩ := hsuits
      exact ⟨⟨fd, hfd⟩, by rw [hsame (Links.external_of_socket hfd)]⟩
  | sending fd left =>
      rw [hplace] at hsuits
      exact hsuits

/-- Going on at an entry. -/
theorem goTo (h : Sound links s) {p : TurnPlace} (hturn : (s.waiting t).head? = some turn)
    (hselected : turn.selected) (hsuits : Suits links s turn p)
    (hplace : ∀ fd left, s.place t ≠ .sending fd left)
    (happart : ∀ u other, u ≠ t → s.At u other → links.External turn.app →
      turn.app ≠ other.app) : Sound links (s.goTo t p) := by
  refine h.of_step (t := t) h.fault (fun _ _ => rfl) (fun u hne => Function.update_of_ne hne ..)
    (fun _ => ⟨turn, hturn, hselected, ?_⟩) (fun turn' u other hat hne hother hexternal => ?_)
    (fun _ _ _ _ => suits_congr rfl fun _ _ _ _ => ⟨rfl, rfl⟩)
    fun fd hno => h.whole fd fun u left hsending => ?_
  · have hp : (s.goTo t p).place t = p := Function.update_self ..
    rw [hp]
    exact suits_congr rfl (fun _ _ _ _ => ⟨rfl, rfl⟩) hsuits
  · obtain rfl : turn = turn' := Option.some_inj.mp (hturn.symm.trans hat.2)
    exact happart u other hne hother hexternal
  · have hne : u ≠ t := fun heq => hplace fd left (heq ▸ hsending)
    exact hno u left ((Function.update_of_ne hne ..).trans hsending)

/-- Being done with an entry that nothing is due for. -/
theorem finish (h : Sound links s) (hskip : ∀ fd, ¬ Due links turn fd)
    (hplace : ∀ fd left, s.place t ≠ .sending fd left) : Sound links (s.finish t turn rest) := by
  have hdue (fd : ℕ) : due links (s.finished ++ [(t, turn)]) fd = due links s.finished fd := by
    rw [due_concat, if_neg (hskip fd), List.append_nil]
  have hbefore : (s.finish t turn rest).place t = .before := Function.update_self ..
  refine h.of_step (t := t) h.fault (fun u hne => Function.update_of_ne hne ..)
    (fun u hne => Function.update_of_ne hne ..) (fun hne => absurd hbefore hne)
    (fun _ _ _ hat => absurd hbefore hat.1) (fun u hne current hat => ?_) fun fd hno => ?_
  · exact suits_congr rfl fun fd _ _ _ => ⟨rfl, hdue fd⟩
  · refine (h.whole fd fun u left hsending => ?_).trans (hdue fd).symm
    have hne : u ≠ t := fun heq => hplace fd left (heq ▸ hsending)
    exact hno u left ((Function.update_of_ne hne ..).trans hsending)

omit [DecidableEq Thread] in
/-- Nobody else sends to the socket. -/
theorem not_sending (h : Sound links s) (hat : s.At t turn) {fd : ℕ}
    (hsocket : links.socket turn.app = some fd) {u : Thread} (hne : u ≠ t)
    (left : List NotifyPacket) : s.place u ≠ .sending fd left := by
  intro hsending
  obtain ⟨other, hhead, -, hsuits⟩ := h.current u (by rw [hsending]; simp)
  rw [hsending] at hsuits
  have hother : s.At u other := ⟨by rw [hsending]; simp, hhead⟩
  refine hne (h.apart t u turn other hat hother (Links.external_of_socket hsocket) ?_).symm
  exact Links.eq_of_socket hsocket hsuits.1

omit [DecidableEq Thread] in
/-- Nor does a packet matter to what others send. -/
theorem ne_of_sending (h : Sound links s) (hat : s.At t turn) {fd fd' : ℕ}
    (hsocket : links.socket turn.app = some fd) {u : Thread} (hne : u ≠ t)
    {left : List NotifyPacket} (hsending : s.place u = .sending fd' left) : fd' ≠ fd := by
  rintro rfl
  exact h.not_sending hat hsocket hne left hsending

omit [DecidableEq Thread] in
/-- The other sockets have got what is due where no other thread is sending to them. -/
theorem received_send (h : Sound links s) {fd fd' : ℕ} {packets left : List NotifyPacket}
    (hplace : s.place t = .sending fd left) (hne : fd' ≠ fd)
    (hno : ∀ u ≠ t, ∀ left, s.place u ≠ .sending fd' left) :
    (s.send fd packets).received fd' = due links s.finished fd' := by
  refine (received_send_of_ne s packets hne).trans (h.whole fd' fun u left' hsending => ?_)
  rcases eq_or_ne u t with rfl | hneu
  · rw [hplace] at hsending
    exact hne (TurnPlace.sending.inj hsending).1.symm
  · exact hno u hneu left' hsending

variable {fd : ℕ} {packet : NotifyPacket} {left : List NotifyPacket}

/-- A packet is sent that is not the last one. -/
theorem sendOne (h : Sound links s) (hat : s.At t turn)
    (hplace : s.place t = .sending fd (packet :: left)) (hleft : left ≠ []) :
    Sound links ((s.send fd [packet]).goTo t (.sending fd left)) := by
  obtain ⟨hselected, hsuits⟩ := h.suits hat
  rw [hplace] at hsuits
  obtain ⟨hsocket, -, hreceived⟩ := hsuits
  have hp : ((s.send fd [packet]).goTo t (.sending fd left)).place t = .sending fd left :=
    Function.update_self ..
  refine h.of_step (t := t) h.fault (fun _ _ => rfl) (fun u hne => Function.update_of_ne hne ..)
    (fun _ => ⟨turn, hat.2, hselected, ?_⟩) (fun turn' u other hat' hne hother hexternal => ?_)
    (fun u hne current hat' => ?_) fun fd' hno => ?_
  · rw [hp]
    refine ⟨hsocket, hleft, ?_⟩
    change (s.send fd [packet]).received fd ++ left = _
    rw [received_send_self, List.append_assoc]
    exact hreceived
  · obtain rfl : turn = turn' := Option.some_inj.mp (hat.2.symm.trans hat'.2)
    exact fun heq => hne (h.apart t u turn other hat hother hexternal heq).symm
  · refine suits_congr rfl fun fd' left hsending _ => ?_
    exact ⟨received_send_of_ne s [packet] (h.ne_of_sending hat hsocket hne hsending), rfl⟩
  · have hne : fd' ≠ fd := by
      rintro rfl
      exact hno t left hp
    exact h.received_send hplace hne fun u hneu left hsending =>
      hno u left ((Function.update_of_ne hneu ..).trans hsending)

/-- The last packet is sent. -/
theorem sendLast (h : Sound links s) (hat : s.At t turn)
    (hplace : s.place t = .sending fd [packet]) :
    Sound links ((s.send fd [packet]).finish t turn rest) := by
  obtain ⟨hselected, hsuits⟩ := h.suits hat
  rw [hplace] at hsuits
  obtain ⟨hsocket, -, hreceived⟩ := hsuits
  have hbefore : ((s.send fd [packet]).finish t turn rest).place t = .before :=
    Function.update_self ..
  have hdue (fd' : ℕ) : due links (s.finished ++ [(t, turn)]) fd' =
      if fd' = fd then due links s.finished fd ++ turn.packets
      else due links s.finished fd' := by
    rw [due_concat]
    split_ifs with hdue heq heq
    · rw [heq]
    · exact absurd (Option.some_inj.mp (hdue.2.symm.trans hsocket)) heq
    · exact absurd ⟨hselected, heq ▸ hsocket⟩ hdue
    · rw [List.append_nil]
  refine h.of_step (t := t) h.fault (fun u hne => Function.update_of_ne hne ..)
    (fun u hne => Function.update_of_ne hne ..) (fun hne => absurd hbefore hne)
    (fun _ _ _ hat => absurd hbefore hat.1) (fun u hne current hat' => ?_) fun fd' hno => ?_
  · refine suits_congr rfl fun fd' left hsending _ => ?_
    have hne' := h.ne_of_sending hat hsocket hne hsending
    exact ⟨received_send_of_ne s [packet] hne', (hdue fd').trans (if_neg hne')⟩
  · refine Eq.trans ?_ (hdue fd').symm
    split_ifs with heq
    · subst heq
      change (s.send fd' [packet]).received fd' = _
      rw [received_send_self]
      exact hreceived
    · exact h.received_send hplace heq fun u hne left hsending =>
        hno u left ((Function.update_of_ne hne ..).trans hsending)

omit [DecidableEq Thread] in
/-- An entry that is selected and does not disturb finds no other thread at an external
application. -/
theorem not_external (h : Sound links s) (hfree : ∀ u current, s.At u current →
    ¬ Disturbs links turn current) (hselected : turn.selected) {u : Thread} {other : Turn}
    (hat : s.At u other) : ¬ links.External other.app := by
  intro hexternal
  refine hfree u other hat ⟨(h.suits hat).1, ?_⟩
  rw [if_pos hexternal]
  exact .inr hselected

/-- The callback of an entry is called. -/
theorem call (h : Sound links s) (hhead : (s.waiting t).head? = some turn)
    (hselected : turn.selected) (hplace : ∀ fd left, s.place t ≠ .sending fd left)
    (hname : links.External turn.app → s.proxyHandlingApp = some turn.app)
    (happart : ∀ u other, u ≠ t → s.At u other → links.External turn.app →
      turn.app ≠ other.app) : Sound links (s.call links t turn rest) := by
  unfold Notifier.call
  split_ifs with hexternal
  · exact h.goTo hhead hselected ⟨hexternal, hname hexternal⟩ hplace happart
  · exact h.finish (fun fd hdue => hexternal (Links.external_of_socket hdue.2)) hplace

theorem proceed (h : Sound links s) (hok : Undisturbed links s t)
    (hturn : s.waiting t = turn :: rest) : Sound links (s.proceed links t turn rest) := by
  have hhead : (s.waiting t).head? = some turn := by rw [hturn]; rfl
  have hsuits (hne : s.place t ≠ .before) := h.suits ⟨hne, hhead⟩
  have happart (hne : s.place t ≠ .before) (u : Thread) (other : Turn) (hneu : u ≠ t)
      (hat : s.At u other) (hexternal : links.External turn.app) : turn.app ≠ other.app :=
    fun heq => hneu (h.apart t u turn other ⟨hne, hhead⟩ hat hexternal heq).symm
  cases hplace : s.place t with
  | before =>
      have hfree (u : Thread) (current : Turn) (hat : s.At u current) :
          ¬ Disturbs links turn current :=
        hok hplace turn hhead u (fun heq => hat.1 (heq ▸ hplace)) hat.1 current hat.2
      have hnot (fd : ℕ) (left : List NotifyPacket) : s.place t ≠ .sending fd left := by
        simp [hplace]
      have happart (hselected : turn.selected) (u : Thread) (other : Turn) (_ : u ≠ t)
          (hat : s.At u other) (hexternal : links.External turn.app) : turn.app ≠ other.app :=
        fun heq => h.not_external hfree hselected hat (heq ▸ hexternal)
      have hnamed := h.name hfree
      simp only [Notifier.proceed, hplace]
      split_ifs with hselected htwo
      · exact hnamed.goTo hhead hselected ⟨htwo, turn.app, rfl, fun _ => rfl, id⟩ hnot
          (happart hselected)
      · exact hnamed.call hhead hselected hnot (fun _ => rfl) (happart hselected)
      · exact hnamed.finish (fun fd hdue => hselected hdue.1) hnot
  | choosing =>
      obtain ⟨hselected, hsuits⟩ := hsuits (by simp [hplace])
      rw [hplace] at hsuits
      obtain ⟨-, app, hname, hsame, hinternal⟩ := hsuits
      have hform : links.External app ↔ links.External turn.app :=
        ⟨hinternal, fun hexternal => hsame hexternal ▸ hexternal⟩
      simp only [Notifier.proceed, hplace, hname, if_pos hform]
      refine h.call hhead hselected (by simp [hplace]) (fun hexternal => ?_)
        (happart (by simp [hplace]))
      rw [hname, hsame hexternal]
  | checking =>
      obtain ⟨hselected, hsuits⟩ := hsuits (by simp [hplace])
      rw [hplace] at hsuits
      obtain ⟨info, hinfo⟩ := Option.isSome_iff_exists.mp hsuits.1
      simp only [Notifier.proceed, hplace, hsuits.2, Option.bind_some, hinfo]
      exact h.goTo hhead hselected hsuits (by simp [hplace]) (happart (by simp [hplace]))
  | checkingFd =>
      obtain ⟨hselected, hsuits⟩ := hsuits (by simp [hplace])
      rw [hplace] at hsuits
      obtain ⟨info, hinfo⟩ := Option.isSome_iff_exists.mp hsuits.1
      simp only [Notifier.proceed, hplace, hsuits.2, Option.bind_some, hinfo]
      split_ifs with hzero
      · refine h.finish (fun fd hdue => ?_) (by simp [hplace])
        obtain ⟨hfd, info', hinfo', heq⟩ := Links.socket_eq_some_iff.mp hdue.2
        rw [hinfo] at hinfo'
        exact hfd (heq ▸ Option.some_inj.mp hinfo' ▸ hzero)
      · have hsocket := Links.socket_eq_some_iff.mpr ⟨hzero, info, hinfo, rfl⟩
        exact h.goTo hhead hselected ⟨⟨_, hsocket⟩, hsuits.2⟩ (by simp [hplace])
          (happart (by simp [hplace]))
  | fetching =>
      have hat : s.At t turn := ⟨by simp [hplace], hhead⟩
      obtain ⟨hselected, hsuits⟩ := hsuits hat.1
      rw [hplace] at hsuits
      obtain ⟨⟨fd, hfd⟩, hname⟩ := hsuits
      obtain ⟨-, info, hinfo, rfl⟩ := Links.socket_eq_some_iff.mp hfd
      simp only [Notifier.proceed, hplace, hname, Option.bind_some, hinfo]
      refine h.goTo hhead hselected ⟨hfd, turn.packets_ne_nil, ?_⟩ (by simp [hplace])
        (happart hat.1)
      rw [h.whole info.notifyFd fun u left hsending => ?_]
      refine h.not_sending hat hfd (fun heq => ?_) left hsending
      rw [heq, hplace] at hsending
      cases hsending
  | sending fd left =>
      have hat : s.At t turn := ⟨by simp [hplace], hhead⟩
      have hsuits := (hsuits hat.1).2
      rw [hplace] at hsuits
      rcases left with _ | ⟨packet, _ | ⟨next, left⟩⟩
      · exact absurd rfl hsuits.2.1
      · simp only [Notifier.proceed, hplace]
        exact h.sendLast hat hplace
      · simp only [Notifier.proceed, hplace]
        exact h.sendOne hat hplace (List.cons_ne_nil next left)

theorem step (h : Sound links s) (hok : Undisturbed links s t) : Sound links (s.step links t) := by
  unfold Notifier.step
  rw [if_neg (by simp [h.fault])]
  split
  · exact h
  next turn rest hturn => exact h.proceed hok hturn

omit [DecidableEq Thread] in
theorem initial (program : Thread → List Turn) : Sound links (initial program) :=
  ⟨rfl, fun _ hne => absurd rfl hne, fun _ _ _ _ hat => absurd rfl hat.1, fun _ _ => rfl⟩

end Sound

/-! ## The order of a thread -/

variable (links)

/-- What a thread is done with, and what it has yet to come to. -/
def Ordered (program : Thread → List Turn) (s : Notifier Thread) : Prop :=
  ∀ t, (s.finished.filter fun entry => entry.1 = t).map Prod.snd ++ s.waiting t = program t

theorem proceed_cases (s : Notifier Thread) (t : Thread) (turn : Turn) (rest : List Turn) :
    (s.proceed links t turn rest).waiting = s.waiting ∧
        (s.proceed links t turn rest).finished = s.finished ∨
      (s.proceed links t turn rest).waiting = Function.update s.waiting t rest ∧
        (s.proceed links t turn rest).finished = s.finished ++ [(t, turn)] := by
  unfold proceed call
  repeat' split
  all_goals first | exact .inl ⟨rfl, rfl⟩ | exact .inr ⟨rfl, rfl⟩

variable {links}

theorem Ordered.step (h : Ordered program s) (t : Thread) : Ordered program (s.step links t) := by
  unfold Notifier.step
  split_ifs with hfault
  · exact h
  split
  · exact h
  next turn rest hturn =>
    intro u
    rcases proceed_cases links s t turn rest with ⟨hwaiting, hfinished⟩ | ⟨hwaiting, hfinished⟩
    · rw [hwaiting, hfinished]
      exact h u
    · rw [hwaiting, hfinished, ← h u, List.filter_append, List.map_append, List.append_assoc]
      congr 1
      rcases eq_or_ne u t with rfl | hne
      · simp [hturn]
      · simp [Function.update_of_ne hne, hne.symm]

/-! ## Delivery -/

theorem Sound.delivers (h : Sound links s) (horder : Ordered program s) :
    Delivers links program s where
  fault := h.fault
  order := horder
  whole hbefore fd := h.whole fd fun t left hsending => by simp [hbefore t] at hsending

theorem ordered_run (links : Links) (program : Thread → List Turn) (schedule : List Thread) :
    Ordered program (run (step links) (initial program) schedule) :=
  run_invariant (step links) (fun _ t h => h.step t) _ schedule fun _ => rfl

/-- As long as no thread comes to an entry that disturbs another thread, every external
application gets its notifications one after another, and no callback fails. -/
theorem notifications_delivered (links : Links) (program : Thread → List Turn)
    (schedule : List Thread)
    (hrun : Guarded (step links) (Undisturbed links) (initial program) schedule) :
    Delivers links program (run (step links) (initial program) schedule) :=
  (hrun.invariant (Sound links) (.initial program) fun _ _ h hok => h.step hok).delivers
    (ordered_run links program schedule)

/-- One external application, with a socket for its notifications. -/
def oneApplication (id : UInt8) (notifyFd : ℕ) : Links where
  eaInfo app := if app = id then some { EaInfo.cleared with notifyFd } else none
  distinct hfirst hsecond _ _ := by
    split_ifs at hfirst hsecond with ha hb
    exact ha.trans hb.symm

/-- A command is announced before and after a packet is forwarded. -/
theorem notifications_delivered_between :
    Delivers (oneApplication 20 5)
      (fun command => if command then [.trafficSignalCommandTx 6 [1], .trafficSignalCommandTx 6 [2]]
        else [.cloudPacketRx 20 [3] [4]])
      (run (step (oneApplication 20 5))
        (initial fun command =>
          if command then [.trafficSignalCommandTx 6 [1], .trafficSignalCommandTx 6 [2]]
          else [.cloudPacketRx 20 [3] [4]])
        [true, false, false, false, false, false, false, false, true]) :=
  notifications_delivered _ _ _ (by decide)

end Notifier

end AdaptiveSignal.ExternalApps
