import AdaptiveSignal.Foundation.CircularList
import AdaptiveSignal.Foundation.Places
import AdaptiveSignal.Foundation.Run

/-! # The bounded message queues

Two queues of the middleware have one shape: a circular list of messages, a
mutex around it, and two counting semaphores for its messages and its free
places. Any number of threads run their enqueue and dequeue, one atomic
operation at a time. A history records the messages whose enqueue entered the
critical section, those taken off the list, and the calls that returned.
-/

namespace AdaptiveSignal.Network

open Foundation

/-- What distinguishes the two queues: the initial value of their semaphore of
free places, and whether a dequeue waits for a message. -/
structure QueueKind where
  capacity : ℕ
  /-- `sem_wait` on the semaphore of messages, where the other queue has `sem_trywait`. -/
  waits : Bool

def maxMsgQueueSize : ℕ := 1024

def maxJ2735BroadcastListSize : ℕ := 1024

def msgQueue : QueueKind where
  capacity := maxMsgQueueSize
  waits := true

def j2735BroadcastList : QueueKind where
  capacity := maxJ2735BroadcastListSize
  waits := false

/-- Where a thread is: outside both functions, or before one of their operations. -/
inductive QueuePlace (Msg : Type*)
  | outside
  | waitFull (msg : Msg)
  | lockInsert (msg : Msg)
  | insertTail (msg : Msg)
  | unlockInsert (msg : Msg)
  | postEmpty (msg : Msg)
  | waitEmpty
  | lockRemove
  | readHead
  | remove (item : Msg)
  | unlockRemove (item : Msg)
  | postFull (item : Msg)

namespace QueuePlace

variable {Msg : Type*}

/-- The places between locking and unlocking the mutex. -/
def critical : QueuePlace Msg → Bool
  | .insertTail _ | .unlockInsert _ | .readHead | .remove _ | .unlockRemove _ => true
  | _ => false

/-- The message a thread has still to insert. -/
def pending : QueuePlace Msg → Option Msg
  | .waitFull msg | .lockInsert msg | .insertTail msg => some msg
  | _ => none

/-- The message whose enqueue is in the critical section, before the insertion. -/
def entering : QueuePlace Msg → List Msg
  | .insertTail msg => [msg]
  | _ => []

/-- The message a thread has read at the head of the list, before it removes it. -/
def removing : QueuePlace Msg → Option Msg
  | .remove item => some item
  | _ => none

/-- The message that is inserted, in an enqueue that has not returned. -/
def finishing : QueuePlace Msg → List Msg
  | .unlockInsert msg | .postEmpty msg => [msg]
  | _ => []

/-- The message that is off the list, in a dequeue that has not returned it. -/
def returning : QueuePlace Msg → List Msg
  | .unlockRemove item | .postFull item => [item]
  | _ => []

/-- One free place of the list is taken from the semaphore before the insertion. -/
def reserved : QueuePlace Msg → ℕ
  | .lockInsert _ | .insertTail _ => 1
  | _ => 0

/-- One message of the list is not yet posted to the semaphore. -/
def inserted : QueuePlace Msg → ℕ
  | .unlockInsert _ | .postEmpty _ => 1
  | _ => 0

/-- One message is taken from the semaphore before it leaves the list. -/
def claimed : QueuePlace Msg → ℕ
  | .lockRemove | .readHead | .remove _ => 1
  | _ => 0

/-- One free place of the list is not yet posted to the semaphore. -/
def removed : QueuePlace Msg → ℕ
  | .unlockRemove _ | .postFull _ => 1
  | _ => 0

end QueuePlace

/-- What the threads have done so far. -/
structure QueueHistory (Msg : Type*) where
  /-- The messages whose enqueue entered the critical section, in that order. -/
  entered : List Msg
  /-- The messages that left the list, in that order. -/
  taken : List Msg
  /-- The messages whose enqueue returned. -/
  enqueued : List Msg
  /-- The messages that a dequeue returned. -/
  dequeued : List Msg

structure QueueState (Thread Msg : Type*) where
  links : Links Msg
  mutex : Option Thread
  full : ℕ
  empty : ℕ
  place : Thread → QueuePlace Msg
  history : QueueHistory Msg

inductive QueueAction (Msg : Type*)
  | enqueue (msg : Msg)
  | dequeue
  | proceed

namespace QueueState

variable {Thread Msg : Type*} [DecidableEq Thread]

def moveTo (s : QueueState Thread Msg) (t : Thread) (p : QueuePlace Msg) :
    QueueState Thread Msg :=
  { s with place := Function.update s.place t p }

/-- The messages that entered the queue and have not been taken off it. -/
def present (s : QueueState Thread Msg) : List Msg :=
  s.history.entered.drop s.history.taken.length

variable [Fintype Thread] [DecidableEq Msg]

/-- A message that `malloc` can return: neither the head of the list nor a
message in the queue or in the hands of another enqueue. -/
def Fresh (s : QueueState Thread Msg) (head msg : Msg) : Prop :=
  msg ≠ head ∧ msg ∉ s.present ∧ ∀ t, (s.place t).pending ≠ some msg

instance (s : QueueState Thread Msg) (head msg : Msg) : Decidable (s.Fresh head msg) :=
  inferInstanceAs (Decidable (_ ∧ _ ∧ _))

end QueueState

section Step

variable {Thread Msg : Type*} [DecidableEq Thread] [DecidableEq Msg]

/-- The next operation of a thread inside `msg_queue_enqueue` or
`msg_queue_dequeue`; a thread that waits stays where it is. -/
def proceed (kind : QueueKind) (head : Msg) (s : QueueState Thread Msg) (t : Thread) :
    QueueState Thread Msg :=
  match s.place t with
  | .outside => s
  | .waitFull msg =>
      if 0 < s.full then { s with full := s.full - 1 }.moveTo t (.lockInsert msg) else s
  | .lockInsert msg =>
      if s.mutex = none then
        { s with
          mutex := some t
          history := { s.history with entered := s.history.entered ++ [msg] } }.moveTo t
            (.insertTail msg)
      else s
  | .insertTail msg =>
      { s with links := s.links.insertTail head msg }.moveTo t (.unlockInsert msg)
  | .unlockInsert msg => { s with mutex := none }.moveTo t (.postEmpty msg)
  | .postEmpty msg =>
      { s with
        empty := s.empty + 1
        history := { s.history with enqueued := s.history.enqueued ++ [msg] } }.moveTo t .outside
  | .waitEmpty =>
      if 0 < s.empty then { s with empty := s.empty - 1 }.moveTo t .lockRemove
      else if kind.waits then s
      else s.moveTo t .outside
  | .lockRemove => if s.mutex = none then { s with mutex := some t }.moveTo t .readHead else s
  | .readHead => s.moveTo t (.remove (s.links.head head))
  | .remove item =>
      { s with
        links := s.links.remove item
        history := { s.history with taken := s.history.taken ++ [item] } }.moveTo t
          (.unlockRemove item)
  | .unlockRemove item => { s with mutex := none }.moveTo t (.postFull item)
  | .postFull item =>
      { s with
        full := s.full + 1
        history := { s.history with dequeued := s.history.dequeued ++ [item] } }.moveTo t .outside

variable [Fintype Thread]

/-- A thread outside calls one of the two functions, or a thread inside goes on. -/
def queueStep (kind : QueueKind) (head : Msg) (s : QueueState Thread Msg) :
    Thread × QueueAction Msg → QueueState Thread Msg
  | (t, .enqueue msg) =>
      match s.place t with
      | .outside => if s.Fresh head msg then s.moveTo t (.waitFull msg) else s
      | _ => s
  | (t, .dequeue) =>
      match s.place t with
      | .outside => s.moveTo t .waitEmpty
      | _ => s
  | (t, .proceed) => proceed kind head s t

/-- The queue after `msg_queue_init`, whatever its list head held before. -/
def msgQueueInit (kind : QueueKind) (head : Msg) (links : Links Msg) : QueueState Thread Msg where
  links := links.init head
  mutex := none
  full := kind.capacity
  empty := 0
  place := fun _ => .outside
  history := ⟨[], [], [], []⟩

end Step

/-! ## Messages in the hands of one enqueue -/

section Apart

variable {Thread Msg : Type*} [DecidableEq Thread] {place : Thread → QueuePlace Msg}
  {nodes : List Msg} {t : Thread} {p : QueuePlace Msg} {msg : Msg}

/-- A message that an enqueue has still to insert is not in the list, and no
other enqueue has it. -/
def Apart (place : Thread → QueuePlace Msg) (nodes : List Msg) : Prop :=
  ∀ t msg, (place t).pending = some msg →
    msg ∉ nodes ∧ ∀ t', (place t').pending = some msg → t' = t

namespace Apart

/-- A thread that keeps its message, or that has none left, disturbs nobody. -/
theorem keep (h : Apart place nodes) (hp : p.pending = (place t).pending ∨ p.pending = none) :
    Apart (Function.update place t p) nodes := by
  have hold : ∀ t' msg', (Function.update place t p t').pending = some msg' →
      (place t').pending = some msg' := by
    intro t' msg' hmsg
    rcases eq_or_ne t' t with rfl | hne
    · rw [Function.update_self] at hmsg
      rcases hp with hp | hp
      · rw [← hp, hmsg]
      · simp [hp] at hmsg
    · rwa [Function.update_of_ne hne] at hmsg
  intro t' msg' hmsg
  obtain ⟨hnodes, hothers⟩ := h t' msg' (hold t' msg' hmsg)
  exact ⟨hnodes, fun t'' hmsg' => hothers t'' (hold t'' msg' hmsg')⟩

omit [DecidableEq Thread] in
theorem shrink (h : Apart place nodes) {fewer : List Msg} (hsub : fewer ⊆ nodes) :
    Apart place fewer := fun t msg hmsg =>
  ⟨fun hmem => (h t msg hmsg).1 (hsub hmem), (h t msg hmsg).2⟩

/-- A new message that nobody has. -/
theorem begin (h : Apart place nodes) (hp : p.pending = some msg) (hnodes : msg ∉ nodes)
    (hfresh : ∀ t', (place t').pending ≠ some msg) :
    Apart (Function.update place t p) nodes := by
  intro t' msg' hmsg
  rcases eq_or_ne t' t with rfl | hne
  · rw [Function.update_self, hp] at hmsg
    obtain rfl := Option.some.inj hmsg
    refine ⟨hnodes, fun t'' hmsg' => ?_⟩
    by_contra hne
    rw [Function.update_of_ne hne] at hmsg'
    exact hfresh t'' hmsg'
  · rw [Function.update_of_ne hne] at hmsg
    refine ⟨(h t' msg' hmsg).1, fun t'' hmsg' => ?_⟩
    rcases eq_or_ne t'' t with rfl | hne'
    · rw [Function.update_self, hp] at hmsg'
      obtain rfl := Option.some.inj hmsg'
      exact absurd hmsg (hfresh t')
    · rw [Function.update_of_ne hne'] at hmsg'
      exact (h t' msg' hmsg).2 t'' hmsg'

/-- The message that its enqueue has inserted is in the list. -/
theorem insert (h : Apart place nodes) (hmine : (place t).pending = some msg)
    (hp : p.pending = none) : Apart (Function.update place t p) (nodes ++ [msg]) := by
  intro t' msg' hmsg
  have hne : t' ≠ t := by
    rintro rfl
    simp [hp] at hmsg
  have hkept := h.keep (t := t) (Or.inr hp) t' msg' hmsg
  refine ⟨fun hmem => ?_, hkept.2⟩
  rcases List.mem_append.mp hmem with hmem | hmem
  · exact hkept.1 hmem
  · rw [Function.update_of_ne hne, List.mem_singleton.mp hmem] at hmsg
    exact hne ((h t msg hmine).2 t' hmsg)

end Apart

end Apart

/-! ## The invariant -/

section Invariant

variable {Thread Msg : Type*} [DecidableEq Thread] [Fintype Thread] [DecidableEq Msg]

/-- The state of a queue whose list is `queue`: the semaphores count what the
list has, up to the threads between an operation on one and on the other. -/
structure Holds (kind : QueueKind) (head : Msg) (s : QueueState Thread Msg) (queue : List Msg) :
    Prop where
  links : s.links.Threads head queue
  exclusive : Exclusive QueuePlace.critical s.place s.mutex
  apart : Apart s.place (head :: queue)
  /-- The history in the critical section: the owner's message has entered, but is not inserted. -/
  history : s.history.entered =
    s.history.taken ++ queue ++ (s.mutex.elim [] fun t => (s.place t).entering)
  first : ∀ t item, (s.place t).removing = some item → queue.head? = some item
  places : s.full + held QueuePlace.reserved s.place + queue.length +
    held QueuePlace.removed s.place = kind.capacity
  messages : s.empty + held QueuePlace.claimed s.place + held QueuePlace.inserted s.place =
    queue.length
  enqueued : ∀ msg, s.history.enqueued.count msg + held (·.finishing.count msg) s.place =
    s.history.taken.count msg + queue.count msg
  dequeued : ∀ msg, s.history.dequeued.count msg + held (·.returning.count msg) s.place =
    s.history.taken.count msg

namespace Holds

variable {kind : QueueKind} {head : Msg} {s s' : QueueState Thread Msg} {queue queue' : List Msg}
  {t : Thread} {p : QueuePlace Msg}

/-- One thread moves on: what remains are the clauses it may disturb, and how
the semaphores change against its two places. -/
theorem move (h : Holds kind head s queue) (t : Thread) (p : QueuePlace Msg)
    (hplace : s'.place = Function.update s.place t p)
    (links : s'.links.Threads head queue')
    (exclusive : Exclusive QueuePlace.critical s'.place s'.mutex)
    (apart : Apart s'.place (head :: queue'))
    (history : s'.history.entered =
      s'.history.taken ++ queue' ++ (s'.mutex.elim [] fun t => (s'.place t).entering))
    (first : ∀ t item, (s'.place t).removing = some item → queue'.head? = some item)
    (hplaces : s'.full + p.reserved + queue'.length + p.removed =
      s.full + (s.place t).reserved + queue.length + (s.place t).removed)
    (hmessages : s'.empty + p.claimed + p.inserted + queue.length =
      s.empty + (s.place t).claimed + (s.place t).inserted + queue'.length)
    (henqueued : ∀ msg, s'.history.enqueued.count msg + p.finishing.count msg +
      s.history.taken.count msg + queue.count msg = s.history.enqueued.count msg +
        (s.place t).finishing.count msg + s'.history.taken.count msg + queue'.count msg)
    (hdequeued : ∀ msg, s'.history.dequeued.count msg + p.returning.count msg +
      s.history.taken.count msg = s.history.dequeued.count msg +
        (s.place t).returning.count msg + s'.history.taken.count msg) :
    Holds kind head s' queue' := by
  have hreserved := held_update QueuePlace.reserved s.place t p
  have hinserted := held_update QueuePlace.inserted s.place t p
  have hclaimed := held_update QueuePlace.claimed s.place t p
  have hremoved := held_update QueuePlace.removed s.place t p
  have hcapacity := h.places
  have hcount := h.messages
  rw [← hplace] at hreserved hinserted hclaimed hremoved
  refine ⟨links, exclusive, apart, history, first, by omega, by omega, ?_, ?_⟩
  · intro msg
    have hfinishing := held_update (·.finishing.count msg) s.place t p
    have hbefore := h.enqueued msg
    have hmove := henqueued msg
    rw [← hplace] at hfinishing
    omega
  · intro msg
    have hreturning := held_update (·.returning.count msg) s.place t p
    have hbefore := h.dequeued msg
    have hmove := hdequeued msg
    rw [← hplace] at hreturning
    omega

omit [DecidableEq Thread] in
/-- A thread outside the critical section is not its owner. -/
theorem owner_ne (h : Holds kind head s queue) (hout : (s.place t).critical = false) :
    s.mutex ≠ some t := by
  intro howner
  rw [(h.exclusive t).mpr howner] at hout
  cases hout

omit [Fintype Thread] [DecidableEq Msg] in
theorem entering_keep (hne : s.mutex ≠ some t) :
    (s.mutex.elim [] fun u => (Function.update s.place t p u).entering) =
      s.mutex.elim [] fun u => (s.place u).entering := by
  cases hmutex : s.mutex with
  | none => rfl
  | some owner =>
      have howner : owner ≠ t := by
        rintro rfl
        exact hne hmutex
      simp [Function.update_of_ne howner]

theorem removing_keep (h : Holds kind head s queue) (hp : p.removing = none)
    {t' : Thread} {item : Msg}
    (hitem : (Function.update s.place t p t').removing = some item) :
    queue.head? = some item := by
  rcases eq_or_ne t' t with rfl | hne
  · rw [Function.update_self, hp] at hitem
    cases hitem
  · rw [Function.update_of_ne hne] at hitem
    exact h.first t' item hitem

/-- A thread that stays outside the critical section leaves the list alone. -/
theorem outside (h : Holds kind head s queue) (t : Thread) (p : QueuePlace Msg)
    (hplace : s'.place = Function.update s.place t p) (hlinks : s'.links = s.links)
    (hmutex : s'.mutex = s.mutex) (hentered : s'.history.entered = s.history.entered)
    (htaken : s'.history.taken = s.history.taken)
    (hout : (s.place t).critical = false) (hp : p.critical = false)
    (apart : Apart s'.place (head :: queue))
    (hplaces : s'.full + p.reserved + p.removed =
      s.full + (s.place t).reserved + (s.place t).removed)
    (hmessages : s'.empty + p.claimed + p.inserted =
      s.empty + (s.place t).claimed + (s.place t).inserted)
    (henqueued : s'.history.enqueued ++ p.finishing = s.history.enqueued ++ (s.place t).finishing)
    (hdequeued : s'.history.dequeued ++ p.returning =
      s.history.dequeued ++ (s.place t).returning) :
    Holds kind head s' queue := by
  have hremoving : p.removing = none := by
    cases p <;> first | rfl | cases hp
  refine h.move t p hplace (hlinks ▸ h.links) ?_ apart ?_ ?_ (by omega) (by omega)
    (fun msg => ?_) (fun msg => ?_)
  · rw [hplace, hmutex]
    exact h.exclusive.keep (hp.trans hout.symm)
  · rw [hentered, htaken, hplace, hmutex, entering_keep (h.owner_ne hout)]
    exact h.history
  · intro t' item hitem
    rw [hplace] at hitem
    exact h.removing_keep hremoving hitem
  · rw [htaken, ← List.count_append, henqueued, List.count_append]
  · rw [htaken, ← List.count_append, hdequeued, List.count_append]

/-- An enqueue enters the critical section with its message. -/
theorem enter (h : Holds kind head s queue) {msg : Msg} (hmutex : s.mutex = none)
    (hplace : s.place t = .lockInsert msg) :
    Holds kind head ({ s with
      mutex := some t
      history := { s.history with entered := s.history.entered ++ [msg] } }.moveTo t
        (.insertTail msg)) queue := by
  refine h.move t (.insertTail msg) rfl h.links ?_ ?_ ?_ ?_ ?_ ?_ ?_ ?_
  · exact (hmutex ▸ h.exclusive).acquire rfl
  · exact h.apart.keep (Or.inl (by rw [hplace]; rfl))
  · have hhistory := h.history
    rw [hmutex] at hhistory
    simp [QueueState.moveTo, hhistory, QueuePlace.entering]
  · exact fun t' item hitem => h.removing_keep rfl hitem
  all_goals simp [QueueState.moveTo, hplace, QueuePlace.reserved, QueuePlace.removed,
    QueuePlace.claimed, QueuePlace.inserted,
    QueuePlace.finishing, QueuePlace.returning]

/-- A dequeue enters the critical section. -/
theorem enterRemove (h : Holds kind head s queue) (hmutex : s.mutex = none)
    (hplace : s.place t = .lockRemove) :
    Holds kind head ({ s with mutex := some t }.moveTo t .readHead) queue := by
  refine h.move t .readHead rfl h.links ?_ ?_ ?_ ?_ ?_ ?_ ?_ ?_
  · exact (hmutex ▸ h.exclusive).acquire rfl
  · exact h.apart.keep (Or.inr rfl)
  · have hhistory := h.history
    rw [hmutex] at hhistory
    simp [QueueState.moveTo, hhistory, QueuePlace.entering]
  · exact fun t' item hitem => h.removing_keep rfl hitem
  all_goals simp [QueueState.moveTo, hplace, QueuePlace.reserved, QueuePlace.removed,
    QueuePlace.claimed, QueuePlace.inserted,
    QueuePlace.finishing, QueuePlace.returning]

omit [DecidableEq Thread] in
/-- The thread in the critical section owns the mutex. -/
theorem owner_eq (h : Holds kind head s queue) (hin : (s.place t).critical = true) :
    s.mutex = some t :=
  (h.exclusive t).mp hin

/-- The message goes to the end of the list. -/
theorem inserts (h : Holds kind head s queue) {msg : Msg}
    (hplace : s.place t = .insertTail msg) :
    Holds kind head
      ({ s with links := s.links.insertTail head msg }.moveTo t (.unlockInsert msg))
      (queue ++ [msg]) := by
  have hpending : (s.place t).pending = some msg := by rw [hplace]; rfl
  have hmutex := h.owner_eq (t := t) (by rw [hplace]; rfl)
  refine h.move t (.unlockInsert msg) rfl ?_ ?_ ?_ ?_ ?_ ?_ ?_ ?_ ?_
  · exact h.links.insertTail (h.apart t msg hpending).1
  · exact h.exclusive.keep (by rw [hplace]; rfl)
  · exact h.apart.insert hpending rfl
  · have hhistory := h.history
    simp only [hmutex, hplace, Option.elim_some, QueuePlace.entering] at hhistory
    simp [QueueState.moveTo, hmutex, hhistory, QueuePlace.entering]
  · intro t' item hitem
    simp [h.removing_keep rfl hitem]
  all_goals simp only [QueueState.moveTo, hplace, QueuePlace.reserved, QueuePlace.removed,
    QueuePlace.claimed, QueuePlace.inserted, QueuePlace.finishing, QueuePlace.returning,
    List.length_append, List.length_singleton, List.count_append, List.count_nil]
  · omega
  · omega
  · intro msg'
    omega
  · exact fun _ => trivial

omit [DecidableEq Thread] in
/-- A thread that holds a message of the semaphore finds one in the list. -/
theorem queue_ne_nil (h : Holds kind head s queue) (hclaimed : (s.place t).claimed = 1) :
    queue ≠ [] := by
  rintro rfl
  have hcount := h.messages
  have hheld := le_held QueuePlace.claimed s.place t
  simp only [List.length_nil] at hcount
  omega

/-- The head of the list is read. -/
theorem reads (h : Holds kind head s queue) (hplace : s.place t = .readHead) :
    Holds kind head (s.moveTo t (.remove (s.links.head head))) queue := by
  obtain ⟨first, rest, rfl⟩ := List.exists_cons_of_ne_nil
    (h.queue_ne_nil (t := t) (by rw [hplace]; rfl))
  have hmutex := h.owner_eq (t := t) (by rw [hplace]; rfl)
  refine h.move t (.remove (s.links.head head)) rfl h.links ?_ ?_ ?_ ?_ ?_ ?_ ?_ ?_
  · exact h.exclusive.keep (by rw [hplace]; rfl)
  · exact h.apart.keep (Or.inr rfl)
  · have hhistory := h.history
    simp only [hmutex, hplace, Option.elim_some, QueuePlace.entering] at hhistory
    simp [QueueState.moveTo, hmutex, hhistory, QueuePlace.entering]
  · intro t' item hitem
    rcases eq_or_ne t' t with rfl | hne
    · simpa [QueueState.moveTo, QueuePlace.removing, h.links.head_cons] using hitem
    · simp only [QueueState.moveTo, Function.update_of_ne hne] at hitem
      exact h.first t' item hitem
  all_goals simp [QueueState.moveTo, hplace, QueuePlace.reserved, QueuePlace.removed,
    QueuePlace.claimed, QueuePlace.inserted,
    QueuePlace.finishing, QueuePlace.returning]

/-- The message read at the head leaves the list. -/
theorem removes (h : Holds kind head s queue) {item : Msg}
    (hplace : s.place t = .remove item) :
    ∃ rest, queue = item :: rest ∧ Holds kind head ({ s with
      links := s.links.remove item
      history := { s.history with taken := s.history.taken ++ [item] } }.moveTo t
        (.unlockRemove item)) rest := by
  have hfirst := h.first t item (by rw [hplace]; rfl)
  obtain ⟨rest, rfl⟩ := List.head?_eq_some_iff.mp hfirst
  have hmutex := h.owner_eq (t := t) (by rw [hplace]; rfl)
  refine ⟨rest, rfl, h.move t (.unlockRemove item) rfl h.links.remove_head ?_ ?_ ?_ ?_ ?_ ?_ ?_ ?_⟩
  · exact h.exclusive.keep (by rw [hplace]; rfl)
  · refine Apart.keep (h.apart.shrink ?_) (Or.inr rfl)
    exact List.cons_subset_cons head (List.subset_cons_self item rest)
  · have hhistory := h.history
    simp only [hmutex, hplace, Option.elim_some, QueuePlace.entering] at hhistory
    simp [QueueState.moveTo, hmutex, hhistory, QueuePlace.entering]
  · -- Nobody else has read the head: the reader would be in the critical section.
    intro t' item' hitem
    rcases eq_or_ne t' t with rfl | hne
    · simp [QueueState.moveTo, QueuePlace.removing] at hitem
    · simp only [QueueState.moveTo, Function.update_of_ne hne] at hitem
      have hin : (s.place t').critical = true := by
        cases hplace' : s.place t' <;> simp_all [QueuePlace.removing, QueuePlace.critical]
      rw [h.owner_eq hin] at hmutex
      exact absurd (Option.some.inj hmutex) hne
  all_goals simp only [QueueState.moveTo, hplace, QueuePlace.reserved, QueuePlace.removed,
    QueuePlace.claimed, QueuePlace.inserted, QueuePlace.finishing, QueuePlace.returning,
    List.length_cons, List.count_append, List.count_cons, List.count_nil]
  all_goals omega

/-- The owner unlocks the mutex, with nothing left to insert. -/
theorem leave (h : Holds kind head s queue) (hin : (s.place t).critical = true)
    (hentering : (s.place t).entering = []) (hp : p.critical = false)
    (hpending : p.pending = none) (hremoving : p.removing = none)
    (hplaces : p.reserved + p.removed = (s.place t).reserved + (s.place t).removed)
    (hmessages : p.claimed + p.inserted = (s.place t).claimed + (s.place t).inserted)
    (henqueued : p.finishing = (s.place t).finishing)
    (hdequeued : p.returning = (s.place t).returning) :
    Holds kind head ({ s with mutex := none }.moveTo t p) queue := by
  have hmutex := h.owner_eq hin
  refine h.move t p rfl h.links (h.exclusive.release hin hp) (h.apart.keep (Or.inr hpending))
    ?_ (fun t' item hitem => h.removing_keep hremoving hitem) ?_ ?_ ?_ ?_
  · have hhistory := h.history
    simp only [hmutex, Option.elim_some, hentering] at hhistory
    simp [QueueState.moveTo, hhistory]
  · simp only [QueueState.moveTo]
    omega
  · simp only [QueueState.moveTo]
    omega
  · intro msg
    rw [henqueued]
    rfl
  · intro msg
    rw [hdequeued]
    rfl

omit [DecidableEq Thread] in
/-- What is in the queue for `malloc`: the list, and the message about to be inserted. -/
theorem mem_present (h : Holds kind head s queue) {msg : Msg} (hmsg : msg ∈ queue) :
    msg ∈ s.present := by
  rw [QueueState.present, h.history, List.append_assoc, List.drop_left]
  exact List.mem_append_left _ hmsg

end Holds

variable {kind : QueueKind} {head : Msg} {s : QueueState Thread Msg}
  {queue : List Msg}

/-- Every operation of a thread inside the two functions keeps the invariant. -/
theorem proceed_holds (h : Holds kind head s queue) (t : Thread) :
    ∃ queue', Holds kind head (proceed kind head s t) queue' := by
  unfold proceed
  cases hplace : s.place t with
  | outside => exact ⟨queue, h⟩
  | waitFull msg =>
      dsimp only
      split_ifs with hfull
      · refine ⟨queue, h.outside t (.lockInsert msg) rfl rfl rfl rfl rfl (by rw [hplace]; rfl) rfl
          (h.apart.keep (Or.inl (by rw [hplace]; rfl))) ?_ ?_ ?_ ?_⟩
        all_goals simp only [QueueState.moveTo, hplace, QueuePlace.reserved, QueuePlace.removed,
          QueuePlace.claimed, QueuePlace.inserted,
    QueuePlace.finishing, QueuePlace.returning]
        omega
      · exact ⟨queue, h⟩
  | lockInsert msg =>
      dsimp only
      split_ifs with hmutex
      · exact ⟨queue, h.enter hmutex hplace⟩
      · exact ⟨queue, h⟩
  | insertTail msg => exact ⟨queue ++ [msg], h.inserts hplace⟩
  | unlockInsert msg =>
      refine ⟨queue, h.leave ?_ ?_ rfl rfl rfl ?_ ?_ ?_ ?_⟩
      all_goals rw [hplace]; rfl
  | postEmpty msg =>
      refine ⟨queue, h.outside t .outside rfl rfl rfl rfl rfl (by rw [hplace]; rfl) rfl
        (h.apart.keep (Or.inr rfl)) ?_ ?_ ?_ ?_⟩
      all_goals simp [QueueState.moveTo, hplace, QueuePlace.reserved, QueuePlace.removed,
        QueuePlace.claimed, QueuePlace.inserted,
    QueuePlace.finishing, QueuePlace.returning]
  | waitEmpty =>
      dsimp only
      split_ifs with hempty hwaits
      · refine ⟨queue, h.outside t .lockRemove rfl rfl rfl rfl rfl (by rw [hplace]; rfl) rfl
          (h.apart.keep (Or.inr rfl)) ?_ ?_ ?_ ?_⟩
        all_goals simp only [QueueState.moveTo, hplace, QueuePlace.reserved, QueuePlace.removed,
          QueuePlace.claimed, QueuePlace.inserted,
    QueuePlace.finishing, QueuePlace.returning]
        omega
      · exact ⟨queue, h⟩
      · refine ⟨queue, h.outside t .outside rfl rfl rfl rfl rfl (by rw [hplace]; rfl) rfl
          (h.apart.keep (Or.inr rfl)) ?_ ?_ ?_ ?_⟩
        all_goals simp [QueueState.moveTo, hplace, QueuePlace.reserved, QueuePlace.removed,
          QueuePlace.claimed, QueuePlace.inserted,
    QueuePlace.finishing, QueuePlace.returning]
  | lockRemove =>
      dsimp only
      split_ifs with hmutex
      · exact ⟨queue, h.enterRemove hmutex hplace⟩
      · exact ⟨queue, h⟩
  | readHead => exact ⟨queue, h.reads hplace⟩
  | remove item =>
      obtain ⟨rest, -, hrest⟩ := h.removes hplace
      exact ⟨rest, hrest⟩
  | unlockRemove item =>
      refine ⟨queue, h.leave ?_ ?_ rfl rfl rfl ?_ ?_ ?_ ?_⟩
      all_goals rw [hplace]; rfl
  | postFull item =>
      refine ⟨queue, h.outside t .outside rfl rfl rfl rfl rfl (by rw [hplace]; rfl) rfl
        (h.apart.keep (Or.inr rfl)) ?_ ?_ ?_ ?_⟩
      all_goals simp [QueueState.moveTo, hplace, QueuePlace.reserved, QueuePlace.removed,
        QueuePlace.claimed, QueuePlace.inserted,
    QueuePlace.finishing, QueuePlace.returning]

theorem queueStep_holds (h : Holds kind head s queue) (input : Thread × QueueAction Msg) :
    ∃ queue', Holds kind head (queueStep kind head s input) queue' := by
  obtain ⟨t, action⟩ := input
  cases action with
  | enqueue msg =>
      simp only [queueStep]
      cases hplace : s.place t with
      | outside =>
          dsimp only
          split_ifs with hfresh
          · obtain ⟨hhead, hpresent, hothers⟩ := hfresh
            refine ⟨queue, h.outside t (.waitFull msg) rfl rfl rfl rfl rfl (by rw [hplace]; rfl)
              rfl (h.apart.begin rfl ?_ hothers) ?_ ?_ ?_ ?_⟩
            · rintro (_ | ⟨_, hmem⟩)
              · exact hhead rfl
              · exact hpresent (h.mem_present hmem)
            all_goals simp [QueueState.moveTo, hplace, QueuePlace.reserved, QueuePlace.removed,
              QueuePlace.claimed, QueuePlace.inserted,
    QueuePlace.finishing, QueuePlace.returning]
          · exact ⟨queue, h⟩
      | _ => exact ⟨queue, h⟩
  | dequeue =>
      simp only [queueStep]
      cases hplace : s.place t with
      | outside =>
          refine ⟨queue, h.outside t .waitEmpty rfl rfl rfl rfl rfl (by rw [hplace]; rfl) rfl
            (h.apart.keep (Or.inr rfl)) ?_ ?_ ?_ ?_⟩
          all_goals simp [QueueState.moveTo, hplace, QueuePlace.reserved, QueuePlace.removed,
            QueuePlace.claimed, QueuePlace.inserted,
    QueuePlace.finishing, QueuePlace.returning]
      | _ => exact ⟨queue, h⟩
  | proceed => exact proceed_holds h t

omit [DecidableEq Thread] in
theorem msgQueueInit_holds (links : Links Msg) :
    Holds kind head (msgQueueInit kind head links : QueueState Thread Msg) [] where
  links := Links.threads_init
  exclusive := fun t => by simp [msgQueueInit, QueuePlace.critical]
  apart := fun t msg hmsg => by simp [msgQueueInit, QueuePlace.pending] at hmsg
  history := rfl
  first := fun t item hitem => by simp [msgQueueInit, QueuePlace.removing] at hitem
  places := by simp [msgQueueInit, held, QueuePlace.reserved, QueuePlace.removed]
  messages := by simp [msgQueueInit, held, QueuePlace.claimed, QueuePlace.inserted]
  enqueued := fun msg => by simp [msgQueueInit, held, QueuePlace.finishing]
  dequeued := fun msg => by simp [msgQueueInit, held, QueuePlace.returning]

/-- Some list meets the invariant in every state that a run reaches. -/
theorem run_holds (links : Links Msg) (inputs : List (Thread × QueueAction Msg)) :
    ∃ queue, Holds kind head
      (run (queueStep kind head) (msgQueueInit kind head links) inputs) queue :=
  run_invariant_of_mem (queueStep kind head) (fun s => ∃ queue, Holds kind head s queue) inputs
    ⟨[], msgQueueInit_holds links⟩ fun _ input _ ⟨_, h⟩ => queueStep_holds h input

namespace Holds

omit [DecidableEq Thread] in
theorem length_le (h : Holds kind head s queue) : queue.length ≤ kind.capacity := by
  have hplaces := h.places
  omega

omit [DecidableEq Thread] in
/-- The messages that left the list are the first that entered the queue. -/
theorem taken_prefix (h : Holds kind head s queue) :
    s.history.taken <+: s.history.entered := by
  rw [h.history, List.append_assoc]
  exact List.prefix_append _ _

omit [DecidableEq Thread] in
/-- What the dequeues returned has left the list. -/
theorem dequeued_subperm (h : Holds kind head s queue) :
    s.history.dequeued.Subperm s.history.taken := by
  apply List.subperm_ext_iff.mpr
  intro msg _
  have hcount := h.dequeued msg
  omega

omit [DecidableEq Thread] in
theorem dequeued_subperm_entered (h : Holds kind head s queue) :
    s.history.dequeued.Subperm s.history.entered :=
  h.dequeued_subperm.trans h.taken_prefix.sublist.subperm

end Holds

/-- Of a queue, in any interleaving of any number of threads after its
initialisation: the list stays within the capacity; a dequeue about to read the
head finds a message there; the messages leave in the order in which their
enqueues entered the critical section, each once at most; and once as many
dequeues have returned as enqueues have entered, each exactly once. -/
theorem queue_run (kind : QueueKind) (head : Msg) (links : Links Msg)
    (inputs : List (Thread × QueueAction Msg)) :
    let s := run (queueStep kind head) (msgQueueInit kind head links) inputs
    (∃ queue, s.links.Threads head queue ∧ queue.length ≤ kind.capacity ∧
      ∀ t, s.place t = .readHead → s.links.head head ∈ queue) ∧
      s.history.taken <+: s.history.entered ∧
      s.history.dequeued.Subperm s.history.taken ∧
      (s.history.dequeued.length = s.history.entered.length →
        s.history.taken = s.history.entered ∧ s.history.dequeued.Perm s.history.entered) := by
  intro s
  obtain ⟨queue, h⟩ : ∃ queue, Holds kind head s queue := run_holds links inputs
  refine ⟨⟨queue, h.links, h.length_le, ?_⟩, h.taken_prefix, h.dequeued_subperm, ?_⟩
  · intro t hread
    obtain ⟨first, rest, rfl⟩ := List.exists_cons_of_ne_nil
      (h.queue_ne_nil (t := t) (by rw [hread]; rfl))
    rw [h.links.head_cons]
    exact List.mem_cons_self
  · intro hall
    have hlength : s.history.entered.length ≤ s.history.taken.length :=
      hall ▸ h.dequeued_subperm.length_le
    refine ⟨h.taken_prefix.eq_of_length_le hlength, ?_⟩
    exact h.dequeued_subperm_entered.perm_of_length_le (Nat.le_of_eq hall.symm)

end Invariant

/-- As many dequeues as enqueues may have returned while a message is left: the
enqueue that entered first has still to post, and its message is the one taken. -/
theorem not_dequeued_when_counts_agree :
    let proceeds (t : Fin 3) (n : ℕ) : List (Fin 3 × QueueAction (Fin 3)) :=
      List.replicate n (t, .proceed)
    let inputs : List (Fin 3 × QueueAction (Fin 3)) :=
      (0, .enqueue 1) :: proceeds 0 4 ++ (1, .enqueue 2) :: proceeds 1 5 ++
        (2, .dequeue) :: proceeds 2 6
    let s := run (queueStep msgQueue 0) (msgQueueInit msgQueue 0 ⟨id, id⟩) inputs
    s.history.dequeued.length = s.history.enqueued.length ∧
      2 ∈ s.history.enqueued ∧ 2 ∉ s.history.dequeued ∧ 2 ∉ s.history.taken := by
  decide

end AdaptiveSignal.Network
